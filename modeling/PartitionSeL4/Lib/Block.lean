import Mathlib.Data.List.Basic

/-!
# Blocks that begin with the elements of a list

A growable array keeps its elements at the beginning of a block that is longer than it needs to be.
A block is a list of slots, of which those never written hold nothing. `Begins block xs` says that
the first slots hold the elements of `xs`. It is kept when an element is replaced, when one is put
into the slot behind the last, when the block gets more slots and when it loses some that are not
needed.
-/

namespace Lib

universe u

variable {α : Type u} {block : List (Option α)} {xs ys : List α} {x : α} {i n : Nat}

/-- The first slots of the block hold the elements of the list. -/
def Begins (block : List (Option α)) (xs : List α) : Prop := xs.map some <+: block

namespace Begins

theorem nil (block : List (Option α)) : Begins block [] := List.nil_prefix

theorem length_le (h : Begins block xs) : xs.length ≤ block.length := by
  simpa using List.IsPrefix.length_le h

theorem getElem? (h : Begins block xs) (hi : i < xs.length) : block[i]? = some (some xs[i]) := by
  obtain ⟨rest, rfl⟩ := h
  rw [List.getElem?_append_left (by simpa using hi), List.getElem?_map,
    List.getElem?_eq_getElem hi]
  rfl

theorem set (h : Begins block xs) (hi : i < xs.length) (x : α) :
    Begins (block.set i (some x)) (xs.set i x) := by
  obtain ⟨rest, rfl⟩ := h
  refine ⟨rest, ?_⟩
  rw [List.set_append_left _ _ (by simpa using hi), List.map_set]

theorem push (h : Begins block xs) (hlt : xs.length < block.length) (x : α) :
    Begins (block.set xs.length (some x)) (xs ++ [x]) := by
  obtain ⟨rest, rfl⟩ := h
  cases rest with
  | nil => simp at hlt
  | cons r rest =>
      refine ⟨rest, ?_⟩
      rw [List.set_append_right _ _ (by simp)]
      simp

theorem append (h : Begins block xs) (more : List (Option α)) : Begins (block ++ more) xs :=
  List.IsPrefix.trans h (List.prefix_append block more)

theorem take (h : Begins block xs) (hn : xs.length ≤ n) : Begins (block.take n) xs :=
  List.prefix_take_iff.2 ⟨h, by simpa using hn⟩

theorem of_append (h : Begins block (xs ++ ys)) : Begins block xs := by
  refine List.IsPrefix.trans ?_ h
  rw [List.map_append]
  exact List.prefix_append _ _

theorem eq_map_some (h : Begins block xs) : block.take xs.length = xs.map some := by
  obtain ⟨rest, rfl⟩ := h
  exact List.take_left' (by simp)

end Begins

end Lib
