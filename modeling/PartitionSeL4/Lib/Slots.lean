import Mathlib.Data.List.Nodup
import Mathlib.Logic.Function.Basic

/-!
# Slots and their holders

A pool of slots, some of them in a free list and some of them held. `SlotsOk P free holds` says that
they do not get mixed up: all of them satisfy `P`, no slot is free twice, none is both free and
held, and none is held by two holders. A slot taken from the end of the free list, given back, or
lost keeps this true. A slot given back by one who does not hold it is what breaks it.
-/

namespace Lib

variable {α κ : Type*}

/-- The slots of the free list and of the holders are kept apart. -/
structure SlotsOk (P : α → Prop) (free : List α) (holds : κ → Option α) : Prop where
  nodup : free.Nodup
  free_mem : ∀ x ∈ free, P x
  held_mem : ∀ k x, holds k = some x → P x
  disjoint : ∀ k x, holds k = some x → x ∉ free
  unique : ∀ k k' x, holds k = some x → holds k' = some x → k = k'

namespace SlotsOk

variable {P : α → Prop} {free : List α} {holds : κ → Option α} {k : κ} {x : α}

theorem init (hnodup : free.Nodup) (hmem : ∀ x ∈ free, P x) :
    SlotsOk P free (fun _ : κ => (none : Option α)) := by
  refine ⟨hnodup, hmem, ?_, ?_, ?_⟩
  · intro k x h
    cases h
  · intro k x h
    cases h
  · intro k k' x h
    cases h

/-- Slots may get lost from the free list. -/
theorem sublist {free' : List α} (h : SlotsOk P free holds) (hsub : free'.Sublist free) :
    SlotsOk P free' holds where
  nodup := h.nodup.sublist hsub
  free_mem x hx := h.free_mem x (hsub.subset hx)
  held_mem := h.held_mem
  disjoint k x hk hx := h.disjoint k x hk (hsub.subset hx)
  unique := h.unique

variable [DecidableEq κ]

theorem take (h : SlotsOk P (free ++ [x]) holds) (k : κ) :
    SlotsOk P free (Function.update holds k (some x)) := by
  obtain ⟨hnodup, _, hnotin⟩ := List.nodup_append.1 h.nodup
  have hx : x ∉ free := fun hx => hnotin x hx x (List.mem_singleton.2 rfl) rfl
  have hheld : ∀ k' y, holds k' = some y → y ≠ x := by
    intro k' y hk' heq
    exact h.disjoint k' y hk' (by simp [heq])
  refine ⟨hnodup, fun y hy => h.free_mem y (by simp [hy]), ?_, ?_, ?_⟩
  · intro k' y hy
    rw [Function.update_apply] at hy
    split_ifs at hy
    · cases hy
      exact h.free_mem x (by simp)
    · exact h.held_mem k' y hy
  · intro k' y hy
    rw [Function.update_apply] at hy
    split_ifs at hy
    · cases hy
      exact hx
    · exact fun hfree => h.disjoint k' y hy (by simp [hfree])
  · intro k₁ k₂ y h₁ h₂
    rw [Function.update_apply] at h₁ h₂
    split_ifs at h₁ h₂ with hk₁ hk₂ hk₂
    · rw [hk₁, hk₂]
    · cases h₁
      exact absurd rfl (hheld k₂ _ h₂)
    · cases h₂
      exact absurd rfl (hheld k₁ _ h₁)
    · exact h.unique k₁ k₂ y h₁ h₂

theorem lose (h : SlotsOk P free holds) (k : κ) :
    SlotsOk P free (Function.update holds k none) := by
  have hback : ∀ k' y, Function.update holds k none k' = some y → holds k' = some y := by
    intro k' y hy
    rw [Function.update_apply] at hy
    split_ifs at hy
    exact hy
  exact ⟨h.nodup, h.free_mem, fun k' y hy => h.held_mem k' y (hback k' y hy),
    fun k' y hy => h.disjoint k' y (hback k' y hy),
    fun k₁ k₂ y h₁ h₂ => h.unique k₁ k₂ y (hback k₁ y h₁) (hback k₂ y h₂)⟩

theorem give (h : SlotsOk P free holds) (hk : holds k = some x) :
    SlotsOk P (free ++ [x]) (Function.update holds k none) := by
  have hlost := h.lose k
  refine ⟨?_, ?_, hlost.held_mem, ?_, hlost.unique⟩
  · rw [← List.concat_eq_append]
    exact h.nodup.concat (h.disjoint k x hk)
  · intro y hy
    rcases List.mem_append.1 hy with hy | hy
    · exact h.free_mem y hy
    · rw [List.mem_singleton.1 hy]
      exact h.held_mem k x hk
  · intro k' y hy hmem
    rcases List.mem_append.1 hmem with hmem | hmem
    · exact hlost.disjoint k' y hy hmem
    · -- the slot given back was held by one holder only
      rw [List.mem_singleton.1 hmem, Function.update_apply] at hy
      split_ifs at hy with hne
      exact hne (h.unique k' k x hy hk)

end SlotsOk

end Lib
