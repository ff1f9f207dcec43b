import Mathlib.Logic.Function.Basic
import Mathlib.Tactic.Common

/-!
# A bitmask in words

A bitmask is an array of words of `w` bits, and bit `i` of it is bit `i % w` of word `i / w`.
Reading and setting a bit outside the array fails. `mask` is the set of bits as a function, false
outside the array:

* `mask_setBit?` — setting a bit is an update of this function;
* `mask_zeros`, `mask_append_zeros` — words of zeros, alone or behind others, are no bits.
-/

namespace Lib

variable {w : Nat}

/-- `words[i / w] >> (i % w) & 1` -/
def getBit? (words : List (BitVec w)) (i : Nat) : Option Bool :=
  words[i / w]?.map fun word => word.getLsbD (i % w)

/-- `words[i / w] |= 1 << (i % w)` -/
def setBit? (words : List (BitVec w)) (i : Nat) : Option (List (BitVec w)) :=
  words[i / w]?.map fun word => words.set (i / w) (word ||| 1#w <<< (i % w))

/-- The bits that are set. -/
def mask (words : List (BitVec w)) (i : Nat) : Bool := (getBit? words i).getD false

variable {words words' : List (BitVec w)} {i : Nat}

theorem getBit?_of_lt (h : i / w < words.length) : getBit? words i = some (mask words i) := by
  simp [mask, getBit?, h]

theorem mask_of_le (h : words.length ≤ i / w) : mask words i = false := by
  simp [mask, getBit?, List.getElem?_eq_none h]

theorem length_setBit? (h : setBit? words i = some words') : words'.length = words.length := by
  obtain ⟨word, _, rfl⟩ := Option.map_eq_some_iff.1 h
  exact List.length_set ..

theorem setBit?_isSome (h : i / w < words.length) : ∃ words', setBit? words i = some words' := by
  refine ⟨words.set (i / w) (words[i / w] ||| 1#w <<< (i % w)), ?_⟩
  simp [setBit?, h]

theorem mask_setBit? (hw : 0 < w) (h : setBit? words i = some words') :
    mask words' = Function.update (mask words) i true := by
  obtain ⟨word, hword, rfl⟩ := Option.map_eq_some_iff.1 h
  obtain ⟨hlt, rfl⟩ := List.getElem?_eq_some_iff.1 hword
  funext j
  have hj := Nat.div_add_mod j w
  have hi := Nat.div_add_mod i w
  have hjw := Nat.mod_lt j hw
  have hiw := Nat.mod_lt i hw
  by_cases hji : j = i
  · rw [hji, Function.update_self]
    simp [mask, getBit?, hlt, hiw]
  · rw [Function.update_of_ne hji]
    by_cases hdiv : j / w = i / w
    · -- another bit of the word
      have hmod : j % w ≠ i % w := by
        intro hmod
        rw [hdiv, hmod] at hj
        exact hji (hj.symm.trans hi)
      simp only [mask, getBit?, hdiv, List.getElem?_set_self hlt, List.getElem?_eq_getElem hlt,
        Option.map_some, Option.getD_some, BitVec.getLsbD_or, BitVec.getLsbD_shiftLeft,
        BitVec.getLsbD_one]
      by_cases hlt' : j % w < i % w
      · simp [hlt']
      · have hne : j % w - i % w ≠ 0 := by omega
        simp [hne]
    · simp [mask, getBit?, List.getElem?_set_ne (Ne.symm hdiv)]

theorem mask_zeros (n : Nat) : mask (List.replicate n (0#w)) = fun _ => false := by
  funext i
  by_cases h : i / w < n
  · simp [mask, getBit?, h]
  · exact mask_of_le (by rw [List.length_replicate]; omega)

/-- Words of zeros behind the array are no bits. -/
theorem mask_append_zeros (n : Nat) : mask (words ++ List.replicate n (0#w)) = mask words := by
  funext i
  by_cases h : i / w < words.length
  · simp [mask, getBit?, List.getElem?_append_left h]
  · rw [mask_of_le (Nat.le_of_not_lt h)]
    by_cases h' : i / w < words.length + n
    · have hzero : i / w - words.length < n := by omega
      simp [mask, getBit?, List.getElem?_append_right (Nat.le_of_not_lt h), hzero]
    · refine mask_of_le ?_
      rw [List.length_append, List.length_replicate]
      omega

end Lib
