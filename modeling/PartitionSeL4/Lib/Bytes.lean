import Mathlib.Algebra.Group.Nat.Defs
import Mathlib.Data.List.Basic
import Mathlib.Tactic.Common

/-!
# Memory as a function, copied block by block

A memory is a function from addresses to cells. `blit m off str` is `m` with the block `str` copied
to `off`, and `slice m off n` reads `n` cells from `off`. Both split at every point
(`blit_append`, `slice_add`), so that a copy done in pieces is the copy of the whole; and reading
what was written gives it back, there and nowhere else.

The last section is the little-endian encoding of a 32-bit word.
-/

namespace Lib

variable {β : Type*}

/-- The memory `m` with the block `str` copied to `off`. -/
def blit (m : Nat → β) (off : Nat) (str : List β) (i : Nat) : β :=
  if off ≤ i then (str[i - off]?).getD (m i) else m i

/-- The `n` cells of `m` from `off` on. -/
def slice (m : Nat → β) (off n : Nat) : List β := (List.range n).map fun j => m (off + j)

variable (m : Nat → β) (off : Nat) (str str' : List β)

@[simp] theorem blit_nil : blit m off [] = m := by
  funext i
  simp [blit]

theorem blit_of_outside {i : Nat} (h : i < off ∨ off + str.length ≤ i) :
    blit m off str i = m i := by
  unfold blit
  split_ifs with hi
  · rw [List.getElem?_eq_none (by omega)]
    rfl
  · rfl

theorem blit_of_inside {j : Nat} (h : j < str.length) : blit m off str (off + j) = str[j] := by
  simp [blit, h]

theorem blit_singleton (b : β) : blit m off [b] = Function.update m off b := by
  funext i
  obtain rfl | hne := eq_or_ne i off
  · simp [blit]
  · rw [Function.update_of_ne hne, blit_of_outside m off [b]]
    rw [List.length_singleton]
    omega

theorem blit_append :
    blit m off (str ++ str') = blit (blit m off str) (off + str.length) str' := by
  funext i
  unfold blit
  by_cases hi : off ≤ i
  · by_cases hlt : i < off + str.length
    · rw [List.getElem?_append_left (by omega), if_pos hi, if_neg (by omega)]
    · rw [List.getElem?_append_right (by omega), if_pos hi, if_pos (by omega), if_pos hi,
        List.getElem?_eq_none (l := str) (by omega), Nat.sub_sub]
      rfl
  · rw [if_neg hi, if_neg (by omega), if_neg hi]

@[simp] theorem slice_zero : slice m off 0 = [] := rfl

@[simp] theorem length_slice (n : Nat) : (slice m off n).length = n := by
  simp [slice]

theorem getElem?_slice {n j : Nat} (h : j < n) : (slice m off n)[j]? = some (m (off + j)) := by
  simp [slice, h]

theorem slice_add (n n' : Nat) :
    slice m off (n + n') = slice m off n ++ slice m (off + n) n' := by
  simp only [slice, List.range_add, List.map_append, List.map_map]
  congr 1
  refine List.map_congr_left fun j _ => ?_
  rw [Function.comp_apply, Nat.add_assoc]

theorem slice_congr (m' : Nat → β) {n : Nat} (h : ∀ i, off ≤ i → i < off + n → m i = m' i) :
    slice m off n = slice m' off n := by
  refine List.map_congr_left fun j hj => ?_
  have := List.mem_range.1 hj
  exact h _ (by omega) (by omega)

/-- A slice of a memory that holds a list is a piece of the list. -/
theorem slice_eq_of_getElem? {l : List β} {i n : Nat}
    (h : ∀ j < n, l[i + j]? = some (m (off + j))) : slice m off n = (l.drop i).take n := by
  refine List.ext_getElem? fun j => ?_
  by_cases hj : j < n
  · rw [getElem?_slice m off hj, List.getElem?_take_of_lt hj, List.getElem?_drop, h j hj]
  · rw [List.getElem?_eq_none (by rw [length_slice]; omega),
      List.getElem?_eq_none (by rw [List.length_take]; omega)]

/-- What was written is read. -/
theorem slice_blit_self : slice (blit m off str) off str.length = str := by
  refine List.ext_getElem (by simp) fun j h₁ h₂ => ?_
  simp only [slice, List.getElem_map, List.getElem_range]
  exact blit_of_inside m off str h₂

/-- The block `str` lies at `off`. -/
def HoldsAt (m : Nat → β) (off : Nat) (str : List β) : Prop := slice m off str.length = str

@[simp] theorem holdsAt_nil : HoldsAt m off [] := rfl

theorem holdsAt_blit : HoldsAt (blit m off str) off str := slice_blit_self m off str

variable {m off str str'}

theorem holdsAt_append :
    HoldsAt m off (str ++ str') ↔ HoldsAt m off str ∧ HoldsAt m (off + str.length) str' := by
  rw [HoldsAt, List.length_append, slice_add]
  constructor
  · intro h
    exact List.append_inj h (length_slice ..)
  · rintro ⟨h, h'⟩
    rw [h, h']

theorem holdsAt_cons {b : β} : HoldsAt m off (b :: str) ↔ m off = b ∧ HoldsAt m (off + 1) str := by
  have h : HoldsAt m off [b] ↔ m off = b := by
    simp [HoldsAt, slice]
  have happend : HoldsAt m off ([b] ++ str) ↔ HoldsAt m off [b] ∧ HoldsAt m (off + 1) str :=
    holdsAt_append
  rw [← h]
  exact happend

theorem HoldsAt.congr {m' : Nat → β} (h : HoldsAt m off str)
    (heq : ∀ i, off ≤ i → i < off + str.length → m' i = m i) : HoldsAt m' off str :=
  (slice_congr m' off m heq).trans h

/-! ## 32-bit words -/

/-- The four bytes of a word, the lowest first. -/
def leWord (n : Nat) : List UInt8 :=
  [.ofNat n, .ofNat (n / 2 ^ 8), .ofNat (n / 2 ^ 16), .ofNat (n / 2 ^ 24)]

/-- The number with the given bytes, the lowest first. -/
def ofLe : List UInt8 → Nat
  | [] => 0
  | b :: l => b.toNat + 2 ^ 8 * ofLe l

@[simp] theorem length_leWord (n : Nat) : (leWord n).length = 4 := rfl

theorem ofLe_lt (l : List UInt8) : ofLe l < 2 ^ (8 * l.length) := by
  induction l with
  | nil => simp [ofLe]
  | cons b l ih =>
      have hb := b.toNat_lt
      rw [ofLe, List.length_cons, Nat.mul_succ, Nat.pow_add]
      omega

theorem ofNat_ofLe_div {l : List UInt8} {k : Nat} (h : k < l.length) :
    UInt8.ofNat (ofLe l / 2 ^ (8 * k)) = l[k] := by
  induction l generalizing k with
  | nil => exact absurd h (Nat.not_lt_zero k)
  | cons b l ih =>
      have hb := b.toNat_lt
      cases k with
      | zero =>
          apply UInt8.toNat_inj.1
          simp only [ofLe, UInt8.toNat_ofNat', List.getElem_cons_zero]
          omega
      | succ k =>
          have hdiv : ofLe (b :: l) / 2 ^ (8 * (k + 1)) = ofLe l / 2 ^ (8 * k) := by
            rw [Nat.mul_succ, Nat.add_comm, Nat.pow_add, ← Nat.div_div_eq_div_mul, ofLe]
            congr 1
            omega
          rw [hdiv, ih (Nat.lt_of_succ_lt_succ h), List.getElem_cons_succ]

/-- The bytes of a word that was made of up to four bytes. -/
theorem take_leWord_ofLe {l : List UInt8} (h : l.length ≤ 4) :
    (leWord (ofLe l)).take l.length = l := by
  refine List.ext_getElem (by simp [h]) fun j hj hl => ?_
  rw [List.getElem_take, ← ofNat_ofLe_div hl]
  have : j = 0 ∨ j = 1 ∨ j = 2 ∨ j = 3 := by omega
  obtain rfl | rfl | rfl | rfl := this <;> simp [leWord]

theorem ofLe_leWord {n : Nat} (h : n < 2 ^ 32) : ofLe (leWord n) = n := by
  simp only [leWord, ofLe, UInt8.toNat_ofNat']
  omega

end Lib
