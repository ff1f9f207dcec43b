import Mathlib.Logic.Function.Iterate
import Mathlib.Data.Nat.Find

/-!
# Bounded do-while loops and cyclic scans

`doUntil next stop fuel a` is `do a = next(a); while (!stop(a))` cut off after `fuel` rounds.
`doUntil_eq_some_iff` is its one specification: the loop ends at the first iterate of `next`
that satisfies `stop`. The second half is the successor of a cyclic index range, whose iterates
visit every index of the range once per lap.
-/

namespace Lib

variable {α : Type*}

/-- A do-while loop, cut off after `fuel` rounds. -/
def doUntil (next : α → α) (stop : α → Bool) : Nat → α → Option α
  | 0, _ => none
  | fuel + 1, a => if stop (next a) then some (next a) else doUntil next stop fuel (next a)

/-- The loop ends at the first iterate that satisfies `stop`. -/
theorem doUntil_eq_some_iff {next : α → α} {stop : α → Bool} {fuel : Nat} {a b : α} :
    doUntil next stop fuel a = some b ↔
      ∃ k < fuel, b = next^[k + 1] a ∧ stop b = true ∧
        ∀ j < k, stop (next^[j + 1] a) = false := by
  induction fuel generalizing a with
  | zero => simp [doUntil]
  | succ fuel ih =>
      rw [doUntil]
      by_cases hs : stop (next a) = true
      · rw [if_pos hs, Option.some.injEq]
        constructor
        · rintro rfl
          exact ⟨0, by omega, rfl, hs, by simp⟩
        · rintro ⟨k, _, rfl, _, hfirst⟩
          cases k with
          | zero => rfl
          | succ k =>
              have h0 := hfirst 0 (by omega)
              simp [hs] at h0
      · rw [if_neg hs, ih]
        constructor
        · rintro ⟨k, hk, rfl, hb, hfirst⟩
          refine ⟨k + 1, by omega, rfl, hb, fun j hj => ?_⟩
          cases j with
          | zero => simpa using hs
          | succ j => exact hfirst j (by omega)
        · rintro ⟨k, hk, rfl, hb, hfirst⟩
          cases k with
          | zero => exact absurd hb hs
          | succ k => exact ⟨k, by omega, rfl, hb, fun j hj => hfirst (j + 1) (by omega)⟩

/-- The loop ends within `fuel` rounds as soon as one of these rounds satisfies `stop`. -/
theorem exists_doUntil_eq_some {next : α → α} {stop : α → Bool} {fuel k : Nat} {a : α}
    (hk : k < fuel) (hs : stop (next^[k + 1] a) = true) :
    ∃ b, doUntil next stop fuel a = some b := by
  classical
  have hex : ∃ k, stop (next^[k + 1] a) = true := ⟨k, hs⟩
  have hle : Nat.find hex ≤ k := Nat.find_min' hex hs
  refine ⟨next^[Nat.find hex + 1] a, doUntil_eq_some_iff.2
    ⟨Nat.find hex, by omega, rfl, Nat.find_spec hex, fun j hj => ?_⟩⟩
  simpa using Nat.find_min hex hj

/-! ## Cyclic ranges -/

/-- The index after `i` in the cyclic range `[low, high]`. -/
def cycSucc (low high i : Nat) : Nat := if high < i + 1 then low else i + 1

theorem cycSucc_eq {low high i : Nat} (hl : low ≤ i) (hh : i ≤ high) :
    cycSucc low high i = low + (i - low + 1) % (high + 1 - low) := by
  unfold cycSucc
  split_ifs with h
  · have hi : i - low + 1 = high + 1 - low := by omega
    rw [hi, Nat.mod_self, Nat.add_zero]
  · rw [Nat.mod_eq_of_lt (by omega)]
    omega

theorem iterate_cycSucc {low high i : Nat} (hl : low ≤ i) (hh : i ≤ high) (k : Nat) :
    (cycSucc low high)^[k] i = low + (i - low + k) % (high + 1 - low) := by
  induction k with
  | zero =>
      rw [Nat.add_zero, Nat.mod_eq_of_lt (by omega)]
      simp only [Function.iterate_zero, id_eq]
      omega
  | succ k ih =>
      have hlt : (i - low + k) % (high + 1 - low) < high + 1 - low := Nat.mod_lt _ (by omega)
      rw [Function.iterate_succ_apply', ih, cycSucc_eq (by omega) (by omega),
        Nat.add_sub_cancel_left, ← Nat.add_assoc, Nat.add_mod _ 1, Nat.mod_mod,
        ← Nat.add_mod]

/-- The iterates stay in the range. -/
theorem iterate_cycSucc_mem {low high i : Nat} (hl : low ≤ i) (hh : i ≤ high) (k : Nat) :
    low ≤ (cycSucc low high)^[k] i ∧ (cycSucc low high)^[k] i ≤ high := by
  have hlt : (i - low + k) % (high + 1 - low) < high + 1 - low := Nat.mod_lt _ (by omega)
  rw [iterate_cycSucc hl hh]
  omega

/-- One lap leads back to the start. -/
theorem iterate_cycSucc_lap {low high i : Nat} (hl : low ≤ i) (hh : i ≤ high) :
    (cycSucc low high)^[high + 1 - low] i = i := by
  rw [iterate_cycSucc hl hh, Nat.add_mod_right, Nat.mod_eq_of_lt (by omega)]
  omega

/-- One lap visits every index of the range. -/
theorem exists_iterate_cycSucc {low high i j : Nat} (hl : low ≤ i) (hh : i ≤ high)
    (hl' : low ≤ j) (hh' : j ≤ high) :
    ∃ k < high + 1 - low, (cycSucc low high)^[k + 1] i = j := by
  by_cases hij : i < j
  · refine ⟨j - i - 1, by omega, ?_⟩
    rw [iterate_cycSucc hl hh, Nat.mod_eq_of_lt (by omega)]
    omega
  · refine ⟨high - low - (i - j), by omega, ?_⟩
    have hsum : i - low + (high - low - (i - j) + 1) = (j - low) + (high + 1 - low) := by omega
    rw [iterate_cycSucc hl hh, hsum, Nat.add_mod_right, Nat.mod_eq_of_lt (by omega)]
    omega

end Lib
