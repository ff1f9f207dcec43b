import Mathlib.Algebra.BigOperators.Group.List.Basic
import Mathlib.Order.Bounds.Basic
import Mathlib.Tactic.Ring
import Mathlib.Tactic.Linarith

/-!
# Cyclic time tables

A time table is a list of slot lengths that repeats for ever; one pass over it is a *frame*.
An absolute time `t` lies in exactly one slot of its frame, and that slot ends at the first slot
boundary after `t`.

A clock-driven dispatcher does not compute any of this: it keeps a slot index and the time at
which the slot ends, and moves both on when the clock reaches the end. `Sync` says that these two
counters are right for time `t`; `Sync.stay` and `Sync.advance` are the two things the dispatcher
does at a tick, and `Sync.isLeast` reads the boundary property back from the counters.
-/

namespace Lib.TimeTable

/-- Offset of slot `k` in its frame. -/
def slotStart (slots : List Nat) (k : Nat) : Nat := (slots.take k).sum

/-- The slot that contains offset `r` of a frame. -/
def slotAt : List Nat → Nat → Nat
  | [], _ => 0
  | x :: xs, r => if r < x then 0 else slotAt xs (r - x) + 1

/-- The end of the slot in which the absolute time `t` lies. -/
def slotEnd (slots : List Nat) (t : Nat) : Nat :=
  t / slots.sum * slots.sum + slotStart slots (slotAt slots (t % slots.sum) + 1)

/-- Slot `k` of the frame contains the absolute time `t`. -/
def Covers (slots : List Nat) (k t : Nat) : Prop :=
  k < slots.length ∧ slotStart slots k ≤ t % slots.sum ∧
    t % slots.sum < slotStart slots (k + 1)

/-- An absolute time at which some slot of some frame starts. -/
def IsBoundary (slots : List Nat) (b : Nat) : Prop :=
  ∃ n k, k < slots.length ∧ b = n * slots.sum + slotStart slots k

@[simp] theorem slotStart_zero (slots : List Nat) : slotStart slots 0 = 0 := by
  simp [slotStart]

theorem slotStart_cons_succ (x : Nat) (xs : List Nat) (k : Nat) :
    slotStart (x :: xs) (k + 1) = x + slotStart xs k := by
  simp [slotStart]

theorem slotStart_length (slots : List Nat) : slotStart slots slots.length = slots.sum := by
  simp [slotStart]

theorem slotStart_succ (slots : List Nat) (k : Nat) :
    slotStart slots (k + 1) = slotStart slots k + slots.getD k 0 := by
  induction slots generalizing k with
  | nil => simp [slotStart]
  | cons x xs ih =>
      cases k with
      | zero => simp [slotStart]
      | succ k =>
          rw [slotStart_cons_succ, slotStart_cons_succ, ih k, List.getD_cons_succ]
          omega

theorem slotStart_mono (slots : List Nat) {j k : Nat} (h : j ≤ k) :
    slotStart slots j ≤ slotStart slots k := by
  induction h with
  | refl => exact le_rfl
  | step _ ih => rw [slotStart_succ]; omega

theorem slotStart_le_sum (slots : List Nat) (k : Nat) : slotStart slots k ≤ slots.sum := by
  by_cases hk : k ≤ slots.length
  · rw [← slotStart_length]
    exact slotStart_mono slots hk
  · have htake : slots.take k = slots := List.take_of_length_le (by omega)
    rw [slotStart, htake]

theorem covers_slotAt {slots : List Nat} {r : Nat} (hr : r < slots.sum) :
    slotAt slots r < slots.length ∧ slotStart slots (slotAt slots r) ≤ r ∧
      r < slotStart slots (slotAt slots r + 1) := by
  induction slots generalizing r with
  | nil => simp at hr
  | cons x xs ih =>
      simp only [List.sum_cons] at hr
      by_cases hx : r < x
      · simp [slotAt, hx, slotStart]
      · obtain ⟨hlt, hle, hup⟩ := ih (r := r - x) (by omega)
        simp only [slotAt, hx, if_false, List.length_cons, slotStart_cons_succ]
        omega

theorem eq_slotAt_of_covers {slots : List Nat} {k t : Nat} (h : Covers slots k t) :
    k = slotAt slots (t % slots.sum) := by
  obtain ⟨_, hle, hup⟩ := h
  have hr : t % slots.sum < slots.sum := lt_of_lt_of_le hup (slotStart_le_sum slots _)
  obtain ⟨_, hle', hup'⟩ := covers_slotAt hr
  by_contra hne
  rcases Nat.lt_or_gt_of_ne hne with hlt | hgt
  · have := slotStart_mono slots (Nat.add_one_le_iff.2 hlt)
    omega
  · have := slotStart_mono slots (Nat.add_one_le_iff.2 hgt)
    omega

section Positive

variable {slots : List Nat} {t k d : Nat}

/-- Two counters, the slot index `k` and the slot's end `d`, are right for time `t`. -/
structure Sync (slots : List Nat) (t k d : Nat) : Prop where
  /-- The index is that of the slot containing `t`. -/
  covers : Covers slots k t
  /-- The deadline is the end of that slot. -/
  deadline : d = t / slots.sum * slots.sum + slotStart slots (k + 1)

theorem Sync.eq_slotEnd (h : Sync slots t k d) : d = slotEnd slots t := by
  rw [h.deadline, slotEnd, ← eq_slotAt_of_covers h.covers]

theorem Sync.lt_deadline (h : Sync slots t k d) : t < d := by
  have hup := h.covers.2.2
  have hdiv := Nat.div_add_mod' t slots.sum
  rw [h.deadline]
  omega

/-- The deadline never passes the end of the frame. -/
theorem Sync.deadline_le (h : Sync slots t k d) : d ≤ (t / slots.sum + 1) * slots.sum := by
  have hle := slotStart_le_sum slots (k + 1)
  rw [h.deadline, Nat.add_mul]
  omega

theorem Sync.init (hpos : ∀ x ∈ slots, 0 < x) (hne : slots ≠ []) :
    Sync slots 0 0 (slots.getD 0 0) := by
  obtain ⟨x, xs, rfl⟩ := List.exists_cons_of_ne_nil hne
  have hx : 0 < x := hpos x (by simp)
  exact ⟨⟨by simp, by simp, by simpa [slotStart_succ] using hx⟩, by simp [slotStart_succ]⟩

/-- A tick that does not reach the deadline leaves both counters right. -/
theorem Sync.stay (h : Sync slots t k d) (ht : t + 1 < d) : Sync slots (t + 1) k d := by
  obtain ⟨⟨hk, hle, hup⟩, hd⟩ := h
  have hdiv := Nat.div_add_mod' t slots.sum
  have hF := slotStart_le_sum slots (k + 1)
  -- The tick stays inside the frame, so only the offset moves.
  have hlt : t % slots.sum + 1 < slots.sum := by omega
  have hmod : (t + 1) % slots.sum = t % slots.sum + 1 := by
    rw [Nat.add_mod, Nat.mod_eq_of_lt (by omega : 1 < slots.sum), Nat.mod_eq_of_lt hlt]
  have hquot : (t + 1) / slots.sum = t / slots.sum := by
    rw [Nat.div_eq_iff (by omega)]
    omega
  refine ⟨⟨hk, by omega, by omega⟩, ?_⟩
  rw [hquot]
  exact hd

/-- At the deadline the dispatcher moves to the next slot and adds its length. -/
theorem Sync.advance (hpos : ∀ x ∈ slots, 0 < x) (h : Sync slots t k d) (ht : d ≤ t + 1) :
    Sync slots (t + 1) ((k + 1) % slots.length)
      (d + slots.getD ((k + 1) % slots.length) 0) := by
  obtain ⟨⟨hk, hle, hup⟩, hd⟩ := h
  have hdiv := Nat.div_add_mod' t slots.sum
  have hF := slotStart_le_sum slots (k + 1)
  have hnow : t + 1 = t / slots.sum * slots.sum + slotStart slots (k + 1) := by omega
  have hgetpos : ∀ j, j < slots.length → 0 < slots.getD j 0 := by
    intro j hj
    rw [List.getD_eq_getElem?_getD, List.getElem?_eq_getElem hj]
    exact hpos _ (List.getElem_mem hj)
  by_cases hlast : k + 1 < slots.length
  · -- The next slot is in the same frame.
    have hnext := slotStart_succ slots (k + 1)
    have hF' := slotStart_le_sum slots (k + 1 + 1)
    have hp := hgetpos (k + 1) hlast
    have hlt : slotStart slots (k + 1) < slots.sum := by omega
    have hmod : (t + 1) % slots.sum = slotStart slots (k + 1) := by
      rw [hnow, Nat.mul_add_mod', Nat.mod_eq_of_lt hlt]
    have hquot : (t + 1) / slots.sum = t / slots.sum := by
      rw [hnow, Nat.add_comm, Nat.add_mul_div_right _ _ (by omega), Nat.div_eq_of_lt hlt,
        Nat.zero_add]
    rw [Nat.mod_eq_of_lt hlast]
    refine ⟨⟨hlast, by omega, by omega⟩, ?_⟩
    rw [hquot, hnext, hd]
    omega
  · -- The frame is over: the next slot is the first one of the next frame.
    have hk1 : k + 1 = slots.length := by omega
    have hsum : slotStart slots (k + 1) = slots.sum := by rw [hk1, slotStart_length]
    have hp := hgetpos 0 (by omega)
    have hpos' : 0 < slots.sum := by omega
    have hmul : t + 1 = (t / slots.sum + 1) * slots.sum := by
      rw [hnow, hsum, Nat.add_mul, Nat.one_mul]
    have hmod : (t + 1) % slots.sum = 0 := by rw [hmul, Nat.mul_mod_left]
    have hquot : (t + 1) / slots.sum = t / slots.sum + 1 := by
      rw [hmul, Nat.mul_div_cancel _ hpos']
    rw [hk1, Nat.mod_self]
    have hone := slotStart_succ slots 0
    rw [Nat.zero_add, slotStart_zero, Nat.zero_add] at hone
    refine ⟨⟨by omega, by simp, by rw [hmod, hone]; exact hp⟩, ?_⟩
    rw [hquot, hone, Nat.add_mul, Nat.one_mul, hd, hsum]

/-- The deadline is the first slot boundary after `t`. -/
theorem Sync.isLeast (h : Sync slots t k d) :
    IsLeast {b | IsBoundary slots b ∧ t < b} d := by
  refine ⟨⟨?_, h.lt_deadline⟩, ?_⟩
  · obtain ⟨⟨hk, hle, hup⟩, hd⟩ := h
    by_cases hlast : k + 1 < slots.length
    · exact ⟨t / slots.sum, k + 1, hlast, hd⟩
    · refine ⟨t / slots.sum + 1, 0, by omega, ?_⟩
      have hk1 : k + 1 = slots.length := by omega
      rw [hd, hk1, slotStart_length, slotStart_zero, Nat.add_mul, Nat.one_mul, Nat.add_zero]
  · rintro b ⟨⟨n, j, hj, rfl⟩, hb⟩
    obtain ⟨⟨hk, hle, hup⟩, hd⟩ := h
    have hdiv := Nat.div_add_mod' t slots.sum
    have hFk := slotStart_le_sum slots (k + 1)
    have hFj := slotStart_le_sum slots j
    rw [hd]
    rcases Nat.lt_trichotomy n (t / slots.sum) with hn | hn | hn
    · -- An earlier frame is over before `t`.
      have hmul := Nat.mul_le_mul_right slots.sum (Nat.succ_le_of_lt hn)
      rw [Nat.succ_mul] at hmul
      omega
    · -- In the frame of `t`, slot `j` starts after `t` only if `k < j`.
      subst hn
      have hkj : k + 1 ≤ j := by
        by_contra hlt
        have := slotStart_mono slots (by omega : j ≤ k)
        omega
      have := slotStart_mono slots hkj
      omega
    · have hmul := Nat.mul_le_mul_right slots.sum (Nat.succ_le_of_lt hn)
      rw [Nat.succ_mul] at hmul
      omega

/-- At any time there are counters that are right for it. -/
theorem sync_slotEnd (hpos : 0 < slots.sum) (t : Nat) :
    Sync slots t (slotAt slots (t % slots.sum)) (slotEnd slots t) :=
  ⟨covers_slotAt (Nat.mod_lt t hpos), rfl⟩

theorem lt_slotEnd (hpos : 0 < slots.sum) (t : Nat) : t < slotEnd slots t :=
  (sync_slotEnd hpos t).lt_deadline

theorem slotEnd_mono (hpos : 0 < slots.sum) {t t' : Nat} (h : t ≤ t') :
    slotEnd slots t ≤ slotEnd slots t' := by
  obtain ⟨hbound, hlt⟩ := (sync_slotEnd hpos t').isLeast.1
  exact (sync_slotEnd hpos t).isLeast.2 ⟨hbound, Nat.lt_of_le_of_lt h hlt⟩

end Positive

/-! ## Frames -/

/-- The first multiple of the frame length after `t`. -/
theorem isLeast_frame {F t : Nat} (hF : 0 < F) :
    IsLeast {m | F ∣ m ∧ t < m} ((t / F + 1) * F) := by
  have hdiv := Nat.div_add_mod' t F
  have hmod := Nat.mod_lt t hF
  refine ⟨⟨Dvd.intro_left _ rfl, ?_⟩, ?_⟩
  · rw [Nat.add_mul]
    omega
  · rintro _ ⟨⟨c, rfl⟩, hc⟩
    have hlt : t / F < c := (Nat.div_lt_iff_lt_mul hF).2 (by rwa [Nat.mul_comm])
    rw [Nat.mul_comm F c]
    exact Nat.mul_le_mul_right F hlt

/-- The frame counter of a dispatcher: it moves on by one frame when the clock reaches it. -/
theorem frame_step {F t : Nat} (hF : 0 < F) :
    (if (t / F + 1) * F ≤ t + 1 then (t / F + 1) * F + F else (t / F + 1) * F) =
      ((t + 1) / F + 1) * F := by
  have hdiv := Nat.div_add_mod' t F
  have hmod := Nat.mod_lt t hF
  have hexp : (t / F + 1) * F = t / F * F + F := by rw [Nat.add_mul, Nat.one_mul]
  split_ifs with hle
  · have hnow : t + 1 = (t / F + 1) * F := by omega
    have hquot : (t + 1) / F = t / F + 1 := by rw [hnow, Nat.mul_div_cancel _ hF]
    rw [hquot, Nat.add_mul (t / F + 1), Nat.one_mul]
  · have hquot : (t + 1) / F = t / F := by
      rw [Nat.div_eq_iff hF]
      omega
    rw [hquot]

end Lib.TimeTable
