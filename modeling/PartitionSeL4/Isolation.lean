import PartitionSeL4.Stopped

/-!
# Requests stay inside the current partition

A request names a thread by a signed 32-bit id, which the range check compares with the unsigned
bounds of the current partition, so that a negative id is too large. What it then changes is
confined to the current partition and the idle thread, because its call of the scheduler elects the
current partition again: between two ticks no deadline is pending (`Clock.lt_deadline`).

`request_confined` is the result. It needs slots of positive length, and the deadline of the present
slot to lie below `2^64`. In an empty slot, and where the deadline wraps, one is pending all the
time, and a request moves the slot on (`request_moves_slot`).
-/

namespace PartitionSeL4

open Lib TimeTable

/-- What a request handled in `s` may change. -/
structure Confined (cfg : Config) (s s' : State) : Prop where
  procArray : ∀ i, ¬cfg.Owns s.currentPartition i → i ≠ cfg.idleThread →
    s'.procArray i = s.procArray i
  partArray : ∀ p, p ≠ s.currentPartition → s'.partArray p = s.partArray p
  currentPartition : s'.currentPartition = s.currentPartition
  currentSlot : s'.currentSlot = s.currentSlot
  nextDeadline : s'.nextDeadline = s.nextDeadline
  nextMajorFrame : s'.nextMajorFrame = s.nextMajorFrame
  tickCounter : s'.tickCounter = s.tickCounter

section Confined

variable {cfg : Config} {s s' : State} {r : ApexRequest}

theorem target_owned (hcfg : cfg.PartitionsOk) (h : Inv cfg s) (heff : Effective s r) :
    cfg.Owns s.currentPartition (r.target s) ∨ r.target s = cfg.idleThread := by
  have hp := h.currentPartition_lt
  have hinside : ∀ id, ¬OutsideCurrentPartition s id →
      cfg.Owns s.currentPartition (threadId id) := by
    intro id hid
    rw [← h.layout.owns_iff hp]
    unfold OutsideCurrentPartition at hid
    omega
  cases r with
  | giveUp | stopSelf | suspendSelf => exact h.current
  | setPartitionMode mode =>
      left
      show cfg.Owns _ (s.partArray s.currentPartition).threadMain
      rw [h.layout.threadMain _ hp]
      exact hcfg.main_mem _ hp
  | setPriority id prio => exact Or.inl (hinside id heff)
  | suspend id => exact Or.inl (hinside id heff)
  | resume id => exact Or.inl (hinside id heff)

theorem afterSched_procArray_of_ne (cfg : Config) (s : State) {new i : Nat} (hne : i ≠ new) :
    (afterSched cfg s new).procArray i = schedThread cfg s (electedPartition cfg s) i := by
  simp only [afterSched, schedProcs, Function.update_of_ne hne]

/-- An election for partition `q` leaves the records of other threads than its own, the current one
and the idle one alone. -/
theorem Ready.schedThread_of_not_owns (hcfg : cfg.PartitionsOk) (h : Ready cfg s) {q i : Nat}
    (hq : q < cfg.nbPartitions) (hi : ¬cfg.Owns q i) (hcur : i ≠ s.currentThread) :
    schedThread cfg s q i = s.procArray i := by
  have hrange : ¬((s.partArray q).low ≤ i ∧
      i < (s.partArray q).low + (s.partArray q).nthreads) := by
    rw [h.layout.low q hq, h.layout.nthreads q hq, hcfg.owns_iff hq]
    exact hi
  simp only [schedThread, hrange, if_false, hcur, and_false]

theorem Confined.refl (cfg : Config) (s : State) : Confined cfg s s :=
  ⟨fun _ _ _ => rfl, fun _ _ => rfl, rfl, rfl, rfl, rfl, rfl⟩

/-- **A request is confined** when no deadline is pending. -/
theorem step_confined {t : Nat} (hcfg : cfg.PartitionsOk) (h : Inv cfg s) (hclock : Clock cfg t s)
    (hs : step cfg s (.request r) = .ok s') : Confined cfg s s' := by
  have hp := h.currentPartition_lt
  obtain ⟨htick, hpart, hslot, hdeadline, hframe⟩ := hclock.frame (by simp) hs
  have hinv := step_inv (e := .request r) hcfg h hs
  rcases step_cases hs with ⟨henters, hsched⟩ | ⟨_, rfl⟩ | ⟨hcreate, _⟩
  · have hready := h.toReady.enter hcfg (.request r)
    obtain ⟨_, new, _, rfl⟩ := pokSched_eq_ok_iff.1 hsched
    rw [afterSched_currentPartition] at hpart
    refine ⟨?_, ?_, hpart, hslot, hdeadline, hframe, htick⟩
    · intro i hi hidle
      -- Neither the thread edited nor the one that was current nor the one elected is thread `i`.
      have hne : ∀ {j}, cfg.Owns s.currentPartition j ∨ j = cfg.idleThread → i ≠ j := by
        rintro j (hj | hj) rfl
        · exact hi hj
        · exact hidle hj
      have hnew : cfg.Owns s.currentPartition new ∨ new = cfg.idleThread := by
        have hcur := hinv.current
        rwa [afterSched_currentPartition, afterSched_currentThread, hpart] at hcur
      have hcur : i ≠ (entry cfg s (.request r)).currentThread := by
        rw [entry_currentThread]
        exact hne h.current
      rw [afterSched_procArray_of_ne _ _ (hne hnew), hpart,
        hready.schedThread_of_not_owns hcfg hp hi hcur,
        h.toReady.entry_procArray hcfg, if_neg (hne (target_owned hcfg h henters))]
    · intro p hne
      rw [afterSched_partArray, hpart, if_neg hne, entry_partArray, if_neg (fun h => hne h.2)]
  · exact .refl cfg s'
  · cases hcreate

end Confined

/-- **Inter-partition frame.** With slots of positive length, and as long as the slot of the last
tick ends below `2^64`: in every state reached, every request (a mode request being an accepted one)
returns, and changes nothing but the records of the current partition and its threads and that of
the idle thread. -/
theorem request_confined {cfg : Config} (hcfg : cfg.PartitionsOk) (hslots : cfg.SlotsOk)
    {evs : List Event} {s : State} (h : Reached cfg Allowed evs s)
    (hword : slotEnd cfg.slots (ticks evs) < 2 ^ 64) (r : ApexRequest) (hok : Accepted s r) :
    ∃ s', step cfg s (.request r) = .ok s' ∧ Confined cfg s s' := by
  have hinv := h.inv hcfg
  obtain ⟨s', hs'⟩ := step_progress (e := .request r) hcfg hinv hok (by simp)
  exact ⟨s', hs', step_confined hcfg hinv (h.clock hslots hword) hs'⟩

/-- In the deployed configuration, the running thread stops itself. -/
theorem request_confined_deployed :
    ∃ s s', Reached deployment Allowed
        [.tick, .threadCreate, .request (.setPartitionMode partModeNormal)] s ∧
      step deployment s (.request .stopSelf) = .ok s' ∧
      s.currentThread = 1 ∧ s'.currentThread ≠ 1 ∧ Confined deployment s s' := by
  obtain ⟨s, hs, hcur, hstops⟩ : ∃ s, Reached deployment Allowed
      [.tick, .threadCreate, .request (.setPartitionMode partModeNormal)] s ∧
        s.currentThread = 1 ∧ ((step deployment s (.request .stopSelf)).toOption.any fun s' =>
          s'.currentThread ≠ 1) = true := by
    apply Reached.exists_of_boot
    decide +kernel
  obtain ⟨s', hs', hconf⟩ := request_confined deployment_partitionsOk deployment_slotsOk hs
    (by decide) .stopSelf trivial
  rw [hs'] at hstops
  exact ⟨s, s', hs, hs', hcur, of_decide_eq_true hstops, hconf⟩

/-- A table with an empty slot. -/
def emptySlot : Config := { deployment with slots := [1, 0], majorFrame := 1 }

/-- The slot index after an event. -/
def slotAfter (cfg : Config) (e : Event) (s : State) : Option Nat :=
  match step cfg s e with
  | .ok s' => some s'.currentSlot
  | .error _ => none

/-- Where a deadline is pending, a request moves the slot on. In a table with an empty slot this
happens at its first tick. In the deployed configuration the deadline wraps at tick
18446744073709551000, when the last slot that starts below `2^64` starts, and is pending from then
on. -/
theorem request_moves_slot :
    (∃ s s', Reached emptySlot Allowed [.tick] s ∧
      step emptySlot s (.request .stopSelf) = .ok s' ∧ ¬Confined emptySlot s s') ∧
    (∃ evs s s', Reached deployment Allowed evs s ∧ ticks evs = 18446744073709551000 ∧
      step deployment s (.request .stopSelf) = .ok s' ∧ ¬Confined deployment s s') := by
  constructor
  · obtain ⟨s, hs, hslot, hafter⟩ : ∃ s, Reached emptySlot Allowed [.tick] s ∧
        s.currentSlot = 1 ∧ slotAfter emptySlot (.request .stopSelf) s = some 0 := by
      apply Reached.exists_of_boot
      decide +kernel
    rw [slotAfter] at hafter
    cases hstep : step emptySlot s (.request .stopSelf) with
    | error f => simp [hstep] at hafter
    | ok s' =>
        simp only [hstep, Option.some.injEq] at hafter
        refine ⟨s, s', hs, hstep, fun hconf => ?_⟩
        have hkeep := hconf.currentSlot
        omega
  · obtain ⟨s₀, _, hinit, _, _⟩ : ∃ s₀ s, systemInit deployment = .ok s₀ ∧
        Run (step deployment) Allowed (schedulerThreadStart s₀) [] s ∧ s.tickCounter = 0 := by
      apply exists_of_boot
      decide +kernel
    obtain ⟨t, s, _, hclock, hs, hrun⟩ := exists_run_last_tick (n := 18446744073709550999)
      deployment_partitionsOk deployment_slotsOk hinit (by decide)
    have hreach : Reached deployment Allowed
        (List.replicate 18446744073709550999 .tick ++ [.tick]) s :=
      ⟨_, ⟨s₀, hinit, Or.inr rfl⟩, hrun⟩
    obtain ⟨htick, hslot, hdeadline, _⟩ := hclock.tick_at_slotEnd (by decide) (by decide) hs
    have hinv := hreach.inv deployment_partitionsOk
    obtain ⟨s', hs'⟩ :=
      step_progress (e := .request .stopSelf) deployment_partitionsOk hinv trivial (by simp)
    refine ⟨_, s, s', hreach, ?_, hs', fun hconf => ?_⟩
    · rw [ticks_snoc_tick, ticks_replicate]
    · -- The slot index is 0 or 1, and the request makes it the other one.
      have hlt : s.currentSlot < 2 := hinv.currentSlot_lt
      have hpast : s.nextDeadline ≤ s.tickCounter := by
        rw [htick, hdeadline]
        have hcases : s.currentSlot = 0 ∨ s.currentSlot = 1 := by omega
        rcases hcases with hzero | hone
        · rw [hzero]
          decide
        · rw [hone]
          decide
      obtain ⟨_, _, hnext, _, _⟩ :=
        slotCounters_of_pokSched (r := entry deployment s (.request .stopSelf)) hs'
      rw [hconf.currentSlot, pokElectPartition, if_pos (by exact hpast)] at hnext
      have hmod : s.currentSlot = u8 ((s.currentSlot + 1) % 2) := hnext
      rw [u8_of_lt (by omega)] at hmod
      omega

end PartitionSeL4
