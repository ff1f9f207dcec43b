import PartitionSeL4.Running

/-!
# Thread records along a run

What an event does to one entry of `proc_array`: nothing, a creation, or the activation loop and
the accounting of an election after the request's own edit (`step_procArray`,
`Ready.schedThread_eq`). The modules on budgets and on stopped threads argue about single records
with these two equations.
-/

namespace PartitionSeL4

open Lib

/-! ## Records and steps -/

section Records

variable {cfg : Config} {s s' : State} {e : Event} {p i : Nat}

/-- What an event does to the record of a partition's thread. -/
theorem step_procArray (hs : step cfg s e = .ok s') (i : Nat) :
    (¬Enters s e ∧ s'.procArray i = s.procArray i) ∨
      (e = .threadCreate ∧ Creates s ∧ i = createdId s ∧
        s'.procArray i = createdThread cfg s (s.procArray i)) ∨
      (Enters s e ∧ s'.procArray i =
        { schedThread cfg (entry cfg s e) (electedPartition cfg (entry cfg s e)) i with
          endTime := (s'.procArray i).endTime }) := by
  rcases step_cases hs with ⟨henters, hsched⟩ | ⟨hnot, rfl⟩ | ⟨rfl, hc, rfl⟩
  · obtain ⟨_, new, _, rfl⟩ := pokSched_eq_ok_iff.1 hsched
    exact Or.inr (Or.inr ⟨henters, afterSched_procArray cfg _ new i⟩)
  · exact Or.inl ⟨hnot, rfl⟩
  · rw [createState_procArray]
    by_cases hi : i = createdId s
    · rw [if_pos hi]
      exact Or.inr (Or.inl ⟨rfl, hc, hi, rfl⟩)
    · rw [if_neg hi]
      exact Or.inl ⟨id, rfl⟩

/-- The record of thread `i` of partition `p` after the activation loop for partition `q`. -/
def activatedThread (s : State) (p q i : Nat) : Process :=
  if p = q then (s.procArray i).activate s.tickCounter else s.procArray i

/-- The activation loop for partition `q` visits the threads of `q` and no others. -/
theorem Ready.schedThread_eq (hcfg : cfg.PartitionsOk) (h : Ready cfg s) {q : Nat}
    (hp : p < cfg.nbPartitions) (hq : q < cfg.nbPartitions) (hi : cfg.Owns p i) :
    schedThread cfg s q i =
      if (s.partArray q).mode = .normal ∧ Chargeable cfg s ∧ i = s.currentThread then
        (activatedThread s p q i).charge
      else activatedThread s p q i := by
  have hrange : ((s.partArray q).low ≤ i ∧ i < (s.partArray q).low + (s.partArray q).nthreads) ↔
      p = q := by
    rw [h.layout.low q hq, h.layout.nthreads q hq, hcfg.owns_iff hq]
    constructor
    · intro hown
      exact hcfg.owns_unique hp hq hi hown
    · rintro rfl
      exact hi
  simp only [schedThread, hrange, activatedThread]

theorem pokSched_mode (hs : pokSched cfg s = .ok s') (p : Nat) :
    (s'.partArray p).mode = (s.partArray p).mode := by
  obtain ⟨_, new, _, rfl⟩ := pokSched_eq_ok_iff.1 hs
  rw [afterSched_partArray]
  split_ifs
  · exact Partition.elect_mode _ _ _
  · rfl

theorem step_mode_normal (hs : step cfg s e = .ok s') (h : (s.partArray p).mode = .normal) :
    (s'.partArray p).mode = .normal := by
  have hentry : ((entry cfg s e).partArray p).mode = .normal := by
    rw [entry_partArray]
    split_ifs
    · rfl
    · exact h
  rcases step_cases hs with ⟨_, hsched⟩ | ⟨_, rfl⟩ | ⟨_, _, rfl⟩
  · rw [pokSched_mode hsched]
    exact hentry
  · exact h
  · rw [createState_mode]
    exact h

end Records

theorem Reached.tickCounter {cfg : Config} {ok : State → Event → Prop} {evs : List Event}
    {s : State} (h : Reached cfg ok evs s) : s.tickCounter = u64 (ticks evs) := by
  obtain ⟨s₀, hboot, hrun⟩ := h
  refine hrun.history (I := fun evs s => s.tickCounter = u64 (ticks evs)) ?_ ?_
  · rw [hboot.clockStart.tickCounter]
    rfl
  · intro evs s e s' _ ih _ hs
    have htick : s'.tickCounter =
        if e = .tick then u64 (s.tickCounter + 1) else s.tickCounter := by
      rcases step_cases hs with ⟨_, hsched⟩ | ⟨hnot, rfl⟩ | ⟨rfl, _, rfl⟩
      · rw [(slotCounters_of_pokSched hsched).1, entry_tickCounter]
      · rw [if_neg]
        rintro rfl
        exact hnot trivial
      · rfl
    by_cases he : e = .tick
    · subst he
      rw [htick, if_pos rfl, ih, ticks_snoc_tick]
      simp [u64]
    · rw [htick, if_neg he, ih, ticks_snoc_of_ne he]

/-! ## The tables -/

/-- A thread's period and time capacity are those of the tables. -/
structure Process.Tabled (cfg : Config) (i : Nat) (t : Process) : Prop where
  timecap : t.timecap = cfg.timeArray.getD i 0
  period : t.period = cfg.periodArray.getD i 0

section Tabled

variable (now : Nat) (t : Process)

@[simp] theorem Process.activate_timecap : (t.activate now).timecap = t.timecap := by
  unfold Process.activate Process.replenish Process.wakeUp
  split_ifs <;> rfl
@[simp] theorem Process.activate_period : (t.activate now).period = t.period := by
  unfold Process.activate Process.replenish Process.wakeUp
  split_ifs <;> rfl
@[simp] theorem Process.charge_timecap : t.charge.timecap = t.timecap := by
  unfold Process.charge
  split_ifs <;> rfl
@[simp] theorem Process.charge_period : t.charge.period = t.period := by
  unfold Process.charge
  split_ifs <;> rfl

variable (cfg : Config) (s : State) (r : ApexRequest) (q i : Nat)

@[simp] theorem effect_timecap : (r.effect s t).timecap = t.timecap := by
  cases r <;> rfl
@[simp] theorem effect_period : (r.effect s t).period = t.period := by
  cases r <;> rfl
@[simp] theorem schedThread_timecap :
    (schedThread cfg s q i).timecap = (s.procArray i).timecap := by
  simp only [schedThread]
  split_ifs <;> simp
@[simp] theorem schedThread_period :
    (schedThread cfg s q i).period = (s.procArray i).period := by
  simp only [schedThread]
  split_ifs <;> simp

end Tabled

theorem Ready.entry_tabled {cfg : Config} {s : State} (hcfg : cfg.PartitionsOk)
    (h : Ready cfg s) (e : Event) {i : Nat} (htab : (s.procArray i).Tabled cfg i) :
    ((entry cfg s e).procArray i).Tabled cfg i := by
  cases e with
  | tick => exact htab
  | threadCreate => exact htab
  | request r =>
      rw [h.entry_procArray hcfg]
      split_ifs
      · exact ⟨by simpa using htab.timecap, by simpa using htab.period⟩
      · exact htab

theorem step_tabled {cfg : Config} {s s' : State} {e : Event} (hcfg : cfg.PartitionsOk)
    (h : Ready cfg s) {i : Nat} (htab : (s.procArray i).Tabled cfg i)
    (hs : step cfg s e = .ok s') : (s'.procArray i).Tabled cfg i := by
  have hentry := h.entry_tabled hcfg e htab
  rcases step_procArray hs i with ⟨_, heq⟩ | ⟨_, _, hid, heq⟩ | ⟨_, heq⟩ <;> rw [heq]
  · exact htab
  · rw [hid]
    exact ⟨rfl, rfl⟩
  · exact ⟨by simpa using hentry.timecap, by simpa using hentry.period⟩

theorem Booted.tabled {cfg : Config} {s : State} (hcfg : cfg.PartitionsOk) (h : Booted cfg s)
    {p i : Nat} (hp : p < cfg.nbPartitions) (hi : cfg.Owns p i) :
    (s.procArray i).Tabled cfg i := by
  obtain ⟨t, ht⟩ := (h.arrayStart hcfg).procArray i (hcfg.lt_nbThreads hp hi)
  rw [ht]
  exact ⟨rfl, rfl⟩

theorem Reached.tabled {cfg : Config} (hcfg : cfg.PartitionsOk) {ok : State → Event → Prop}
    {evs : List Event} {s : State} (h : Reached cfg ok evs s) {p i : Nat}
    (hp : p < cfg.nbPartitions) (hi : cfg.Owns p i) :
    (s.procArray i).Tabled cfg i := by
  obtain ⟨s₀, hboot, hrun⟩ := h
  refine (hrun.invariant (I := fun s => Inv cfg s ∧ (s.procArray i).Tabled cfg i)
    ⟨hboot.inv hcfg, hboot.tabled hcfg hp hi⟩ ?_).2
  rintro s e s' ⟨hinv, htab⟩ _ hs
  exact ⟨step_inv hcfg hinv hs, step_tabled hcfg hinv.toReady htab hs⟩

end PartitionSeL4
