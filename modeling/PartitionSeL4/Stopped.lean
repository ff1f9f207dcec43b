import PartitionSeL4.Accounting

/-!
# Stopped threads

A thread that is stopped while its partition is in normal mode stays stopped, and is never elected,
until a `SYS_RESUME` names it: `StaysStopped.of_status`. But the requests that stop a thread enter
the scheduler, and the accounting there also writes the status. A thread that stops itself with at
most one unit of budget left is charged for the request, found exhausted and made to wait for its
next activation, which starts it again. `stopped_iff` says exactly when a stop request is effective.
-/

namespace PartitionSeL4

open Lib

/-- The request stops thread `thread`. -/
def ApexRequest.Stops (s : State) (thread : Nat) : ApexRequest → Prop
  | .stopSelf | .suspendSelf => thread = s.currentThread
  | .suspend id => thread = threadId id
  | _ => False

/-- The event is a `SYS_RESUME` that names thread `thread`. -/
def ResumeOf (thread : Nat) : Event → Prop
  | .request (.resume id) => threadId id = thread
  | _ => False

/-- From `s` on, whatever happens, the thread is stopped and not current, until a `SYS_RESUME` names
it. -/
def StaysStopped (cfg : Config) (thread : Nat) (s : State) : Prop :=
  ∀ evs s', Run (step cfg) (fun s e => Allowed s e ∧ ¬ResumeOf thread e) s evs s' →
    (s'.procArray thread).status = .stopped ∧ s'.currentThread ≠ thread

/-- When a stop request takes: the thread is one of the current partition's (the request is dropped
otherwise) or is stopped already, and it is not the current thread, about to be charged for the
request with at most one unit of its budget left. -/
def StopTakes (cfg : Config) (s : State) (thread : Nat) (r : ApexRequest) : Prop :=
  (cfg.Owns s.currentPartition thread ∨ (s.procArray thread).status = .stopped) ∧
    ¬(thread = s.currentThread ∧ Chargeable cfg s ∧ ElectsNormal cfg s (.request r) ∧
      (s.procArray thread).remainingTimeCapacity ≤ 1)

/-! ## Once stopped -/

section Stopped

variable {cfg : Config} {s s' : State} {e : Event} {p i : Nat}

theorem Inv.ne_current_of_stopped (hcfg : cfg.PartitionsOk) (h : Inv cfg s)
    (hp : p < cfg.nbPartitions) (hi : cfg.Owns p i) (hmode : (s.partArray p).mode = .normal)
    (hstop : (s.procArray i).status = .stopped) : s.currentThread ≠ i := by
  intro hcur
  have hidle := hcfg.ne_idle_of_owns hp hi
  rcases h.current with hown | heq
  · rw [hcur] at hown
    obtain rfl := hcfg.owns_unique hp h.currentPartition_lt hi hown
    rcases h.elected.normal hmode with ⟨_, hrun⟩ | heq
    · rw [hcur, hstop] at hrun
      cases hrun
    · exact hidle (hcur.symm.trans heq)
  · exact hidle (hcur.symm.trans heq)

theorem Ready.activatedThread_of_stopped (h : Ready cfg s) (hp : p < cfg.nbPartitions)
    (hi : cfg.Owns p i) (hstop : (s.procArray i).status = .stopped) (q : Nat) :
    activatedThread s p q i = s.procArray i := by
  rw [activatedThread, (h.sound p hp i hi).activate_of_ne _ (by simp [hstop]), ite_self]

/-- A stopped thread of a partition in normal mode stays stopped in every event that is not a
`SYS_RESUME` of it. -/
theorem step_stopped (hcfg : cfg.PartitionsOk) (h : Inv cfg s) (hp : p < cfg.nbPartitions)
    (hi : cfg.Owns p i) (hmode : (s.partArray p).mode = .normal)
    (hstop : (s.procArray i).status = .stopped) (hok : Allowed s e) (hnr : ¬ResumeOf i e)
    (hs : step cfg s e = .ok s') : (s'.procArray i).status = .stopped := by
  have hcur := h.ne_current_of_stopped hcfg hp hi hmode hstop
  rcases step_procArray hs i with ⟨_, heq⟩ | ⟨rfl, hc, hid, _⟩ | ⟨_, heq⟩
  · rw [heq]
    exact hstop
  · -- Threads are created in a start mode only.
    have hown := createdId_owned hcfg h.layout h.currentPartition_lt hc hok
    rw [← hid] at hown
    obtain rfl := hcfg.owns_unique hp h.currentPartition_lt hi hown
    rcases hc.1 with hm | hm <;> rw [hmode] at hm <;> cases hm
  · have hready := h.toReady.enter hcfg e
    have hentry : ((entry cfg s e).procArray i).status = .stopped := by
      cases e with
      | tick => exact hstop
      | threadCreate => exact hstop
      | request r =>
          rw [h.toReady.entry_procArray hcfg]
          split_ifs with htarget
          · cases r with
            | giveUp => exact absurd htarget.symm hcur
            | setPartitionMode | stopSelf | suspendSelf | suspend => rfl
            | setPriority id prio => exact hstop
            | resume id => exact absurd htarget.symm hnr
          · exact hstop
    rw [heq, hready.schedThread_eq hcfg hp (hready.electedPartition_lt hcfg) hi,
      hready.activatedThread_of_stopped hp hi hentry, entry_currentThread,
      if_neg (fun hcharge => hcur hcharge.2.2.symm)]
    exact hentry

/-- **Stopped means stopped**: it is enough that the thread is stopped now. -/
theorem StaysStopped.of_status (hcfg : cfg.PartitionsOk) (h : Inv cfg s)
    (hp : p < cfg.nbPartitions) (hi : cfg.Owns p i) (hmode : (s.partArray p).mode = .normal)
    (hstop : (s.procArray i).status = .stopped) : StaysStopped cfg i s := by
  intro evs s' hrun
  obtain ⟨hinv, hmode', hstop'⟩ := hrun.invariant (I := fun s =>
    Inv cfg s ∧ (s.partArray p).mode = .normal ∧ (s.procArray i).status = .stopped)
    ⟨h, hmode, hstop⟩ (by
      rintro s e s' ⟨hinv, hmode, hstop⟩ ⟨hok, hnr⟩ hs
      exact ⟨step_inv hcfg hinv hs, step_mode_normal hs hmode,
        step_stopped hcfg hinv hp hi hmode hstop hok hnr hs⟩)
  exact ⟨hstop', hinv.ne_current_of_stopped hcfg hp hi hmode' hstop'⟩

end Stopped

/-! ## The request -/

section Request

variable {cfg : Config} {s s' : State} {r : ApexRequest} {p i : Nat}

theorem ApexRequest.Stops.effective_iff (h : Inv cfg s) (hstops : r.Stops s i)
    (hcur : i = s.currentThread → cfg.Owns s.currentPartition i) :
    Effective s r ↔ cfg.Owns s.currentPartition i := by
  cases r with
  | stopSelf => exact ⟨fun _ => hcur hstops, fun _ => trivial⟩
  | suspendSelf => exact ⟨fun _ => hcur hstops, fun _ => trivial⟩
  | suspend id =>
      obtain rfl := hstops
      show ¬OutsideCurrentPartition s id ↔ _
      rw [← h.layout.owns_iff h.currentPartition_lt, OutsideCurrentPartition]
      omega
  | giveUp | setPartitionMode | setPriority | resume => cases hstops

/-- A stop request that is acted upon stops the thread before it enters the scheduler. -/
theorem ApexRequest.Stops.entry_eq (hcfg : cfg.PartitionsOk) (h : Inv cfg s)
    (hstops : r.Stops s i) :
    (entry cfg s (.request r)).procArray i = { s.procArray i with status := .stopped } := by
  rw [h.toReady.entry_procArray hcfg]
  cases r with
  | stopSelf => exact if_pos hstops
  | suspendSelf => exact if_pos hstops
  | suspend id => exact if_pos hstops
  | giveUp | setPartitionMode | setPriority | resume => cases hstops

theorem Process.charge_status_of_stopped {t : Process} (h : t.status = .stopped) :
    t.charge.status = .stopped ↔ 1 < t.remainingTimeCapacity := by
  unfold Process.charge
  by_cases hpos : 0 < t.remainingTimeCapacity
  · by_cases hlast : t.remainingTimeCapacity - 1 = 0
    · simp only [hpos, hlast, if_true]
      constructor
      · intro hw
        cases hw
      · intro hlt
        omega
    · simp only [hpos, hlast, if_true, if_false, h, true_iff]
      omega
  · simp only [hpos, if_false]
    constructor
    · intro hw
      cases hw
    · intro hlt
      omega

theorem ApexRequest.Stops.status_iff (hcfg : cfg.PartitionsOk) (h : Inv cfg s)
    (hp : p < cfg.nbPartitions) (hi : cfg.Owns p i) (hstops : r.Stops s i)
    (hs : step cfg s (.request r) = .ok s') :
    (s'.procArray i).status = .stopped ↔ StopTakes cfg s i r := by
  have hcur : i = s.currentThread → cfg.Owns s.currentPartition i := by
    intro heq
    rcases h.current with hown | hidle
    · rwa [heq]
    · exact absurd (heq.trans hidle) (hcfg.ne_idle_of_owns hp hi)
  have heff := hstops.effective_iff h hcur
  by_cases hown : cfg.Owns s.currentPartition i
  · have henters : Enters s (.request r) := heff.2 hown
    have hready := h.toReady.enter hcfg (.request r)
    have hentry := hstops.entry_eq hcfg h
    rcases step_procArray hs i with ⟨hnot, _⟩ | ⟨hcreate, _⟩ | ⟨_, heq⟩
    · exact absurd henters hnot
    · cases hcreate
    · rw [heq, hready.schedThread_eq hcfg hp (hready.electedPartition_lt hcfg) hi,
        hready.activatedThread_of_stopped hp hi (by rw [hentry])]
      simp only [entry_charged_iff henters, StopTakes, hown, true_or, true_and]
      split_ifs with hcharge
      · rw [Process.charge_status_of_stopped (by rw [hentry]), hentry]
        simp only [hcharge, true_and, Nat.not_le]
      · rw [hentry]
        simp only [true_iff]
        tauto
  · -- The request is dropped.
    obtain ⟨_, rfl⟩ := (step_request_of_not_effective (fun hr => hown (heff.1 hr))).1 hs
    have hne : i ≠ s'.currentThread := fun heq => hown (hcur heq)
    simp [StopTakes, hown, hne]

end Request

/-! ## Runs -/

/-- **When stopped means stopped.** In every state reached, a request that stops a thread of a
partition in normal mode returns, and the thread stays stopped and is not elected until a
`SYS_RESUME` names it if and only if the request takes. -/
theorem stopped_iff {cfg : Config} (hcfg : cfg.PartitionsOk) {evs : List Event} {s : State}
    (h : Reached cfg (fun _ _ => True) evs s) {p i : Nat} (hp : p < cfg.nbPartitions)
    (hi : cfg.Owns p i) (hmode : (s.partArray p).mode = .normal) {r : ApexRequest}
    (hstops : r.Stops s i) :
    ∃ s', step cfg s (.request r) = .ok s' ∧ (StaysStopped cfg i s' ↔ StopTakes cfg s i r) := by
  have hinv := h.inv hcfg
  have hok : Allowed s (.request r) := by
    cases r with
    | setPartitionMode mode => cases hstops
    | _ => trivial
  obtain ⟨s', hs'⟩ := step_progress hcfg hinv hok (by simp)
  refine ⟨s', hs', ?_⟩
  rw [← hstops.status_iff hcfg hinv hp hi hs']
  constructor
  · intro hstays
    exact (hstays [] s' .nil).1
  · intro hstop
    exact .of_status hcfg (step_inv hcfg hinv hs') hp hi (step_mode_normal hs' hmode) hstop

/-- In the deployed configuration thread 1, with its whole budget left, stops itself for good. -/
theorem stopped_iff_deployed :
    ∃ s s', Reached deployment (fun _ _ => True)
        [.tick, .threadCreate, .request (.setPartitionMode partModeNormal)] s ∧
      step deployment s (.request .stopSelf) = .ok s' ∧ StaysStopped deployment 1 s' := by
  obtain ⟨s, hs, hmode, hcur, hbudget⟩ : ∃ s, Reached deployment (fun _ _ => True)
      [.tick, .threadCreate, .request (.setPartitionMode partModeNormal)] s ∧
        (s.partArray 0).mode = .normal ∧ s.currentThread = 1 ∧
        (s.procArray 1).remainingTimeCapacity = 1000 ∧ s.currentPartition = 0 := by
    apply Reached.exists_of_boot
    decide +kernel
  obtain ⟨s', hs', hiff⟩ := stopped_iff deployment_partitionsOk hs (p := 0) (by decide)
    ⟨by decide, by decide⟩ hmode (r := .stopSelf) hcur.symm
  refine ⟨s, s', hs, hs', hiff.2 ⟨Or.inl ?_, ?_⟩⟩
  · rw [hbudget.2]
    exact ⟨by decide, by decide⟩
  · rintro ⟨_, _, _, hle⟩
    rw [hbudget.1] at hle
    exact absurd hle (by decide)

/-- The current thread after an event and `n` further ticks. -/
def currentAfter (cfg : Config) (e : Event) (n : Nat) (s : State) : Option Nat :=
  match step cfg s e with
  | .ok s' =>
      (Run.exec (step cfg) (fun _ e => e = .tick) (List.replicate n .tick) s').map
        State.currentThread
  | .error _ => none

/-- A stop request that does not take. Thread 3 runs with one unit of its budget left and stops
itself; four ticks later, at its next activation, it runs again. -/
theorem stopped_thread_restarts :
    ∃ s s' s'', Reached shortSlots (fun _ _ => True)
        [.tick, .threadCreate, .request (.setPartitionMode partModeNormal),
          .request (.setPriority 3 100)] s ∧
      (s.partArray 1).mode = .normal ∧ ApexRequest.stopSelf.Stops s 3 ∧
      step shortSlots s (.request .stopSelf) = .ok s' ∧
      Run (step shortSlots) (fun s e => Allowed s e ∧ ¬ResumeOf 3 e) s' (List.replicate 4 .tick)
        s'' ∧
      s''.currentThread = 3 ∧ ¬StaysStopped shortSlots 3 s' := by
  obtain ⟨s, hs, hmode, hcur, hafter⟩ : ∃ s, Reached shortSlots (fun _ _ => True)
      [.tick, .threadCreate, .request (.setPartitionMode partModeNormal),
        .request (.setPriority 3 100)] s ∧
        (s.partArray 1).mode = .normal ∧ 3 = s.currentThread ∧
        currentAfter shortSlots (.request .stopSelf) 4 s = some 3 := by
    apply Reached.exists_of_boot
    decide +kernel
  rw [currentAfter] at hafter
  cases hstep : step shortSlots s (.request .stopSelf) with
  | error f => simp [hstep] at hafter
  | ok s' =>
      simp only [hstep, Option.map_eq_some_iff] at hafter
      obtain ⟨s'', hexec, hthree⟩ := hafter
      have hrun : Run (step shortSlots) (fun s e => Allowed s e ∧ ¬ResumeOf 3 e) s'
          (List.replicate 4 .tick) s'' := by
        refine (Run.of_exec hexec).mono ?_
        rintro _ _ rfl
        exact ⟨trivial, id⟩
      exact ⟨s, s', s'', hs, hmode, hcur, hstep, hrun, hthree, fun hstays =>
        (hstays _ _ hrun).2 hthree⟩

end PartitionSeL4
