import PartitionSeL4.WellFormed

/-!
# `apex_proc.c`: the client's side of the thread requests

`SUSPEND`, `RESUME` and `SET_PRIORITY` first ask the server for the thread's status and period, then
decide, and then send their request one-way. The server answers with the `pok_state_t` it keeps; the
client reads the number as a `PROCESS_STATE_TYPE`. The two enumerations agree on 0 only: what is
`POK_STATE_WAITING` (2) for the server is `RUNNING` for the client, what is `WAITING` (3) for the
client is `POK_STATE_LOCK` for the server, and `POK_STATE_WAIT_NEXT_ACTIVATION` (4) is no client
state at all. A suspended thread has status 0, which `RESUME` refuses.

`suspend_resume_iff` says for which threads the two calls still do what they are for: those that
`SUSPEND` refuses and that do not wait for an activation.
-/

namespace PartitionSeL4

open Lib

/-! ## The status requests of the server -/

/-- The numbers of `pok_state_t`. -/
def PokState.toInt : PokState → Int
  | .stopped => 0
  | .runnable => 1
  | .waiting => 2
  | .lock => 3
  | .waitNextActivation => 4
  | .delayedStart => 5

/-- The range check of the status requests, against the partition of the caller. -/
def OutsidePartition (s : State) (part : Nat) (pid : Int32) : Prop :=
  threadId pid < (s.partArray part).low ∨ (s.partArray part).high < threadId pid

instance (s : State) (part : Nat) (pid : Int32) : Decidable (OutsidePartition s part pid) :=
  inferInstanceAs (Decidable (_ ∨ _))

/-- `proc_get_status_from_pid_handler` -/
def procGetStatusFromPidHandler (s : State) (part : Nat) (pid : Int32) : Int :=
  if OutsidePartition s part pid then -1 else (s.procArray (threadId pid)).status.toInt

/-- `proc_get_period_from_pid_handler`: the 64-bit period is returned as an `int`. -/
def procGetPeriodFromPidHandler (s : State) (part : Nat) (pid : Int32) : Int :=
  if OutsidePartition s part pid then -1
  else Int.bmod (s.procArray (threadId pid)).period (2 ^ 32)

/-! ## The client -/

/-- `RETURN_CODE_TYPE`, as far as the thread requests use it. -/
inductive ReturnCode where
  | noError
  | noAction
  | invalidParam
  | invalidMode
  deriving DecidableEq, Repr

/-- `PROCESS_STATE_TYPE` -/
inductive ProcessState where
  | dormant
  | ready
  | running
  | waiting
  deriving DecidableEq, Repr

/-- The numbers of `PROCESS_STATE_TYPE`. -/
def ProcessState.toInt : ProcessState → Int
  | .dormant => 0
  | .ready => 1
  | .running => 2
  | .waiting => 3

/-- `INFINITE_TIME_VALUE` -/
def infiniteTimeValue : Int := -1

/-- `MIN_PRIORITY_VALUE` -/
def minPriorityValue : Int32 := 1

/-- `MAX_PRIORITY_VALUE` -/
def maxPriorityValue : Int32 := 63

/-- `RPC_NBSend` of a request, and `NO_ERROR`: the server handles it before anything else. -/
def sendRequest (cfg : Config) (s : State) (r : ApexRequest) :
    Except Failure (ReturnCode × State) := do
  let s ← handleRequest cfg s r
  return (.noError, s)

/-- `SET_PRIORITY`, called by a process of partition `part`. -/
def setPriority (cfg : Config) (part : Nat) (s : State) (processId prio : Int32) :
    Except Failure (ReturnCode × State) :=
  let status := procGetStatusFromPidHandler s part processId
  if status < ProcessState.dormant.toInt ∨ ProcessState.waiting.toInt < status then
    .ok (.invalidParam, s)
  else if maxPriorityValue < prio ∨ prio < minPriorityValue then .ok (.invalidParam, s)
  else if status = ProcessState.dormant.toInt then .ok (.invalidMode, s)
  else sendRequest cfg s (.setPriority processId prio)

/-- `SUSPEND` -/
def suspend (cfg : Config) (part : Nat) (s : State) (processId : Int32) :
    Except Failure (ReturnCode × State) :=
  let status := procGetStatusFromPidHandler s part processId
  if status = ProcessState.dormant.toInt then .ok (.invalidMode, s)
  else if procGetPeriodFromPidHandler s part processId = infiniteTimeValue then
    .ok (.invalidMode, s)
  else if status = ProcessState.waiting.toInt then .ok (.noAction, s)
  else sendRequest cfg s (.suspend processId)

/-- `RESUME` -/
def resume (cfg : Config) (part : Nat) (s : State) (processId : Int32) :
    Except Failure (ReturnCode × State) :=
  let status := procGetStatusFromPidHandler s part processId
  if status = ProcessState.dormant.toInt then .ok (.invalidMode, s)
  else if procGetPeriodFromPidHandler s part processId = infiniteTimeValue then
    .ok (.invalidMode, s)
  else if status ≠ ProcessState.waiting.toInt then .ok (.noAction, s)
  else sendRequest cfg s (.resume processId)

/-! ## What the calls are for -/

/-- After a suspension that returns `NO_ERROR`, a resumption returns `NO_ERROR` and leaves the
thread runnable. -/
def ResumesAfterSuspend (cfg : Config) (part : Nat) (s : State) (id : Int32) : Prop :=
  ∀ s₁, suspend cfg part s id = .ok (.noError, s₁) →
    ∃ s₂, resume cfg part s₁ id = .ok (.noError, s₂) ∧
      (s₂.procArray (threadId id)).status = .runnable

/-- Every priority of the range can be given to a thread that is not dormant. -/
def AcceptsPriority (cfg : Config) (part : Nat) (s : State) (id : Int32) : Prop :=
  (s.procArray (threadId id)).status ≠ .stopped →
    ∀ prio, minPriorityValue ≤ prio → prio ≤ maxPriorityValue →
      ∃ s', setPriority cfg part s id prio = .ok (.noError, s')

/-- The period reads as `INFINITE_TIME_VALUE` once it is cut to 32 bits. -/
def Process.PeriodReadsInfinite (t : Process) : Prop := t.period % 2 ^ 32 = 2 ^ 32 - 1

instance (t : Process) : Decidable t.PeriodReadsInfinite := inferInstanceAs (Decidable (_ = _))

/-- The threads that `SUSPEND` refuses and that do not wait for an activation. -/
def Process.RefusesSuspend (t : Process) : Prop :=
  t.status = .stopped ∨ t.status = .lock ∨
    (t.PeriodReadsInfinite ∧ (t.status = .runnable ∨ t.status = .waiting))

instance (t : Process) : Decidable t.RefusesSuspend := inferInstanceAs (Decidable (_ ∨ _ ∨ _ ∧ _))

/-! ## Statuses along a request -/

theorem PokState.toInt_eq_dormant {st : PokState} :
    st.toInt = ProcessState.dormant.toInt ↔ st = .stopped := by
  cases st <;> decide

theorem PokState.toInt_eq_waiting {st : PokState} :
    st.toInt = ProcessState.waiting.toInt ↔ st = .lock := by
  cases st <;> decide

theorem PokState.toInt_not_valid {st : PokState} :
    (st.toInt < ProcessState.dormant.toInt ∨ ProcessState.waiting.toInt < st.toInt) ↔
      st = .waitNextActivation ∨ st = .delayedStart := by
  cases st <;> decide

theorem period_eq_infinite (n : Nat) :
    Int.bmod n (2 ^ 32) = infiniteTimeValue ↔ n % 2 ^ 32 = 2 ^ 32 - 1 := by
  simp only [Int.bmod_def, infiniteTimeValue]
  split_ifs <;> omega

theorem schedThread_status_ne_lock (cfg : Config) (s : State) (q i : Nat)
    (h : (s.procArray i).status ≠ .lock) : (schedThread cfg s q i).status ≠ .lock := by
  simp only [schedThread, Process.charge, Process.activate, Process.replenish, Process.wakeUp]
  split_ifs <;> simp_all

theorem pokSched_status_ne_lock {cfg : Config} {s s' : State} (hs : pokSched cfg s = .ok s')
    {i : Nat} (h : (s.procArray i).status ≠ .lock) : (s'.procArray i).status ≠ .lock := by
  obtain ⟨_, e, _, rfl⟩ := pokSched_eq_ok_iff.1 hs
  have hi := schedThread_status_ne_lock cfg s (electedPartition cfg s) i h
  simp only [afterSched, schedProcs, Function.update_apply]
  split_ifs with hie
  · subst hie
    exact hi
  · exact hi

theorem handleRequest_suspend_ne_lock {cfg : Config} {s s' : State} {id : Int32}
    (hs : handleRequest cfg s (.suspend id) = .ok s')
    (h : (s.procArray (threadId id)).status ≠ .lock) :
    (s'.procArray (threadId id)).status ≠ .lock := by
  by_cases hout : OutsideCurrentPartition s id
  · obtain rfl := Except.ok.inj ((updThreadAndSched_of_outside hout).symm.trans hs)
    exact h
  · refine pokSched_status_ne_lock ((updThreadAndSched_of_inside hout).symm.trans hs) ?_
    simp

/-! ## The three calls on a thread of the caller's partition -/

section Calls

variable {cfg : Config} {part : Nat} {s : State} {id : Int32}

theorem status_of_inside (h : ¬OutsidePartition s part id) :
    procGetStatusFromPidHandler s part id = (s.procArray (threadId id)).status.toInt := if_neg h

theorem period_of_inside (h : ¬OutsidePartition s part id) :
    procGetPeriodFromPidHandler s part id = infiniteTimeValue ↔
      (s.procArray (threadId id)).PeriodReadsInfinite := by
  rw [procGetPeriodFromPidHandler, if_neg h]
  exact period_eq_infinite _

theorem sendRequest_eq_ok {r : ApexRequest} {c : ReturnCode} {s' : State} :
    sendRequest cfg s r = .ok (c, s') ↔ c = .noError ∧ handleRequest cfg s r = .ok s' := by
  simp only [sendRequest]
  cases handleRequest cfg s r with
  | error f => simp [bind, Except.bind]
  | ok t => simp [bind, Except.bind, pure, Except.pure, eq_comm]

theorem suspend_noError (h : ¬OutsidePartition s part id) {s' : State} :
    suspend cfg part s id = .ok (.noError, s') ↔
      ((s.procArray (threadId id)).status ≠ .stopped ∧
        ¬(s.procArray (threadId id)).PeriodReadsInfinite ∧
        (s.procArray (threadId id)).status ≠ .lock) ∧
      handleRequest cfg s (.suspend id) = .ok s' := by
  simp only [suspend, status_of_inside h, period_of_inside h, PokState.toInt_eq_dormant,
    PokState.toInt_eq_waiting]
  split_ifs with hstopped hperiod hlock
  · simp [hstopped]
  · simp [hperiod]
  · simp [hlock]
  · simp [hstopped, hperiod, hlock, sendRequest_eq_ok]

/-- A resumption returns `NO_ERROR` for a locked thread only. -/
theorem lock_of_resume_noError (h : ¬OutsidePartition s part id) {s' : State}
    (hs : resume cfg part s id = .ok (.noError, s')) :
    (s.procArray (threadId id)).status = .lock := by
  simp only [resume, status_of_inside h, period_of_inside h, PokState.toInt_eq_dormant, ne_eq,
    PokState.toInt_eq_waiting] at hs
  split_ifs at hs with hstopped hperiod hlock
  · cases hs
  · cases hs
  · exact hlock
  · cases hs

theorem setPriority_noError (h : ¬OutsidePartition s part id) {prio : Int32}
    (hmin : minPriorityValue ≤ prio) (hmax : prio ≤ maxPriorityValue) {s' : State} :
    setPriority cfg part s id prio = .ok (.noError, s') ↔
      ((s.procArray (threadId id)).status ≠ .waitNextActivation ∧
        (s.procArray (threadId id)).status ≠ .delayedStart ∧
        (s.procArray (threadId id)).status ≠ .stopped) ∧
      handleRequest cfg s (.setPriority id prio) = .ok s' := by
  simp only [setPriority, status_of_inside h, PokState.toInt_not_valid, PokState.toInt_eq_dormant]
  have hprio : ¬(maxPriorityValue < prio ∨ prio < minPriorityValue) := by
    rw [Int32.lt_iff_toInt_lt, Int32.lt_iff_toInt_lt]
    rw [Int32.le_iff_toInt_le] at hmin hmax
    omega
  rw [if_neg hprio]
  split_ifs with hbad hstopped
  · rcases hbad with hbad | hbad <;> simp [hbad]
  · simp [hstopped]
  · obtain ⟨hwait, hdelay⟩ := not_or.1 hbad
    simp [hwait, hdelay, hstopped, sendRequest_eq_ok]

/-- The range check reads the layout of the partitions, which a suspension keeps. -/
theorem outsidePartition_suspend {s' : State}
    (hs : handleRequest cfg s (.suspend id) = .ok s') :
    OutsidePartition s' part id ↔ OutsidePartition s part id := by
  have hrange : (s'.partArray part).low = (s.partArray part).low ∧
      (s'.partArray part).high = (s.partArray part).high := by
    by_cases hout : OutsideCurrentPartition s id
    · obtain rfl := Except.ok.inj ((updThreadAndSched_of_outside hout).symm.trans hs)
      exact ⟨rfl, rfl⟩
    · obtain ⟨_, e, _, rfl⟩ :=
        pokSched_eq_ok_iff.1 ((updThreadAndSched_of_inside hout).symm.trans hs)
      simp only [afterSched, Function.update_apply, State.updProc_partArray]
      split_ifs with hq
      · subst hq
        unfold Partition.elect
        split_ifs <;> exact ⟨rfl, rfl⟩
      · exact ⟨rfl, rfl⟩
  rw [OutsidePartition, OutsidePartition, hrange.1, hrange.2]

/-- A suspension that succeeds cannot be undone by `RESUME`. -/
theorem resumesAfterSuspend_iff (h : ¬OutsidePartition s part id)
    (hret : ∃ s', handleRequest cfg s (.suspend id) = .ok s') :
    ResumesAfterSuspend cfg part s id ↔
      (s.procArray (threadId id)).status = .stopped ∨
        (s.procArray (threadId id)).PeriodReadsInfinite ∨
        (s.procArray (threadId id)).status = .lock := by
  constructor
  · intro hresumes
    by_contra hcond
    simp only [not_or] at hcond
    obtain ⟨s₁, hs₁⟩ := hret
    obtain ⟨s₂, hs₂, _⟩ := hresumes s₁ ((suspend_noError h).2 ⟨hcond, hs₁⟩)
    have hinside : ¬OutsidePartition s₁ part id := by
      rwa [outsidePartition_suspend hs₁]
    exact handleRequest_suspend_ne_lock hs₁ hcond.2.2 (lock_of_resume_noError hinside hs₂)
  · intro hcond s₁ hs₁
    obtain ⟨⟨hstopped, hperiod, hlock⟩, _⟩ := (suspend_noError h).1 hs₁
    tauto

theorem acceptsPriority_iff (h : ¬OutsidePartition s part id)
    (hret : ∀ prio, ∃ s', handleRequest cfg s (.setPriority id prio) = .ok s') :
    AcceptsPriority cfg part s id ↔
      (s.procArray (threadId id)).status ≠ .waitNextActivation ∧
        (s.procArray (threadId id)).status ≠ .delayedStart := by
  constructor
  · intro haccepts
    by_cases hstopped : (s.procArray (threadId id)).status = .stopped
    · simp [hstopped]
    · obtain ⟨s', hs'⟩ := haccepts hstopped minPriorityValue (by decide) (by decide)
      obtain ⟨⟨hwait, hdelay, _⟩, _⟩ := (setPriority_noError h (by decide) (by decide)).1 hs'
      exact ⟨hwait, hdelay⟩
  · rintro ⟨hwait, hdelay⟩ hstopped prio hmin hmax
    obtain ⟨s', hs'⟩ := hret prio
    exact ⟨s', (setPriority_noError h hmin hmax).2 ⟨⟨hwait, hdelay, hstopped⟩, hs'⟩⟩

/-- Both together, where the server handles the requests. -/
theorem resumes_and_accepts_iff (h : ¬OutsidePartition s part id)
    (hsuspend : ∃ s', handleRequest cfg s (.suspend id) = .ok s')
    (hprio : ∀ prio, ∃ s', handleRequest cfg s (.setPriority id prio) = .ok s') :
    (ResumesAfterSuspend cfg part s id ∧ AcceptsPriority cfg part s id) ↔
      (s.procArray (threadId id)).RefusesSuspend := by
  rw [resumesAfterSuspend_iff h hsuspend, acceptsPriority_iff h hprio, Process.RefusesSuspend]
  cases (s.procArray (threadId id)).status <;> simp

end Calls

/-- **Suspending and resuming.** Take a thread of the caller's partition, in a state in which the
server handles the requests, as it does in every state reached. A suspension that succeeds is undone
by `RESUME`, and a priority is accepted whenever the thread is not dormant, if and only if the
thread is one that `SUSPEND` refuses and that waits for no activation. -/
theorem suspend_resume_iff (cfg : Config) (part : Nat) (s : State) (id : Int32)
    (hid : ¬OutsidePartition s part id)
    (hserves : (∃ evs, cfg.PartitionsOk ∧ Reached cfg (fun _ _ => True) evs s) ∨
      ((∃ s', handleRequest cfg s (.suspend id) = .ok s') ∧
        ∀ prio, ∃ s', handleRequest cfg s (.setPriority id prio) = .ok s')) :
    (ResumesAfterSuspend cfg part s id ∧ AcceptsPriority cfg part s id) ↔
      (s.procArray (threadId id)).RefusesSuspend := by
  rcases hserves with ⟨evs, hcfg, hreach⟩ | ⟨hsuspend, hprio⟩
  · have hinv := hreach.inv hcfg
    exact resumes_and_accepts_iff hid
      (step_progress (e := .request (.suspend id)) hcfg hinv trivial (by simp))
      fun prio => step_progress (e := .request (.setPriority id prio)) hcfg hinv trivial (by simp)
  · exact resumes_and_accepts_iff hid hsuspend hprio

/-- In the deployed configuration, thread 0 of partition 0 has been stopped when the partition
entered the normal mode. `SUSPEND` and `SET_PRIORITY` refuse it, as they should. -/
theorem suspend_resume_iff_stopped :
    ∃ s, Reached deployment (fun _ _ => True)
        [.tick, .threadCreate, .request (.setPartitionMode partModeNormal)] s ∧
      ResumesAfterSuspend deployment 0 s 0 ∧ AcceptsPriority deployment 0 s 0 := by
  obtain ⟨s, hs, hinside, hrefuses⟩ : ∃ s, Reached deployment (fun _ _ => True)
      [.tick, .threadCreate, .request (.setPartitionMode partModeNormal)] s ∧
        ¬OutsidePartition s 0 0 ∧ (s.procArray (threadId 0)).RefusesSuspend := by
    apply Reached.exists_of_boot
    decide +kernel
  have hiff := suspend_resume_iff deployment 0 s 0 hinside
    (Or.inl ⟨_, deployment_partitionsOk, hs⟩)
  exact ⟨s, hs, hiff.2 hrefuses⟩

/-- The return codes of `SUSPEND` and then `RESUME`. -/
def suspendThenResume (cfg : Config) (part : Nat) (s : State) (id : Int32) :
    Except Failure (ReturnCode × ReturnCode) := do
  let (suspended, s) ← suspend cfg part s id
  let (resumed, _) ← resume cfg part s id
  return (suspended, resumed)

/-- Thread 1 of partition 0 runs; it is suspended with `NO_ERROR`, and `RESUME` answers
`INVALID_MODE`. Once it waits for its next activation, it gets no priority. -/
theorem suspended_thread_not_resumed :
    (∃ s, Reached deployment (fun _ _ => True)
        [.tick, .threadCreate, .request (.setPartitionMode partModeNormal)] s ∧
      ¬OutsidePartition s 0 1 ∧ (s.procArray (threadId 1)).period = 1000 ∧
      (s.procArray (threadId 1)).status = .runnable ∧
      suspendThenResume deployment 0 s 1 = .ok (.noError, .invalidMode) ∧
      ¬ResumesAfterSuspend deployment 0 s 1) ∧
    (∃ s, Reached deployment (fun _ _ => True)
        [.tick, .threadCreate, .request (.setPartitionMode partModeNormal), .request .giveUp] s ∧
      ¬OutsidePartition s 0 1 ∧ (s.procArray (threadId 1)).period = 1000 ∧
      (s.procArray (threadId 1)).status = .waitNextActivation ∧
      setPriority deployment 0 s 1 10 = .ok (.invalidParam, s) ∧
      ¬AcceptsPriority deployment 0 s 1) := by
  constructor
  · obtain ⟨s, hs, hinside, hperiod, hstatus, hcodes⟩ : ∃ s, Reached deployment (fun _ _ => True)
        [.tick, .threadCreate, .request (.setPartitionMode partModeNormal)] s ∧
          ¬OutsidePartition s 0 1 ∧ (s.procArray (threadId 1)).period = 1000 ∧
          (s.procArray (threadId 1)).status = .runnable ∧
          (suspendThenResume deployment 0 s 1).toOption = some (.noError, .invalidMode) := by
      apply Reached.exists_of_boot
      decide +kernel
    have hret := step_progress (e := .request (.suspend 1)) deployment_partitionsOk
      (hs.inv deployment_partitionsOk) trivial (by simp)
    refine ⟨s, hs, hinside, hperiod, hstatus, ?_, ?_⟩
    · cases hcase : suspendThenResume deployment 0 s 1 with
      | error f => simp [hcase, Except.toOption] at hcodes
      | ok codes =>
          rw [hcase] at hcodes
          exact congrArg Except.ok (Option.some.inj hcodes)
    · rw [resumesAfterSuspend_iff hinside hret, Process.PeriodReadsInfinite, hstatus, hperiod]
      decide
  · obtain ⟨s, hs, hinside, hperiod, hstatus⟩ : ∃ s, Reached deployment (fun _ _ => True)
        [.tick, .threadCreate, .request (.setPartitionMode partModeNormal), .request .giveUp] s ∧
          ¬OutsidePartition s 0 1 ∧ (s.procArray (threadId 1)).period = 1000 ∧
          (s.procArray (threadId 1)).status = .waitNextActivation := by
      apply Reached.exists_of_boot
      decide +kernel
    refine ⟨s, hs, hinside, hperiod, hstatus, ?_, ?_⟩
    · simp only [setPriority, status_of_inside hinside, hstatus]
      rfl
    · intro haccepts
      obtain ⟨s', hs'⟩ := haccepts (by simp [hstatus]) 10 (by decide) (by decide)
      exact ((setPriority_noError hinside (by decide) (by decide)).1 hs').1.1 hstatus

end PartitionSeL4
