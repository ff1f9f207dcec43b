import PartitionSeL4.Invariant

/-!
# What one event does

Every event but a creation is a small edit of the state followed by a call of `pok_sched`, or is
dropped. `Enters` says which, `entry` is the edited state, and `step_cases` is the inversion of
`step` that the proofs about runs use. `step_inv` and `step_progress` then keep the invariant along
a run: no event leaves it, and no tick and no accepted request fails to return.
-/

namespace PartitionSeL4

open Lib

/-! ## Edits -/

/-- The thread whose record a request changes before it enters the scheduler. -/
def ApexRequest.target (s : State) : ApexRequest → Nat
  | .giveUp | .stopSelf | .suspendSelf => s.currentThread
  | .setPartitionMode _ => (s.partArray s.currentPartition).threadMain
  | .setPriority id _ | .suspend id | .resume id => threadId id

/-- What a request does to that record. -/
def ApexRequest.effect (s : State) : ApexRequest → Process → Process
  | .giveUp => fun p => { p with status := .waitNextActivation, remainingTimeCapacity := 0 }
  | .setPartitionMode _ | .stopSelf | .suspendSelf | .suspend _ =>
      fun p => { p with status := .stopped }
  | .setPriority _ prio =>
      fun p => { p with wakeupTime := s.tickCounter, prio := u8 prio.toUInt32.toNat }
  | .resume _ => fun p => { p with wakeupTime := s.tickCounter, status := .runnable }

/-- The requests that are acted upon. -/
def Effective (s : State) : ApexRequest → Prop
  | .setPartitionMode mode => Accepted s (.setPartitionMode mode)
  | .setPriority id _ | .suspend id | .resume id => ¬OutsideCurrentPartition s id
  | _ => True

/-- The events that enter the scheduler. -/
def Enters (s : State) : Event → Prop
  | .tick => True
  | .request r => Effective s r
  | .threadCreate => False

/-- The events that change the mode of a partition. -/
def Event.setsMode : Event → Bool
  | .request (.setPartitionMode _) => true
  | _ => false

/-- The state in which an event enters the scheduler. -/
def entry (cfg : Config) (s : State) : Event → State
  | .tick => { s with tickCounter := u64 (s.tickCounter + 1) }
  | .request (.setPartitionMode _) => enterNormal cfg s s.currentPartition
  | .request r => s.updProc (r.target s) (r.effect s)
  | .threadCreate => s

/-- `pok_partition_thread_create` goes through for the current partition. -/
def Creates (s : State) : Prop :=
  let part := s.partArray s.currentPartition
  (part.mode = .coldStart ∨ part.mode = .warmStart) ∧ part.threadIndex ≤ part.high

/-- The id of the thread created. -/
def createdId (s : State) : Nat :=
  u32 ((s.partArray s.currentPartition).low + (s.partArray s.currentPartition).threadIndex)

/-- The TCB of the thread created. -/
def createdTcb (cfg : Config) (s : State) : Nat :=
  cfg.getTcbCptrFromPid (s.currentPartition + configPcbOffset)
    (u32 (createdId s + 2 ^ 32 - (s.partArray s.currentPartition).low))

/-- The record of the thread created. -/
def createdThread (cfg : Config) (s : State) (p : Process) : Process :=
  let id := createdId s
  { p with
    prio := cfg.prioArray.getD id 0
    basePriority := cfg.prioArray.getD id 0
    period := cfg.periodArray.getD id 0
    nextActivation := cfg.periodArray.getD id 0
    timecap := cfg.timeArray.getD id 0
    remainingTimeCapacity := cfg.timeArray.getD id 0
    status := .runnable
    wakeupTime := 0
    partition := s.currentPartition
    ktcb := createdTcb cfg s }

/-- The state after a creation. -/
def createState (cfg : Config) (s : State) : State :=
  ((s.updPart s.currentPartition fun part =>
    { part with threadIndex := u32 (part.threadIndex + 1) }).updProc (createdId s)
      (createdThread cfg s)).tcbSuspend (createdTcb cfg s)

/-! ## Inversion of a step -/

theorem updThreadAndSched_of_outside {cfg : Config} {s : State} {id : Int32}
    {f : Process → Process} (h : OutsideCurrentPartition s id) :
    updThreadAndSched cfg s id f = .ok s := if_pos h

theorem updThreadAndSched_of_inside {cfg : Config} {s : State} {id : Int32}
    {f : Process → Process} (h : ¬OutsideCurrentPartition s id) :
    updThreadAndSched cfg s id f = pokSched cfg (s.updProc (threadId id) f) := if_neg h

theorem handleRequest_setPartitionMode (cfg : Config) (s : State) (mode : Int32) :
    handleRequest cfg s (.setPartitionMode mode) =
      if mode = partModeNormal ∧
          s.currentThread = (s.partArray s.currentPartition).threadMain then
        pokSched cfg (enterNormal cfg s s.currentPartition)
      else .error .assertion := by
  simp only [handleRequest, pokPartitionSetMode]
  by_cases hmode : mode = partModeNormal
  · by_cases hmain : s.currentThread = (s.partArray s.currentPartition).threadMain
    · rw [if_pos hmode, if_neg (not_not.2 hmain), if_pos ⟨hmode, hmain⟩]
      cases pokSched cfg (enterNormal cfg s s.currentPartition) <;> rfl
    · rw [if_pos hmode, if_pos hmain, if_neg (by simp [hmain])]
      rfl
  · rw [if_neg hmode, if_neg (by simp [hmode])]
    rfl

theorem step_of_enters {cfg : Config} {s : State} {e : Event} (h : Enters s e) :
    step cfg s e = pokSched cfg (entry cfg s e) := by
  cases e with
  | tick => rfl
  | threadCreate => exact absurd h id
  | request r =>
      cases r with
      | giveUp | stopSelf | suspendSelf => rfl
      | setPartitionMode mode =>
          show handleRequest cfg s (.setPartitionMode mode) = _
          rw [handleRequest_setPartitionMode, if_pos (by exact h)]
          rfl
      | setPriority id prio => exact updThreadAndSched_of_inside h
      | suspend id => exact updThreadAndSched_of_inside h
      | resume id => exact updThreadAndSched_of_inside h

theorem step_request_of_not_effective {cfg : Config} {s s' : State} {r : ApexRequest}
    (h : ¬Effective s r) : step cfg s (.request r) = .ok s' ↔ Accepted s r ∧ s' = s := by
  cases r with
  | giveUp | stopSelf | suspendSelf => exact absurd trivial h
  | setPartitionMode mode =>
      show handleRequest cfg s (.setPartitionMode mode) = _ ↔ _
      rw [handleRequest_setPartitionMode, if_neg (by exact h)]
      constructor
      · intro hok
        cases hok
      · intro hok
        exact absurd hok.1 h
  | setPriority id prio =>
      show updThreadAndSched cfg s id _ = _ ↔ _
      rw [updThreadAndSched_of_outside (not_not.1 h)]
      simp [Accepted, eq_comm]
  | suspend id =>
      show updThreadAndSched cfg s id _ = _ ↔ _
      rw [updThreadAndSched_of_outside (not_not.1 h)]
      simp [Accepted, eq_comm]
  | resume id =>
      show updThreadAndSched cfg s id _ = _ ↔ _
      rw [updThreadAndSched_of_outside (not_not.1 h)]
      simp [Accepted, eq_comm]

theorem step_threadCreate {cfg : Config} {s s' : State} :
    step cfg s .threadCreate = .ok s' ↔
      (¬Creates s ∧ s' = s) ∨
        (Creates s ∧ createdTcb cfg s ≠ 0 ∧ s' = createState cfg s) := by
  have hlow : ((s.updPart s.currentPartition fun part =>
      { part with threadIndex := u32 (part.threadIndex + 1) }).partArray s.currentPartition).low =
        (s.partArray s.currentPartition).low := by
    rw [State.updPart_partArray, if_pos rfl]
  simp only [step, pokPartitionThreadCreate, State.updPart_currentPartition, hlow]
  by_cases hmode : (s.partArray s.currentPartition).mode = .coldStart ∨
      (s.partArray s.currentPartition).mode = .warmStart
  · rw [if_neg (by tauto)]
    by_cases hfull : (s.partArray s.currentPartition).high <
        (s.partArray s.currentPartition).threadIndex
    · have hnot : ¬Creates s := fun h => absurd h.2 (by omega)
      rw [if_pos hfull]
      simp [hnot, bind, Except.bind, pure, Except.pure, eq_comm]
    · have hcreates : Creates s := ⟨hmode, by omega⟩
      rw [if_neg hfull]
      by_cases htcb : createdTcb cfg s = 0
      · rw [if_pos (by exact htcb)]
        simp [hcreates, htcb, bind, Except.bind]
      · rw [if_neg (by exact htcb)]
        simp only [hcreates, htcb, not_true_eq_false, false_and, true_and, false_or, ne_eq,
          not_false_eq_true, bind, Except.bind, pure, Except.pure, Except.ok.injEq]
        exact eq_comm
  · have hnot : ¬Creates s := fun h => hmode h.1
    rw [if_pos (by tauto)]
    simp [hnot, bind, Except.bind, pure, Except.pure, eq_comm]

/-- Everything an event that returns has done: it went through the scheduler, it left the state as
it was, or it created a thread. -/
theorem step_cases {cfg : Config} {s s' : State} {e : Event} (h : step cfg s e = .ok s') :
    (Enters s e ∧ pokSched cfg (entry cfg s e) = .ok s') ∨ (¬Enters s e ∧ s' = s) ∨
      (e = .threadCreate ∧ Creates s ∧ s' = createState cfg s) := by
  cases e with
  | tick => exact Or.inl ⟨trivial, h⟩
  | request r =>
      by_cases heff : Effective s r
      · exact Or.inl ⟨heff, by rwa [← step_of_enters (e := .request r) heff]⟩
      · exact Or.inr (Or.inl ⟨heff, ((step_request_of_not_effective heff).1 h).2⟩)
  | threadCreate =>
      rcases step_threadCreate.1 h with ⟨_, rfl⟩ | ⟨hc, _, rfl⟩
      · exact Or.inr (Or.inl ⟨id, rfl⟩)
      · exact Or.inr (Or.inr ⟨rfl, hc, rfl⟩)

/-! ## Reading the edited state -/

section Entry

variable (cfg : Config) (s : State) (e : Event)

theorem entry_frame :
    (entry cfg s e).currentThread = s.currentThread ∧
      (entry cfg s e).currentPartition = s.currentPartition ∧
      (entry cfg s e).nextDeadline = s.nextDeadline ∧
      (entry cfg s e).nextMajorFrame = s.nextMajorFrame ∧
      (entry cfg s e).currentSlot = s.currentSlot ∧
      (entry cfg s e).tcbRunning = s.tcbRunning := by
  cases e with
  | tick => exact ⟨rfl, rfl, rfl, rfl, rfl, rfl⟩
  | threadCreate => exact ⟨rfl, rfl, rfl, rfl, rfl, rfl⟩
  | request r =>
      cases r with
      | setPartitionMode mode =>
          simp only [entry, enterNormal, State.forThreads_eq]
          exact ⟨rfl, rfl, rfl, rfl, rfl, rfl⟩
      | _ => exact ⟨rfl, rfl, rfl, rfl, rfl, rfl⟩

@[simp] theorem entry_currentThread : (entry cfg s e).currentThread = s.currentThread :=
  (entry_frame cfg s e).1
@[simp] theorem entry_currentPartition :
    (entry cfg s e).currentPartition = s.currentPartition := (entry_frame cfg s e).2.1
@[simp] theorem entry_nextDeadline : (entry cfg s e).nextDeadline = s.nextDeadline :=
  (entry_frame cfg s e).2.2.1
@[simp] theorem entry_nextMajorFrame : (entry cfg s e).nextMajorFrame = s.nextMajorFrame :=
  (entry_frame cfg s e).2.2.2.1
@[simp] theorem entry_currentSlot : (entry cfg s e).currentSlot = s.currentSlot :=
  (entry_frame cfg s e).2.2.2.2.1
@[simp] theorem entry_tcbRunning : (entry cfg s e).tcbRunning = s.tcbRunning :=
  (entry_frame cfg s e).2.2.2.2.2

theorem entry_tickCounter : (entry cfg s e).tickCounter =
    if e = .tick then u64 (s.tickCounter + 1) else s.tickCounter := by
  cases e with
  | tick => rfl
  | threadCreate => rfl
  | request r =>
      cases r with
      | setPartitionMode mode =>
          simp only [entry, enterNormal, State.forThreads_eq]
          rfl
      | _ => rfl

theorem entry_partArray (p : Nat) : (entry cfg s e).partArray p =
    if e.setsMode ∧ p = s.currentPartition then
      { s.partArray p with mode := .normal }
    else s.partArray p := by
  cases e with
  | tick => simp [entry, Event.setsMode]
  | threadCreate => simp [entry, Event.setsMode]
  | request r =>
      cases r with
      | setPartitionMode mode =>
          simp only [entry, enterNormal, State.forThreads_eq, State.updProc_partArray,
            State.updPart_partArray]
          by_cases hp : p = s.currentPartition <;> simp [hp, Event.setsMode]
      | _ => simp [entry, Event.setsMode]

@[simp] theorem entry_tick_procArray : (entry cfg s .tick).procArray = s.procArray := rfl

end Entry

theorem entry_request_procArray {cfg : Config} {s : State} (r : ApexRequest)
    (hdelay : ∀ i, (s.partArray s.currentPartition).low ≤ i →
      i < (s.partArray s.currentPartition).low + (s.partArray s.currentPartition).nthreads →
      (s.procArray i).status ≠ .delayedStart) (i : Nat) :
    (entry cfg s (.request r)).procArray i =
      if i = r.target s then r.effect s (s.procArray i) else s.procArray i := by
  cases r with
  | setPartitionMode mode =>
      have hloop : ∀ j,
          (if (s.partArray s.currentPartition).low ≤ j ∧
              j < (s.partArray s.currentPartition).low +
                (s.partArray s.currentPartition).nthreads then
            (s.procArray j).delayedStart cfg s.tickCounter
              (s.partArray s.currentPartition).activation
          else s.procArray j) = s.procArray j := by
        intro j
        split_ifs with hj
        · simp [Process.delayedStart, hdelay j hj.1 hj.2]
        · rfl
      simp only [entry, enterNormal, State.forThreads_eq, State.updPart_procArray,
        State.updPart_partArray, State.updPart_currentPartition, State.updPart_tickCounter, if_true,
        hloop, State.updProc_procArray]
      rfl
  | _ => exact State.updProc_procArray s _ _ _

/-! ## The invariant along a run -/

theorem Process.Sound.effect {t : Process} (h : t.Sound) (s : State) (r : ApexRequest) :
    (r.effect s t).Sound := by
  cases r with
  | giveUp => exact .giveUp
  | setPartitionMode | stopSelf | suspendSelf | suspend => exact h.stop
  | setPriority id prio => exact h.setPriority _ _
  | resume id => exact h.resume _

theorem effect_ktcb (s : State) (r : ApexRequest) (t : Process) :
    (r.effect s t).ktcb = t.ktcb := by
  cases r <;> rfl

theorem effect_remaining_le (s : State) (r : ApexRequest) (t : Process) :
    (r.effect s t).remainingTimeCapacity ≤ t.remainingTimeCapacity := by
  cases r <;> simp [ApexRequest.effect]

namespace Ready

variable {cfg : Config} {s : State}

theorem not_delayedStart (hcfg : cfg.PartitionsOk) (h : Ready cfg s) (i : Nat)
    (hlow : (s.partArray s.currentPartition).low ≤ i)
    (hhigh : i < (s.partArray s.currentPartition).low +
      (s.partArray s.currentPartition).nthreads) :
    (s.procArray i).status ≠ .delayedStart := by
  have hp := h.currentPartition_lt
  rw [h.layout.low _ hp] at hlow
  rw [h.layout.low _ hp, h.layout.nthreads _ hp] at hhigh
  have hown := (hcfg.owns_iff hp).1 ⟨hlow, hhigh⟩
  rcases (h.sound _ hp i hown).status with hst | hst | hst <;> simp [hst]

theorem entry_procArray (hcfg : cfg.PartitionsOk) (h : Ready cfg s) (r : ApexRequest) (i : Nat) :
    (entry cfg s (.request r)).procArray i =
      if i = r.target s then r.effect s (s.procArray i) else s.procArray i :=
  entry_request_procArray r (h.not_delayedStart hcfg) i

theorem entry_ktcb (hcfg : cfg.PartitionsOk) (h : Ready cfg s) (e : Event) (i : Nat) :
    ((entry cfg s e).procArray i).ktcb = (s.procArray i).ktcb := by
  cases e with
  | tick => rfl
  | threadCreate => rfl
  | request r =>
      rw [h.entry_procArray hcfg]
      split_ifs
      · exact effect_ktcb s r _
      · rfl

theorem enter (hcfg : cfg.PartitionsOk) (h : Ready cfg s) (e : Event) :
    Ready cfg (entry cfg s e) := by
  have hproc : ∀ i, ((entry cfg s e).procArray i = s.procArray i) ∨
      ∃ r : ApexRequest, (entry cfg s e).procArray i = r.effect s (s.procArray i) := by
    intro i
    cases e with
    | tick => exact Or.inl rfl
    | threadCreate => exact Or.inl rfl
    | request r =>
        rw [h.entry_procArray hcfg]
        split_ifs
        · exact Or.inr ⟨r, rfl⟩
        · exact Or.inl rfl
  refine ⟨?_, by simpa using h.currentPartition_lt, by simpa using h.currentSlot_lt, ?_, ?_,
    by simpa using h.current, ?_⟩
  · refine h.layout.congr ?_ ?_ ?_ ?_ <;> intro p <;> rw [entry_partArray] <;> split_ifs <;> rfl
  · intro p hp
    rw [entry_partArray]
    split_ifs
    · exact Or.inr rfl
    · exact h.mode p hp
  · intro p hp
    rw [entry_partArray]
    split_ifs <;> exact h.part p hp
  · intro p hp i hi
    rcases hproc i with heq | ⟨r, heq⟩
    · rw [heq]
      exact h.sound p hp i hi
    · rw [heq]
      exact (h.sound p hp i hi).effect s r

theorem entry_remaining_le (hcfg : cfg.PartitionsOk) (h : Ready cfg s) (e : Event) (i : Nat) :
    ((entry cfg s e).procArray i).remainingTimeCapacity ≤
      (s.procArray i).remainingTimeCapacity := by
  cases e with
  | tick => exact le_rfl
  | threadCreate => exact le_rfl
  | request r =>
      rw [h.entry_procArray hcfg]
      split_ifs
      · exact effect_remaining_le s r _
      · exact le_rfl

end Ready

section Create

variable {cfg : Config} {s : State}

/-- A thread is created with an id that its partition owns, other than the first. -/
theorem createdId_eq (hcfg : cfg.PartitionsOk) (h : Layout cfg s)
    (hp : s.currentPartition < cfg.nbPartitions) (hc : Creates s) (hr : CreatesInRange s) :
    createdId s = cfg.low s.currentPartition + (s.partArray s.currentPartition).threadIndex ∧
      cfg.low s.currentPartition < createdId s ∧ createdId s ≤ cfg.high s.currentPartition := by
  obtain ⟨hpos, hle⟩ := hr hc.1 hc.2
  have hword := hcfg.high_lt_word hp
  rw [h.low _ hp, h.high _ hp] at hle
  have hid : createdId s =
      cfg.low s.currentPartition + (s.partArray s.currentPartition).threadIndex := by
    rw [createdId, h.low _ hp, u32_of_lt (by omega)]
  omega

theorem createdId_owned (hcfg : cfg.PartitionsOk) (h : Layout cfg s)
    (hp : s.currentPartition < cfg.nbPartitions) (hc : Creates s) (hr : CreatesInRange s) :
    cfg.Owns s.currentPartition (createdId s) := by
  obtain ⟨_, hlow, hhigh⟩ := createdId_eq hcfg h hp hc hr
  exact ⟨by omega, hhigh⟩

theorem createState_procArray (i : Nat) : (createState cfg s).procArray i =
    if i = createdId s then createdThread cfg s (s.procArray i) else s.procArray i :=
  State.updProc_procArray _ _ _ _

theorem createState_partArray (p : Nat) : (createState cfg s).partArray p =
    if p = s.currentPartition then
      { s.partArray p with threadIndex := u32 ((s.partArray p).threadIndex + 1) }
    else s.partArray p :=
  State.updPart_partArray s _ p fun part =>
    { part with threadIndex := u32 (part.threadIndex + 1) }

theorem createState_mode (p : Nat) :
    ((createState cfg s).partArray p).mode = (s.partArray p).mode := by
  rw [createState_partArray]
  split_ifs <;> rfl

@[simp] theorem createState_currentThread :
    (createState cfg s).currentThread = s.currentThread := rfl
@[simp] theorem createState_tickCounter :
    (createState cfg s).tickCounter = s.tickCounter := rfl

theorem Inv.createState (h : Inv cfg s) (hc : Creates s) : Inv cfg (createState cfg s) := by
  have hmode : (s.partArray s.currentPartition).mode ≠ .normal := by
    rcases hc.1 with hm | hm <;> simp [hm]
  refine ⟨⟨?_, h.currentPartition_lt, h.currentSlot_lt, ?_, ?_, h.current, ?_⟩, ⟨?_, ?_⟩⟩
  · refine h.layout.congr ?_ ?_ ?_ ?_ <;> intro p <;> rw [createState_partArray] <;>
      split_ifs <;> rfl
  · intro p hp
    rw [createState_partArray]
    split_ifs <;> exact h.mode p hp
  · intro p hp
    rw [createState_partArray]
    split_ifs <;> exact h.part p hp
  · intro p hp i hi
    rw [createState_procArray]
    split_ifs
    · exact ⟨Or.inr (Or.inl rfl), fun hw => (by cases hw), le_rfl⟩
    · exact h.sound p hp i hi
  · intro _
    exact h.elected.start hmode
  · intro hnormal
    exact absurd ((createState_mode s.currentPartition).symm.trans hnormal) hmode

theorem IdleLast.createState (hcfg : cfg.PartitionsOk) (h : Inv cfg s) (hlast : IdleLast cfg s)
    (hc : Creates s) (hr : CreatesInRange s) : IdleLast cfg (createState cfg s) := by
  have hp := h.currentPartition_lt
  have hown := createdId_owned hcfg h.layout hp hc hr
  have hmode : (s.partArray s.currentPartition).mode ≠ .normal := by
    rcases hc.1 with hm | hm <;> simp [hm]
  constructor
  · rw [createState_procArray, if_neg (hcfg.ne_idle_of_owns hp hown).symm]
    exact hlast.budget
  · intro hnormal
    exact absurd ((createState_mode s.currentPartition).symm.trans hnormal) hmode

end Create

/-- **An event keeps the invariant.** -/
theorem step_inv {cfg : Config} {s s' : State} {e : Event} (hcfg : cfg.PartitionsOk)
    (h : Inv cfg s) (hs : step cfg s e = .ok s') : Inv cfg s' := by
  rcases step_cases hs with ⟨_, hsched⟩ | ⟨_, rfl⟩ | ⟨rfl, hc, rfl⟩
  · obtain ⟨s'', hs'', hinv⟩ := (h.toReady.enter hcfg e).pokSched hcfg
    rw [hsched] at hs''
    cases hs''
    exact hinv
  · exact h
  · exact h.createState hc

/-- If threads are created with ids of their partition only, the idle thread stays the last
choice. -/
theorem step_idleLast {cfg : Config} {s s' : State} {e : Event} (hcfg : cfg.PartitionsOk)
    (h : Inv cfg s) (hlast : IdleLast cfg s) (hok : Allowed s e) (hs : step cfg s e = .ok s') :
    IdleLast cfg s' := by
  rcases step_cases hs with ⟨_, hsched⟩ | ⟨_, rfl⟩ | ⟨rfl, hc, rfl⟩
  · have hle := h.toReady.entry_remaining_le hcfg e cfg.idleThread
    rw [hlast.budget] at hle
    exact (h.toReady.enter hcfg e).idleLast hcfg (Nat.le_zero.1 hle) hsched
  · exact hlast
  · exact hlast.createState hcfg h hc hok

/-- **No accepted tick or request fails**: the server returns to its loop. -/
theorem step_progress {cfg : Config} {s : State} {e : Event} (hcfg : cfg.PartitionsOk)
    (h : Inv cfg s) (hok : Allowed s e) (hne : e ≠ .threadCreate) :
    ∃ s', step cfg s e = .ok s' := by
  by_cases henters : Enters s e
  · obtain ⟨s', hs', _⟩ := (h.toReady.enter hcfg e).pokSched hcfg
    exact ⟨s', (step_of_enters henters).trans hs'⟩
  · cases e with
    | tick => exact absurd trivial henters
    | threadCreate => exact absurd rfl hne
    | request r => exact ⟨s, (step_request_of_not_effective henters).2 ⟨hok, rfl⟩⟩

end PartitionSeL4
