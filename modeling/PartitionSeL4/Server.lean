import PartitionSeL4.Partition
import PartitionSeL4.Lib.Run

/-!
# `main.c`: the APEX requests of the process server

`proc_server_handle_message` compares message register 0 with the APEX labels of `sys_apex.h`
before it looks at anything else in the message. `ApexRequest.ofMsg` is that chain of comparisons
with the registers each branch reads, and `handleRequest` is the bodies of the branches. The
requests are sent one-way (`seL4_NBSend`), so no branch replies.

An `Event` is what can happen to the scheduler between two moments at which it is at rest: a timer
tick, an APEX request, or the creation of a thread by the current partition (`proc_clone`). The
scheduler thread and the server loop are taken to alternate, as the events of one list.
-/

namespace PartitionSeL4

open Lib

/-! ## Messages -/

/-- `struct procserv_msg` and the message registers. -/
structure Msg where
  /-- Badge of the endpoint capability the message was sent through. -/
  badge : UInt32
  /-- `seL4_MessageInfo_get_label` -/
  infoLabel : UInt32
  /-- `seL4_GetMR` -/
  mr : Nat → UInt32

/-- The APEX requests. Register values are read into variables of type `int`. -/
inductive ApexRequest where
  | giveUp
  | setPartitionMode (mode : Int32)
  | stopSelf
  | suspendSelf
  | setPriority (id prio : Int32)
  | suspend (id : Int32)
  | resume (id : Int32)
  deriving DecidableEq, Repr

/-- The APEX branch that `proc_server_handle_message` takes, if any. -/
def ApexRequest.ofMsg (msg : Msg) : Option ApexRequest :=
  let label := (msg.mr 0).toInt32
  if label = 0xabcd then some .giveUp
  else if label = 0xf001 then some (.setPartitionMode (msg.mr 1).toInt32)
  else if label = 0xf002 then some .stopSelf
  else if label = 0xf003 then some .suspendSelf
  else if label = 0xf004 then some (.setPriority (msg.mr 1).toInt32 (msg.mr 2).toInt32)
  else if label = 0xf005 then some (.suspend (msg.mr 1).toInt32)
  else if label = 0xf006 then some (.resume (msg.mr 1).toInt32)
  else none

/-- An `int` thread id as C converts it for the comparison with the unsigned `low` and `high`. -/
def threadId (id : Int32) : Nat := id.toUInt32.toNat

/-- The range check of the branches that name a thread. A negative id is a huge unsigned one. -/
def OutsideCurrentPartition (s : State) (id : Int32) : Prop :=
  threadId id < (s.partArray s.currentPartition).low ∨
    (s.partArray s.currentPartition).high < threadId id

instance (s : State) (id : Int32) : Decidable (OutsideCurrentPartition s id) :=
  inferInstanceAs (Decidable (_ ∨ _))

/-- The branches that name a thread: out of range the request is dropped, otherwise the record is
changed and the scheduler entered. -/
def updThreadAndSched (cfg : Config) (s : State) (id : Int32) (f : Process → Process) :
    Except Failure State :=
  if OutsideCurrentPartition s id then .ok s
  else pokSched cfg (s.updProc (threadId id) f)

/-- The bodies of the APEX branches of `proc_server_handle_message`. -/
def handleRequest (cfg : Config) (s : State) : ApexRequest → Except Failure State
  | .giveUp =>
      pokSched cfg (s.updProc s.currentThread fun p =>
        { p with status := .waitNextActivation, remainingTimeCapacity := 0 })
  | .setPartitionMode mode => do
      let (ret, s) ← pokPartitionSetMode cfg s s.currentPartition mode
      if ret = .ok then .ok s else .error .assertion
  | .stopSelf =>
      pokSched cfg (s.updProc s.currentThread fun p => { p with status := .stopped })
  | .suspendSelf =>
      pokSched cfg (s.updProc s.currentThread fun p => { p with status := .stopped })
  | .setPriority id prio =>
      updThreadAndSched cfg s id fun p =>
        { p with wakeupTime := s.tickCounter, prio := u8 prio.toUInt32.toNat }
  | .suspend id => updThreadAndSched cfg s id fun p => { p with status := .stopped }
  | .resume id =>
      updThreadAndSched cfg s id fun p =>
        { p with wakeupTime := s.tickCounter, status := .runnable }

/-- `proc_server_handle_message`: an APEX branch, or else the dispatchers for system calls, faults,
dataspaces and names. -/
def procServerHandleMessage (cfg : Config) (dispatch : State → Msg → Except Failure State)
    (s : State) (msg : Msg) : Except Failure State :=
  match ApexRequest.ofMsg msg with
  | some r => handleRequest cfg s r
  | none => dispatch s msg

/-! ## Events and runs -/

/-- What can happen to the scheduler. -/
inductive Event where
  /-- The timer thread wakes up. -/
  | tick
  /-- The server handles an APEX message. -/
  | request (r : ApexRequest)
  /-- `proc_clone` registers a thread with the current partition. -/
  | threadCreate
  deriving DecidableEq, Repr

/-- The effect of one event. -/
def step (cfg : Config) (s : State) : Event → Except Failure State
  | .tick => timerTick cfg s
  | .request r => handleRequest cfg s r
  | .threadCreate => do
      let (_, _, s) ← pokPartitionThreadCreate cfg s s.currentPartition
      return s

/-- A request that names the mode is accepted: `PART_MODE_NORMAL`, asked for by the main thread. -/
def Accepted (s : State) : ApexRequest → Prop
  | .setPartitionMode mode =>
      mode = partModeNormal ∧ s.currentThread = (s.partArray s.currentPartition).threadMain
  | _ => True

/-- `pok_partition_thread_create` returns an id in `(low, high]`, or none. -/
def CreatesInRange (s : State) : Prop :=
  let part := s.partArray s.currentPartition
  (part.mode = .coldStart ∨ part.mode = .warmStart) → part.threadIndex ≤ part.high →
    0 < part.threadIndex ∧ part.low + part.threadIndex ≤ part.high

/-- The events of the runs: mode requests are accepted ones, and threads are only created with ids
in `(low, high]` of their partition. -/
def Allowed (s : State) : Event → Prop
  | .tick => True
  | .request r => Accepted s r
  | .threadCreate => CreatesInRange s

instance (s : State) : (r : ApexRequest) → Decidable (Accepted s r)
  | .setPartitionMode _ => inferInstanceAs (Decidable (_ ∧ _))
  | .giveUp | .stopSelf | .suspendSelf | .setPriority _ _ | .suspend _ | .resume _ =>
      inferInstanceAs (Decidable True)

instance (s : State) : Decidable (CreatesInRange s) :=
  inferInstanceAs (Decidable (_ → _ → _))

instance (s : State) : (e : Event) → Decidable (Allowed s e)
  | .tick => inferInstanceAs (Decidable True)
  | .request r => inferInstanceAs (Decidable (Accepted s r))
  | .threadCreate => inferInstanceAs (Decidable (CreatesInRange s))

/-- The number of timer ticks in a list of events. -/
def ticks (evs : List Event) : Nat := evs.count .tick

@[simp] theorem ticks_nil : ticks [] = 0 := rfl

@[simp] theorem ticks_snoc_tick (evs : List Event) : ticks (evs ++ [.tick]) = ticks evs + 1 := by
  simp [ticks]

theorem ticks_snoc_of_ne {evs : List Event} {e : Event} (h : e ≠ .tick) :
    ticks (evs ++ [e]) = ticks evs := by
  simp [ticks, h]

/-- A state in which the scheduler starts to work: the one that `system_init` leaves, before or
after `scheduler_thread` has reset `current_partition`. -/
def Booted (cfg : Config) (s : State) : Prop :=
  ∃ s₀, systemInit cfg = .ok s₀ ∧ (s = s₀ ∨ s = schedulerThreadStart s₀)

/-- The states reached by a run of events that all satisfy `ok`. -/
def Reached (cfg : Config) (ok : State → Event → Prop) (evs : List Event) (s : State) : Prop :=
  ∃ s₀, Booted cfg s₀ ∧ Run (step cfg) ok s₀ evs s

/-- Execute a list of events from start-up. -/
def boot (cfg : Config) (ok : State → Event → Prop) [∀ s e, Decidable (ok s e)]
    (evs : List Event) : Option State :=
  match systemInit cfg with
  | .ok s => Run.exec (step cfg) ok evs (schedulerThreadStart s)
  | .error _ => none

theorem exists_of_boot {cfg : Config} {ok : State → Event → Prop} [∀ s e, Decidable (ok s e)]
    {evs : List Event} {P : State → Prop} [DecidablePred P]
    (h : ((boot cfg ok evs).any fun s => P s) = true) :
    ∃ s₀ s, systemInit cfg = .ok s₀ ∧ Run (step cfg) ok (schedulerThreadStart s₀) evs s ∧
      P s := by
  rw [boot] at h
  cases hinit : systemInit cfg with
  | error f => simp [hinit] at h
  | ok s₀ =>
      rw [hinit] at h
      obtain ⟨s, hrun, hP⟩ := Run.exists_of_exec h
      exact ⟨s₀, s, rfl, hrun, hP⟩

theorem Reached.exists_of_boot {cfg : Config} {ok : State → Event → Prop}
    [∀ s e, Decidable (ok s e)] {evs : List Event} {P : State → Prop} [DecidablePred P]
    (h : ((boot cfg ok evs).any fun s => P s) = true) : ∃ s, Reached cfg ok evs s ∧ P s := by
  obtain ⟨s₀, s, hinit, hrun, hP⟩ := PartitionSeL4.exists_of_boot h
  exact ⟨s, ⟨_, ⟨s₀, hinit, Or.inr rfl⟩, hrun⟩, hP⟩

end PartitionSeL4
