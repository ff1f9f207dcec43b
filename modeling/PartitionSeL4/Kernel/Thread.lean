import PartitionSeL4.Kernel.Transfer
import PartitionSeL4.Lib.LinkedQueue

/-!
# Threads and the scheduler

The kernel's threads, its ready queues, one for each domain and priority, and the choice of the
thread to run.

* `KState`: the threads, the endpoints, the ready queues with their bitmaps and the scheduler's
  state.
* `tcbSchedEnqueue`, `tcbSchedAppend`, `tcbSchedDequeue`: a thread comes into its ready queue, first
  or last, and out of it.
* `schedule`: the thread to run next. An operation that wakes a thread asks for it with
  `possibleSwitchTo`.
-/

namespace PartitionSeL4.Kernel

open Lib Function

/-- `_thread_state_t`. -/
inductive ThreadStateType where
  | inactive
  | running
  | restart
  | blockedOnReceive
  | blockedOnSend
  | blockedOnReply
  | blockedOnAsyncEvent
  | runningVM
  | idleThreadState
  deriving DecidableEq, Repr

inductive EPState where
  | idle
  | send
  | recv
  deriving DecidableEq, Repr

inductive AEPState where
  | idle
  | waiting
  | active
  deriving DecidableEq, Repr

/-- `ksSchedulerAction`. -/
inductive SchedulerAction where
  | resumeCurrentThread
  | chooseNewThread
  | switchToThread (tcb : Nat)
  deriving DecidableEq, Repr

/-- How the kernel is configured: the number of domains, their schedule (the domain and its length)
and the length of a time slice. -/
structure Config where
  numDomains : Nat
  ksDomSchedule : List (Nat × Nat)
  timeSlice : Nat

def numPriorities : Nat := 256

def wordBits : Nat := 32

/-- The kernel's state, as far as threads and IPC go. Each field of `tcb_t`, `endpoint_t` and
`async_endpoint_t` is a map from addresses.

`tcbReply` is a thread's master reply capability: none before the thread is first started, else the
slot of the capability to reply to it, or 0. `replyCap` is the thread that the reply capability in a
slot is for, or 0 where there is none. -/
structure KState (μ : Type) where
  tsType : Nat → ThreadStateType
  tcbQueued : Nat → Bool
  blockingIPCEndpoint : Nat → Nat
  blockingIPCBadge : Nat → Nat
  blockingIPCCanGrant : Nat → Bool
  blockingIPCIsCall : Nat → Bool
  blockingIPCDiminishCaps : Nat → Bool
  boundAsyncEndpoint : Nat → Nat
  tcbFault : Nat → Fault
  tcbDomain : Nat → Nat
  tcbPriority : Nat → Nat
  tcbTimeSlice : Nat → Nat
  tcbSchedNext : Nat → Nat
  tcbSchedPrev : Nat → Nat
  tcbEPNext : Nat → Nat
  tcbEPPrev : Nat → Nat
  tcbReply : Nat → Option Nat
  epState : Nat → EPState
  epQueue : Nat → Queue
  aepState : Nat → AEPState
  aepQueue : Nat → Queue
  aepBoundTCB : Nat → Nat
  aepMsgIdentifier : Nat → Nat
  replyCap : Nat → Nat
  ksReadyQueues : Nat → Queue
  ksReadyQueuesL1Bitmap : Nat → BitVec 32
  ksReadyQueuesL2Bitmap : Nat → Nat → BitVec 32
  ksCurThread : Nat
  ksIdleThread : Nat
  ksSchedulerAction : SchedulerAction
  ksCurDomain : Nat
  ksDomainTime : Nat
  ksDomScheduleIdx : Nat
  context : Context μ

def KState.setRegister {μ : Type} (s : KState μ) (tcb reg w : Nat) : KState μ :=
  { s with context := s.context.setRegister tcb reg w }

def ThreadStateType.isRunnable : ThreadStateType → Bool
  | running | runningVM | restart => true
  | _ => false

def ThreadStateType.isBlocked : ThreadStateType → Bool
  | inactive | blockedOnReceive | blockedOnSend | blockedOnAsyncEvent | blockedOnReply => true
  | _ => false

section Scheduler

variable {μ : Type} (cfg : Config) (plat : Platform μ)

def isRunnable (s : KState μ) (tcb : Nat) : Bool := (s.tsType tcb).isRunnable

def isBlocked (s : KState μ) (tcb : Nat) : Bool := (s.tsType tcb).isBlocked

/-! ## Ready queues -/

def readyQueuesIndex (dom prio : Nat) : Except KernelFault Nat :=
  if 1 < cfg.numDomains then .ok (dom * numPriorities + prio)
  else if dom = 0 then .ok prio
  else .error .assertFail

/-- The queue and the bit of a priority: its upper bits are the word, its lower five the bit. -/
def prioToL1Index (prio : Nat) : Nat := prio / 2 ^ 5

def l1IndexToPrio (l1index : Nat) : Nat := l1index * 2 ^ 5

def addToBitmap (s : KState μ) (dom prio : Nat) : KState μ :=
  let l1index := prioToL1Index prio
  { s with
    ksReadyQueuesL1Bitmap := update s.ksReadyQueuesL1Bitmap dom
      (s.ksReadyQueuesL1Bitmap dom ||| 1#32 <<< l1index)
    ksReadyQueuesL2Bitmap := update s.ksReadyQueuesL2Bitmap dom
      (update (s.ksReadyQueuesL2Bitmap dom) l1index
        (s.ksReadyQueuesL2Bitmap dom l1index ||| 1#32 <<< (prio % 2 ^ 5))) }

def removeFromBitmap (s : KState μ) (dom prio : Nat) : KState μ :=
  let l1index := prioToL1Index prio
  let word := s.ksReadyQueuesL2Bitmap dom l1index &&& ~~~(1#32 <<< (prio % 2 ^ 5))
  { s with
    ksReadyQueuesL2Bitmap := update s.ksReadyQueuesL2Bitmap dom
      (update (s.ksReadyQueuesL2Bitmap dom) l1index word)
    ksReadyQueuesL1Bitmap :=
      if word = 0 then update s.ksReadyQueuesL1Bitmap dom
        (s.ksReadyQueuesL1Bitmap dom &&& ~~~(1#32 <<< l1index))
      else s.ksReadyQueuesL1Bitmap }

def setReadyQueue (s : KState μ) (idx : Nat) (queue : Queue) : KState μ :=
  { s with ksReadyQueues := update s.ksReadyQueues idx queue }

/-- The thread comes first in its ready queue. -/
def tcbSchedEnqueue (s : KState μ) (tcb : Nat) : Except KernelFault (KState μ) :=
  if s.tcbQueued tcb then .ok s
  else do
    let dom := s.tcbDomain tcb
    let prio := s.tcbPriority tcb
    let idx ← readyQueuesIndex cfg dom prio
    let queue := s.ksReadyQueues idx
    let s :=
      if queue.tail = 0 then addToBitmap s dom prio
      else { s with tcbSchedPrev := update s.tcbSchedPrev queue.head tcb }
    let s := { s with tcbSchedPrev := update s.tcbSchedPrev tcb 0 }
    let s := { s with tcbSchedNext := update s.tcbSchedNext tcb queue.head }
    let s := setReadyQueue s idx ⟨tcb, if queue.tail = 0 then tcb else queue.tail⟩
    .ok { s with tcbQueued := update s.tcbQueued tcb true }

/-- The thread comes last in its ready queue. -/
def tcbSchedAppend (s : KState μ) (tcb : Nat) : Except KernelFault (KState μ) :=
  if s.tcbQueued tcb then .ok s
  else do
    let dom := s.tcbDomain tcb
    let prio := s.tcbPriority tcb
    let idx ← readyQueuesIndex cfg dom prio
    let queue := s.ksReadyQueues idx
    let s :=
      if queue.head = 0 then addToBitmap s dom prio
      else { s with tcbSchedNext := update s.tcbSchedNext queue.tail tcb }
    let s := { s with tcbSchedPrev := update s.tcbSchedPrev tcb queue.tail }
    let s := { s with tcbSchedNext := update s.tcbSchedNext tcb 0 }
    let s := setReadyQueue s idx ⟨if queue.head = 0 then tcb else queue.head, tcb⟩
    .ok { s with tcbQueued := update s.tcbQueued tcb true }

/-- The thread comes out of its ready queue. -/
def tcbSchedDequeue (s : KState μ) (tcb : Nat) : Except KernelFault (KState μ) :=
  if s.tcbQueued tcb then do
    let dom := s.tcbDomain tcb
    let prio := s.tcbPriority tcb
    let idx ← readyQueuesIndex cfg dom prio
    let queue := s.ksReadyQueues idx
    let prev := s.tcbSchedPrev tcb
    let (s, head) :=
      if prev = 0 then
        (if s.tcbSchedNext tcb = 0 then removeFromBitmap s dom prio else s, s.tcbSchedNext tcb)
      else ({ s with tcbSchedNext := update s.tcbSchedNext prev (s.tcbSchedNext tcb) }, queue.head)
    let next := s.tcbSchedNext tcb
    let (s, tail) :=
      if next = 0 then (s, s.tcbSchedPrev tcb)
      else ({ s with tcbSchedPrev := update s.tcbSchedPrev next (s.tcbSchedPrev tcb) }, queue.tail)
    let s := setReadyQueue s idx ⟨head, tail⟩
    .ok { s with tcbQueued := update s.tcbQueued tcb false }
  else .ok s

/-- A thread that can run comes first in its ready queue. -/
def enqueueRunnable (s : KState μ) (tcb : Nat) : Except KernelFault (KState μ) :=
  if isRunnable s tcb then tcbSchedEnqueue cfg s tcb else .ok s

/-! ## The choice of a thread -/

def rescheduleRequired (s : KState μ) : Except KernelFault (KState μ) := do
  let s ←
    match s.ksSchedulerAction with
    | .switchToThread tcb => tcbSchedEnqueue cfg s tcb
    | _ => .ok s
  .ok { s with ksSchedulerAction := .chooseNewThread }

def scheduleTCB (s : KState μ) (tptr : Nat) : Except KernelFault (KState μ) :=
  if tptr = s.ksCurThread ∧ s.ksSchedulerAction = .resumeCurrentThread ∧ isRunnable s tptr = false
  then rescheduleRequired cfg s
  else .ok s

def setThreadState (s : KState μ) (tptr : Nat) (ts : ThreadStateType) :
    Except KernelFault (KState μ) :=
  scheduleTCB cfg ({ s with tsType := update s.tsType tptr ts }) tptr

def possibleSwitchTo (s : KState μ) (target : Nat) (onSamePriority : Bool) :
    Except KernelFault (KState μ) := do
  let curPrio := s.tcbPriority s.ksCurThread
  let targetPrio := s.tcbPriority target
  let action := s.ksSchedulerAction
  if 1 < cfg.numDomains then
    if s.tcbDomain target ≠ s.ksCurDomain then tcbSchedEnqueue cfg s target
    else .ok s
  else
    let s ←
      if (curPrio < targetPrio ∨ targetPrio = curPrio ∧ onSamePriority) ∧
          action = .resumeCurrentThread
      then .ok { s with ksSchedulerAction := .switchToThread target }
      else tcbSchedEnqueue cfg s target
    match action with
    | .switchToThread _ => rescheduleRequired cfg s
    | _ => .ok s

def attemptSwitchTo (s : KState μ) (target : Nat) : Except KernelFault (KState μ) :=
  possibleSwitchTo cfg s target true

def switchIfRequiredTo (s : KState μ) (target : Nat) : Except KernelFault (KState μ) :=
  possibleSwitchTo cfg s target false

def switchToThread (s : KState μ) (thread : Nat) : Except KernelFault (KState μ) := do
  let s := { s with context.mem := plat.archSwitchToThread s.context.mem thread }
  let s ← tcbSchedDequeue cfg s thread
  .ok { s with ksCurThread := thread }

def switchToIdleThread (s : KState μ) : KState μ :=
  { s with
    context.mem := plat.archSwitchToIdleThread s.context.mem
    ksCurThread := s.ksIdleThread }

/-- `(wordBits - 1) - CLZ(w)` -/
def highestBit (w : BitVec 32) : Nat := wordBits - 1 - w.clz.toNat

def chooseThread (s : KState μ) : Except KernelFault (KState μ) :=
  let dom := if 1 < cfg.numDomains then s.ksCurDomain else 0
  if s.ksReadyQueuesL1Bitmap dom ≠ 0 then do
    let l1index := highestBit (s.ksReadyQueuesL1Bitmap dom)
    let l2index := highestBit (s.ksReadyQueuesL2Bitmap dom l1index)
    let prio := l1IndexToPrio l1index ||| l2index
    let idx ← readyQueuesIndex cfg dom prio
    let thread := (s.ksReadyQueues idx).head
    if thread = 0 then .error .assertFail
    else if isRunnable s thread = false then .error .assertFail
    else switchToThread cfg plat s thread
  else .ok (switchToIdleThread plat s)

/-- The next entry of the domain schedule. -/
def nextDomain (s : KState μ) : Except KernelFault (KState μ) :=
  let idx := if s.ksDomScheduleIdx + 1 ≥ cfg.ksDomSchedule.length then 0 else s.ksDomScheduleIdx + 1
  match cfg.ksDomSchedule[idx]? with
  | some (domain, length) =>
      .ok { s with ksDomScheduleIdx := idx, ksCurDomain := domain, ksDomainTime := length }
  | none => .error .nullPointer

/-- The next domain comes when the time of the current one is over. -/
def nextDomainIfDue (s : KState μ) : Except KernelFault (KState μ) :=
  if 1 < cfg.numDomains ∧ s.ksDomainTime = 0 then nextDomain cfg s else .ok s

def schedule (s : KState μ) : Except KernelFault (KState μ) :=
  match s.ksSchedulerAction with
  | .chooseNewThread => do
      let s ← enqueueRunnable cfg s s.ksCurThread
      let s ← nextDomainIfDue cfg s
      let s ← chooseThread cfg plat s
      .ok { s with ksSchedulerAction := .resumeCurrentThread }
  | .switchToThread thread => do
      let s ← enqueueRunnable cfg s s.ksCurThread
      let s ← switchToThread cfg plat s thread
      .ok { s with ksSchedulerAction := .resumeCurrentThread }
  | .resumeCurrentThread => .ok s

def activateThread (s : KState μ) : Except KernelFault (KState μ) :=
  match s.tsType s.ksCurThread with
  | .running | .runningVM | .idleThreadState => .ok s
  | .restart =>
      let pc := plat.getRestartPC s.context s.ksCurThread
      setThreadState cfg { s with context := plat.setNextPC s.context s.ksCurThread pc }
        s.ksCurThread .running
  | _ => .error .fail

/-- A thread is taken out of its queue for its priority or its domain to change. -/
def reassign (s : KState μ) (tptr : Nat) (assign : KState μ → KState μ) :
    Except KernelFault (KState μ) := do
  let s ← tcbSchedDequeue cfg s tptr
  let s ← enqueueRunnable cfg (assign s) tptr
  if tptr = s.ksCurThread then rescheduleRequired cfg s else .ok s

def setPriority (s : KState μ) (tptr prio : Nat) : Except KernelFault (KState μ) :=
  reassign cfg s tptr fun s => { s with tcbPriority := update s.tcbPriority tptr prio }

def setDomain (s : KState μ) (tptr dom : Nat) : Except KernelFault (KState μ) :=
  reassign cfg s tptr fun s => { s with tcbDomain := update s.tcbDomain tptr dom }

/-- The current thread's time slice runs down. -/
def tickTimeSlice (s : KState μ) : Except KernelFault (KState μ) :=
  let cur := s.ksCurThread
  if isRunnable s cur then
    if 1 < s.tcbTimeSlice cur then
      .ok { s with tcbTimeSlice := update s.tcbTimeSlice cur (s.tcbTimeSlice cur - 1) }
    else do
      let s := { s with tcbTimeSlice := update s.tcbTimeSlice cur cfg.timeSlice }
      let s ← tcbSchedAppend cfg s cur
      rescheduleRequired cfg s
  else .ok s

/-- A machine word is decremented. -/
def wordDec (w : Nat) : Nat := if w = 0 then 2 ^ wordBits - 1 else w - 1

/-- And then the domain's time. -/
def timerTick (s : KState μ) : Except KernelFault (KState μ) := do
  let s ← tickTimeSlice cfg s
  if 1 < cfg.numDomains then
    let s := { s with ksDomainTime := wordDec s.ksDomainTime }
    if s.ksDomainTime = 0 then rescheduleRequired cfg s else .ok s
  else .ok s

def handleYield (s : KState μ) : Except KernelFault (KState μ) := do
  let s ← tcbSchedDequeue cfg s s.ksCurThread
  let s ← tcbSchedAppend cfg s s.ksCurThread
  rescheduleRequired cfg s

end Scheduler

end PartitionSeL4.Kernel
