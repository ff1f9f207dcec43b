import PartitionSeL4.Sched

/-!
# `partition.c`: start-up, thread creation, partition mode

`system_init` fills the two arrays: `partition_init` lays the partitions' thread ranges one after
the other and starts and suspends their main threads, `process_init` then resets every thread
record (the main threads' too), and `sched_init` sets the slot counters. A thread is created by
its partition while that is in a start mode (`pok_partition_thread_create`), and leaves that mode
through `pok_partition_set_mode`.
-/

namespace PartitionSeL4

/-- The return codes of `pok_ret_t` that the modelled functions use. -/
inductive PokRet where
  | ok
  | einval
  | toomany
  | exists
  | port
  | notfound
  | direction
  | size
  | empty
  | mode
  | partitionMode
  deriving DecidableEq, Repr

/-! ## Start-up -/

/-- `init_idle_thread` -/
def initIdleThread (cfg : Config) (s : State) : State :=
  s.updProc cfg.idleThread fun p => { p with
    period := 0
    deadline := 0
    timecap := 0
    nextActivation := 0
    remainingTimeCapacity := 0
    wakeupTime := 0
    basePriority := 0
    status := .runnable
    ktcb := 0 }

/-- `init_kernel_thread` -/
def initKernelThread (cfg : Config) (s : State) : State :=
  s.updProc cfg.kernelThread fun p => { p with
    prio := 0
    basePriority := 0
    status := .runnable
    nextActivation := 0 }

/-- `setup_main_thread`: the thread record, and `proc_load_direct`, which starts thread 0 of the
new process. The processes of the partitions are loaded in order after the two system servers, so
that partition `p` gets PID `p + CONFIG_PCB_OFFSET`. -/
def setupMainThread (cfg : Config) (id partId : Nat) (s : State) : State :=
  (s.updProc id fun p => { p with
    prio := 1
    basePriority := 1
    period := 0
    nextActivation := 0
    timecap := 0
    remainingTimeCapacity := 0
    status := .runnable
    wakeupTime := 0
    partition := partId }).tcbResume (cfg.getTcbCptrFromPid (partId + configPcbOffset) 0)

/-- `setup_main_thread_ktcb` -/
def setupMainThreadKtcb (cfg : Config) (procId partId : Nat) (s : State) : State :=
  s.updProc procId fun p => { p with
    ktcb := cfg.getTcbCptrFromPid (partId + configPcbOffset) 0 }

/-- The record that one round of `partition_init` leaves in `part_array[i]`. -/
def partitionRecord (cfg : Config) (i threadsIndex : Nat) : Partition where
  index := u8 (cfg.partitionsNthreads.getD i 0)
  mode := .warmStart
  lockLevel := 0
  startCond := .normalStart
  low := threadsIndex
  high := u32 (threadsIndex + cfg.partitionsNthreads.getD i 0 + (2 ^ 32 - 1))
  threadIndex := 1
  nthreads := cfg.partitionsNthreads.getD i 0
  sched := cfg.partitionsScheduler.getD i .fifo
  period := 0
  activation := 0
  prevThread := cfg.idleThread
  currentThread := cfg.mainArray.getD i 0
  threadMain := cfg.mainArray.getD i 0

/-- The loop of `partition_init` up to partition `n`: the next free thread index and the state. -/
def partitionInitLoop (cfg : Config) : Nat → State → Except Failure (Nat × State)
  | 0, s => .ok (0, s)
  | i + 1, s => do
      let (threadsIndex, s) ← partitionInitLoop cfg i s
      let part := partitionRecord cfg i threadsIndex
      let s := s.updPart i fun _ => part
      let mid := cfg.mainArray.getD i 0
      let s := setupMainThreadKtcb cfg mid i (setupMainThread cfg mid i s)
      if (s.procArray mid).ktcb = 0 then .error .assertion
      else .ok (u32 (part.high + 1), s.tcbSuspend (s.procArray mid).ktcb)

/-- `partition_init` -/
def partitionInit (cfg : Config) (s : State) : Except Failure State := do
  let (_, s) ← partitionInitLoop cfg cfg.nbPartitions s
  return s

/-- The body of the loop of `process_init`. -/
def Process.reset (cfg : Config) (i : Nat) (p : Process) : Process :=
  { p with
    status := .stopped
    prio := cfg.prioArray.getD i 0
    basePriority := cfg.prioArray.getD i 0
    deadline := 0
    period := cfg.periodArray.getD i 0
    timecap := cfg.timeArray.getD i 0
    remainingTimeCapacity := cfg.timeArray.getD i 0
    nextActivation := cfg.periodArray.getD i 0
    endTime := 0
    wakeupTime := 0 }

/-- `process_init` -/
def processInit (cfg : Config) (s : State) : State :=
  (initKernelThread cfg (initIdleThread cfg s)).forThreads 0 (Process.reset cfg) cfg.nbThreads

/-- `system_init`, as far as it concerns the scheduler. -/
def systemInit (cfg : Config) : Except Failure State := do
  let s ← partitionInit cfg (State.zero cfg)
  schedInit cfg (processInit cfg s)

/-! ## Creating threads -/

/-- `pok_partition_thread_create`: the return code, the new thread's index and the state. -/
def pokPartitionThreadCreate (cfg : Config) (s : State) (partitionId : Nat) :
    Except Failure (PokRet × Option Nat × State) :=
  let part := s.partArray partitionId
  if part.mode ≠ .coldStart ∧ part.mode ≠ .warmStart then .ok (.mode, none, s)
  else if part.high < part.threadIndex then .ok (.toomany, none, s)
  else
    let id := u32 (part.low + part.threadIndex)
    let s := s.updPart partitionId fun part =>
      { part with threadIndex := u32 (part.threadIndex + 1) }
    let ktcb := cfg.getTcbCptrFromPid (s.currentPartition + configPcbOffset)
      (u32 (id + 2 ^ 32 - (s.partArray s.currentPartition).low))
    if ktcb = 0 then .error .assertion
    else
      let s := s.updProc id fun p => { p with
        prio := cfg.prioArray.getD id 0
        basePriority := cfg.prioArray.getD id 0
        period := cfg.periodArray.getD id 0
        nextActivation := cfg.periodArray.getD id 0
        timecap := cfg.timeArray.getD id 0
        remainingTimeCapacity := cfg.timeArray.getD id 0
        status := .runnable
        wakeupTime := 0
        partition := s.currentPartition
        ktcb := ktcb }
      .ok (.ok, some id, s.tcbSuspend ktcb)

/-! ## Partition mode -/

/-- The body of the delayed-start loop of `pok_partition_set_mode`. A period of `2^64 - 1` is
ARINC's infinite time value. -/
def Process.delayedStart (cfg : Config) (now activation : Nat) (thread : Process) : Process :=
  if thread.status = .delayedStart then
    if thread.period = 2 ^ 64 - 1 then
      let wakeup := u64 (thread.wakeupTime + now)
      { thread with
        status := if thread.wakeupTime = 0 then .runnable else .waiting
        wakeupTime := wakeup
        endTime := u64 (wakeup + thread.timecap) }
    else
      let next := u64 (thread.wakeupTime + cfg.majorFrame + activation)
      { thread with
        nextActivation := next
        endTime := u64 (next + thread.timecap)
        status := .waitNextActivation }
  else thread

/-- What `pok_partition_set_mode` does before it calls the scheduler: the mode, the delayed starts,
and the main thread stopped. -/
def enterNormal (cfg : Config) (s : State) (pid : Nat) : State :=
  let s := s.updPart pid fun part => { part with mode := .normal }
  let current := s.partArray s.currentPartition
  let s := s.forThreads current.low
    (fun _ => Process.delayedStart cfg s.tickCounter current.activation)
    (s.partArray pid).nthreads
  s.updProc (s.partArray pid).threadMain fun p => { p with status := .stopped }

/-- `pok_partition_set_mode`: the only mode a partition can enter is the normal one, and only its
main thread may ask for it. -/
def pokPartitionSetMode (cfg : Config) (s : State) (pid : Nat) (mode : Int32) :
    Except Failure (PokRet × State) :=
  if mode = partModeNormal then
    if s.currentThread ≠ (s.partArray s.currentPartition).threadMain then
      .ok (.partitionMode, s)
    else do
      let s ← pokSched cfg (enterNormal cfg s pid)
      return (.ok, s)
  else .ok (.partitionMode, s)

end PartitionSeL4
