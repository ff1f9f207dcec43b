import PartitionSeL4.Data
import PartitionSeL4.Lib.Scan

/-!
# `sched.c`: the two-level scheduler

`pok_sched` elects a partition by the clock (`pok_elect_partition`), a thread of that partition
(`pok_elect_thread`), and moves the processor from the old thread to the new one
(`pok_sched_context_switch`). The only loop that may fail to end is the do-while of
`pok_sched_part_rr`; its rounds are counted and an exhausted count is the failure `hang`.
-/

namespace PartitionSeL4

open Lib

/-! ## Context switch -/

/-- `pok_sched_context_switch` -/
def pokSchedContextSwitch (s : State) (last new : Nat) : State :=
  if last ≠ new then
    let s := if (s.procArray last).ktcb ≠ 0 then s.tcbSuspend (s.procArray last).ktcb else s
    if (s.procArray new).ktcb ≠ 0 then s.tcbResume (s.procArray new).ktcb else s
  else s

/-! ## Electing a partition -/

/-- `pok_elect_partition`: the elected partition, and the state with the slot counters moved on
when the deadline has passed. -/
def pokElectPartition (cfg : Config) (s : State) : Nat × State :=
  let now := s.tickCounter
  if s.nextDeadline ≤ now then
    let slot := u8 ((s.currentSlot + 1) % cfg.nbSlots)
    (cfg.slotsAllocation.getD slot 0,
      { s with
        nextMajorFrame :=
          if s.nextMajorFrame ≤ now then u64 (s.nextMajorFrame + cfg.majorFrame)
          else s.nextMajorFrame
        currentSlot := slot
        nextDeadline := u64 (s.nextDeadline + cfg.slots.getD slot 0) })
  else (s.currentPartition, s)

/-! ## Electing a thread -/

/-- The first step of the activation loop: a waiting thread whose time has come is runnable. -/
def Process.wakeUp (now : Nat) (thread : Process) : Process :=
  if thread.status = .waiting ∧ thread.wakeupTime ≤ now then { thread with status := .runnable }
  else thread

/-- The second step: a thread waiting for its next activation gets a new budget. -/
def Process.replenish (now : Nat) (thread : Process) : Process :=
  if thread.status = .waitNextActivation ∧ thread.nextActivation ≤ now then
    { thread with
      status := .runnable
      remainingTimeCapacity := thread.timecap
      nextActivation := u64 (thread.nextActivation + thread.period) }
  else thread

/-- The body of the activation loop of `pok_elect_thread`. -/
def Process.activate (now : Nat) (thread : Process) : Process :=
  (thread.wakeUp now).replenish now

/-- The activation loop of `pok_elect_thread`. -/
def activateThreads (now : Nat) (newPartition : Partition) (s : State) : State :=
  s.forThreads newPartition.low (fun _ => Process.activate now) newPartition.nthreads

/-- The budget accounting of `pok_elect_thread` for the current thread. -/
def Process.charge (thread : Process) : Process :=
  if 0 < thread.remainingTimeCapacity then
    let remaining := thread.remainingTimeCapacity - 1
    { thread with
      remainingTimeCapacity := remaining
      status := if remaining = 0 then .waitNextActivation else thread.status }
  else { thread with status := .waitNextActivation }

/-- Charge `POK_CURRENT_THREAD`, unless it is the idle thread or the main thread of
`POK_CURRENT_PARTITION`. -/
def chargeCurrent (cfg : Config) (s : State) : State :=
  if s.currentThread ≠ cfg.idleThread ∧
      s.currentThread ≠ (s.partArray s.currentPartition).threadMain then
    s.updProc s.currentThread Process.charge
  else s

/-- `res++; if (res > index_high) res = index_low;` -/
def rrNext (indexLow indexHigh res : Nat) : Nat :=
  if indexHigh < u32 (res + 1) then indexLow else u32 (res + 1)

/-- `pok_sched_part_rr`. From any start, `index_high + 2` rounds go once through the whole range,
so a loop that is still running then never ends. -/
def pokSchedPartRr (cfg : Config) (procArray : Nat → Process)
    (indexLow indexHigh prevThread currentThread : Nat) : Except Failure Nat :=
  let start := if currentThread = cfg.idleThread then prevThread else currentThread
  if 0 < (procArray currentThread).remainingTimeCapacity ∧
      (procArray currentThread).status = .runnable then
    .ok currentThread
  else
    match doUntil (rrNext indexLow indexHigh)
        (fun res => res = start ∨ (procArray res).status = .runnable) (indexHigh + 2) start with
    | none => .error .hang
    | some res =>
        .ok (if res = start ∧ (procArray res).status ≠ .runnable then cfg.idleThread else res)

/-- The switch of `pok_elect_thread` on the mode of the partition elected. -/
def electByMode (cfg : Config) (s : State) (newPartition : Partition) :
    Except Failure (Nat × State) :=
  match newPartition.mode with
  | .warmStart | .coldStart => .ok (newPartition.threadMain, s)
  | .normal => do
      let s := chargeCurrent cfg s
      let elected ← pokSchedPartRr cfg s.procArray newPartition.low newPartition.high
        newPartition.prevThread newPartition.currentThread
      return (elected, s)
  | _ => .ok (cfg.idleThread, s)

/-- `pok_elect_thread`. The activation loop counts in a `uint8_t`, which never reaches an
`nthreads` of 256 or more. -/
def pokElectThread (cfg : Config) (s : State) (newPartitionId : Nat) :
    Except Failure (Nat × State) :=
  let now := s.tickCounter
  let newPartition := s.partArray newPartitionId
  if 2 ^ 8 ≤ newPartition.nthreads then .error .hang
  else do
    let s := activateThreads now newPartition s
    let (elected, s) ← electByMode cfg s newPartition
    return (elected, s.updProc elected fun p =>
      { p with endTime := u64 (now + p.remainingTimeCapacity) })

/-! ## The scheduler -/

/-- The partition's own record of its current and previous thread, as `pok_sched` keeps it. -/
def Partition.elect (cfg : Config) (electedThread : Nat) (part : Partition) : Partition :=
  if part.currentThread ≠ electedThread then
    { part with
      prevThread :=
        if part.currentThread ≠ cfg.idleThread then part.currentThread else part.prevThread
      currentThread := electedThread }
  else part

/-- `pok_sched` -/
def pokSched (cfg : Config) (s : State) : Except Failure State := do
  let lastThread := s.currentThread
  let (electedPartition, s) := pokElectPartition cfg s
  let (electedThread, s) ← pokElectThread cfg s electedPartition
  let s := { s with currentThread := electedThread, currentPartition := electedPartition }
  let s := s.updPart electedPartition (Partition.elect cfg electedThread)
  return pokSchedContextSwitch s lastThread electedThread

/-- One round of the loop of `scheduler_thread`: count the tick, then schedule. -/
def timerTick (cfg : Config) (s : State) : Except Failure State :=
  pokSched cfg { s with tickCounter := u64 (s.tickCounter + 1) }

/-- What `scheduler_thread` does before its loop. -/
def schedulerThreadStart (s : State) : State := { s with currentPartition := 0 }

/-! ## Start-up -/

/-- The summing loop of `sched_init`, in `uint64_t`. -/
def totalTime (slots : List Nat) : Nat := slots.foldl (fun total slot => u64 (total + slot)) 0

/-- `sched_init`. Its loop counts the slots in a `uint8_t`, and a table whose sum is not the major
frame ends in `while(1)`. -/
def schedInit (cfg : Config) (s : State) : Except Failure State :=
  if 2 ^ 8 ≤ cfg.nbSlots then .error .hang
  else if totalTime cfg.slots ≠ cfg.majorFrame then .error .hang
  else .ok { s with
    currentSlot := 0
    nextMajorFrame := cfg.majorFrame
    nextDeadline := cfg.slots.getD 0 0
    currentPartition := cfg.slotsAllocation.getD 0 0 }

end PartitionSeL4
