import Mathlib.Algebra.Group.Nat.Defs
import Mathlib.Logic.Function.Basic

/-!
# The partition scheduler's data

The records of `partition.h`, the scheduler variables of `sched.c` and the tables of
`deployment.h`. The two record arrays are total functions on indices: the scheduler and the requests
only write to entries of partitions and threads that exist (`PartitionSeL4.Invariant`), and so does
the creation of a thread where it is `Allowed`.

Machine words are natural numbers, and `u8`, `u32`, `u64` cut an expression to the width of the
variable it is stored in. The tables of `deployment.h` are the fields of `Config`, so that a
theorem holds for every table and not only for the deployed one; `deployment` is the deployed one.
-/

namespace PartitionSeL4

/-! ## Machine words -/

/-- A value stored in a `uint8_t`. -/
def u8 (n : Nat) : Nat := n % 2 ^ 8

/-- A value stored in a `uint32_t`. -/
def u32 (n : Nat) : Nat := n % 2 ^ 32

/-- A value stored in a `uint64_t`. -/
def u64 (n : Nat) : Nat := n % 2 ^ 64

theorem u8_of_lt {n : Nat} (h : n < 2 ^ 8) : u8 n = n := Nat.mod_eq_of_lt h

theorem u32_lt (n : Nat) : u32 n < 2 ^ 32 := Nat.mod_lt n (by decide)

theorem u32_of_lt {n : Nat} (h : n < 2 ^ 32) : u32 n = n := Nat.mod_eq_of_lt h

theorem u32_sub {a b : Nat} (hle : b ≤ a) (hlt : a < 2 ^ 32) : u32 (a + 2 ^ 32 - b) = a - b := by
  rw [show a + 2 ^ 32 - b = a - b + 2 ^ 32 by omega, u32, Nat.add_mod_right]
  exact Nat.mod_eq_of_lt (by omega)

theorem u64_of_lt {n : Nat} (h : n < 2 ^ 64) : u64 n = n := Nat.mod_eq_of_lt h

/-! ## Records -/

/-- `pok_state_t` -/
inductive PokState where
  | stopped
  | runnable
  | waiting
  | lock
  | waitNextActivation
  | delayedStart
  deriving DecidableEq, Repr

/-- `pok_partition_mode_t` -/
inductive PartMode where
  | coldStart
  | warmStart
  | normal
  | idle
  | restart
  | stopped
  deriving DecidableEq, Repr

/-- `PART_MODE_NORMAL` as a client sends it. -/
def partModeNormal : Int32 := 3

/-- `START_CONDITION_TYPE` -/
inductive StartCondition where
  | normalStart
  | partitionRestart
  | hmModuleRestart
  | hmPartitionRestart
  deriving DecidableEq, Repr

/-- `pok_sched_t` -/
inductive PokSched where
  | fifo
  | rr
  | globalTimeslice
  | rms
  | edf
  | llf
  | static
  deriving DecidableEq, Repr

/-- `struct process`: one entry of `proc_array`. The defaults are those of zeroed memory. -/
structure Process where
  status : PokState := .stopped
  partition : Nat := 0
  prio : Nat := 0
  basePriority : Nat := 0
  timecap : Nat := 0
  period : Nat := 0
  deadline : Nat := 0
  remainingTimeCapacity : Nat := 0
  nextActivation : Nat := 0
  endTime : Nat := 0
  wakeupTime : Nat := 0
  /-- Capability of the thread's kernel TCB, 0 when it has none. -/
  ktcb : Nat := 0
  deriving DecidableEq, Repr

/-- `struct partition`: one entry of `part_array`. -/
structure Partition where
  index : Nat := 0
  mode : PartMode := .stopped
  lockLevel : Nat := 0
  startCond : StartCondition := .normalStart
  low : Nat := 0
  high : Nat := 0
  threadIndex : Nat := 0
  nthreads : Nat := 0
  sched : PokSched := .fifo
  period : Nat := 0
  activation : Nat := 0
  prevThread : Nat := 0
  currentThread : Nat := 0
  threadMain : Nat := 0
  deriving DecidableEq, Repr

/-! ## Configuration -/

/-- The tables of `deployment.h` and `partition.c`, and the TCB capabilities of the processes. -/
structure Config where
  /-- `POK_CONFIG_NB_THREADS` -/
  nbThreads : Nat
  /-- `POK_CONFIG_PARTITIONS_NTHREADS` -/
  partitionsNthreads : List Nat
  /-- `POK_CONFIG_PARTITIONS_SCHEDULER` -/
  partitionsScheduler : List PokSched
  /-- `main_array` -/
  mainArray : List Nat
  /-- `prio_array` -/
  prioArray : List Nat
  /-- `period_array` -/
  periodArray : List Nat
  /-- `time_array` -/
  timeArray : List Nat
  /-- `pok_sched_slots` -/
  slots : List Nat
  /-- `pok_sched_slots_allocation` -/
  slotsAllocation : List Nat
  /-- `POK_CONFIG_SCHEDULING_MAJOR_FRAME` -/
  majorFrame : Nat
  /-- `get_tcb_cptr_from_pid`: the TCB of thread `tid` of process `pid`. -/
  getTcbCptrFromPid : Nat → Nat → Nat

namespace Config

variable (cfg : Config)

/-- `POK_CONFIG_NB_PARTITIONS` -/
def nbPartitions : Nat := cfg.partitionsNthreads.length

/-- `POK_CONFIG_SCHEDULING_NBSLOTS` -/
def nbSlots : Nat := cfg.slots.length

/-- `IDLE_THREAD` -/
def idleThread : Nat := cfg.nbThreads

/-- `KERNEL_THREAD` -/
def kernelThread : Nat := cfg.nbThreads + 1

end Config

/-- `CONFIG_PCB_OFFSET`: partition `p` is the process with PID `p + 3`. -/
def configPcbOffset : Nat := 3

/-- The configuration of `deployment.h`. TCB capabilities are numbered by process and thread. -/
def deployment : Config where
  nbThreads := 5
  partitionsNthreads := [2, 3]
  partitionsScheduler := [.rr, .rr]
  mainArray := [0, 2]
  prioArray := [100, 100, 100, 100, 100]
  periodArray := [1000, 1000, 1000, 1000, 1000]
  timeArray := [1000, 1000, 1000, 1000, 1000]
  slots := [1000, 1000]
  slotsAllocation := [0, 1]
  majorFrame := 2000
  getTcbCptrFromPid pid tid := 256 * pid + tid

/-! ## State -/

/-- The ways in which the process server stops serving: a failed `assert`, a loop that does not
end, an access outside an array or to unmapped memory. -/
inductive Failure where
  | assertion
  | hang
  | fault
  deriving DecidableEq, Repr

/-- The variables of `sched.c` and `partition.c`, and the running bit of every TCB. -/
@[ext]
structure State where
  /-- `proc_array` -/
  procArray : Nat → Process
  /-- `part_array` -/
  partArray : Nat → Partition
  /-- `current_partition` -/
  currentPartition : Nat
  /-- `current_thread` -/
  currentThread : Nat
  /-- `pok_tick_counter` -/
  tickCounter : Nat
  /-- `pok_sched_next_deadline` -/
  nextDeadline : Nat
  /-- `pok_sched_next_major_frame` -/
  nextMajorFrame : Nat
  /-- `pok_sched_current_slot` -/
  currentSlot : Nat
  /-- Whether the kernel runs the TCB of a capability. -/
  tcbRunning : Nat → Bool

namespace State

/-- Memory as the process server starts: everything zero except `current_thread`. -/
def zero (cfg : Config) : State where
  procArray _ := {}
  partArray _ := {}
  currentPartition := 0
  currentThread := cfg.idleThread
  tickCounter := 0
  nextDeadline := 0
  nextMajorFrame := 0
  currentSlot := 0
  tcbRunning _ := false

/-- Change one entry of `proc_array`. -/
def updProc (s : State) (i : Nat) (f : Process → Process) : State :=
  { s with procArray := Function.update s.procArray i (f (s.procArray i)) }

/-- Change one entry of `part_array`. -/
def updPart (s : State) (p : Nat) (f : Partition → Partition) : State :=
  { s with partArray := Function.update s.partArray p (f (s.partArray p)) }

/-- A loop over the threads `low, low + 1, …, low + n - 1` that changes each one's record. -/
def forThreads (s : State) (low : Nat) (f : Nat → Process → Process) : Nat → State
  | 0 => s
  | n + 1 => (s.forThreads low f n).updProc (low + n) (f (low + n))

/-- `seL4_TCB_Suspend` -/
def tcbSuspend (s : State) (cptr : Nat) : State :=
  { s with tcbRunning := Function.update s.tcbRunning cptr false }

/-- `seL4_TCB_Resume` -/
def tcbResume (s : State) (cptr : Nat) : State :=
  { s with tcbRunning := Function.update s.tcbRunning cptr true }

variable (s : State) (i j p q : Nat) (f : Process → Process) (g : Partition → Partition)

theorem updProc_procArray :
    (s.updProc i f).procArray j = if j = i then f (s.procArray j) else s.procArray j := by
  by_cases hj : j = i
  · subst hj
    simp [updProc]
  · simp [updProc, hj]

@[simp] theorem updProc_procArray_self : (s.updProc i f).procArray i = f (s.procArray i) := by
  simp [updProc]

@[simp] theorem updProc_partArray : (s.updProc i f).partArray = s.partArray := rfl

/-- The loop changes each record of its range once, and nothing else. -/
theorem forThreads_eq (h : Nat → Process → Process) (low n : Nat) :
    s.forThreads low h n = { s with
      procArray := fun j =>
        if low ≤ j ∧ j < low + n then h j (s.procArray j) else s.procArray j } := by
  induction n with
  | zero =>
      have hnone : ∀ j, ¬(low ≤ j ∧ j < low + 0) := by
        intro j
        omega
      simp only [forThreads, hnone, if_false]
  | succ n ih =>
      rw [forThreads, ih, updProc]
      congr 1
      funext j
      by_cases hj : j = low + n
      · subst hj
        simp
      · have hiff : (low ≤ j ∧ j < low + n) ↔ (low ≤ j ∧ j < low + (n + 1)) := by omega
        simp only [Function.update_of_ne hj, hiff]

theorem updPart_partArray :
    (s.updPart p g).partArray q = if q = p then g (s.partArray q) else s.partArray q := by
  by_cases hq : q = p
  · subst hq
    simp [updPart]
  · simp [updPart, hq]

@[simp] theorem updPart_procArray : (s.updPart p g).procArray = s.procArray := rfl
@[simp] theorem updPart_currentPartition :
    (s.updPart p g).currentPartition = s.currentPartition := rfl
@[simp] theorem updPart_tickCounter : (s.updPart p g).tickCounter = s.tickCounter := rfl

end State

end PartitionSeL4
