import PartitionSeL4.Boot

/-!
# The scheduler is well formed, and always returns

`scheduler_wellFormed` puts the invariant in the words of `partition.h`: in every state reached,
each partition's own record of its threads is in range, every further event returns, and the thread
an election leaves as the current one is right for the partition elected.

The idle thread's own status is no part of this. It starts as `RUNNABLE`, but a request to stop
oneself that arrives while the processor idles stops it, and it is elected all the same
(`idle_elected_while_stopped`).
-/

namespace PartitionSeL4

open Lib

/-- A partition's own record of its threads: its current thread lies in `[low, high]`, or is the
idle thread, and then its previous thread lies there. -/
def Partition.ThreadsInRange (cfg : Config) (part : Partition) : Prop :=
  (part.low ≤ part.currentThread ∧ part.currentThread ≤ part.high) ∨
    (part.currentThread = cfg.idleThread ∧
      part.low ≤ part.prevThread ∧ part.prevThread ≤ part.high)

/-- The thread elected is one of the partition's own or the idle thread. In normal mode it is a
runnable one, or the idle thread because no thread of the partition is runnable. -/
def ElectedRight (cfg : Config) (s : State) : Prop :=
  let part := s.partArray s.currentPartition
  ((part.low ≤ s.currentThread ∧ s.currentThread ≤ part.high) ∨
      s.currentThread = cfg.idleThread) ∧
    (part.mode = .normal →
      (s.currentThread = cfg.idleThread →
        ∀ i, part.low ≤ i → i ≤ part.high → (s.procArray i).status ≠ .runnable) ∧
      (s.currentThread ≠ cfg.idleThread → (s.procArray s.currentThread).status = .runnable))

theorem Ready.threadsInRange {cfg : Config} {s : State} (h : Ready cfg s) {p : Nat}
    (hp : p < cfg.nbPartitions) : (s.partArray p).ThreadsInRange cfg := by
  rw [Partition.ThreadsInRange, h.layout.owns_iff hp, h.layout.owns_iff hp]
  exact h.part p hp

theorem Inv.electedRight {cfg : Config} {s : State} (h : Inv cfg s) (hlast : IdleLast cfg s) :
    ElectedRight cfg s := by
  have hp := h.currentPartition_lt
  rw [ElectedRight, h.layout.owns_iff hp]
  refine ⟨h.current, fun hmode => ⟨fun hidle i hlow hhigh => ?_, fun hne => ?_⟩⟩
  · exact hlast.none hmode hidle i ((h.layout.owns_iff hp).1 ⟨hlow, hhigh⟩)
  · rcases h.elected.normal hmode with ⟨_, hrun⟩ | hidle
    · exact hrun
    · exact absurd hidle hne

/-- **The scheduler is well formed.** In every state reached by ticks, requests and creations, the
partitions' records of their threads are in range; every further tick and every further request
returns, so that no loop of the scheduler runs for ever; and what it elects is right. -/
theorem scheduler_wellFormed {cfg : Config} (hcfg : cfg.PartitionsOk) {evs : List Event}
    {s : State} (h : Reached cfg Allowed evs s) :
    (∀ p < cfg.nbPartitions, (s.partArray p).ThreadsInRange cfg) ∧
      (∀ e, Allowed s e → e ≠ .threadCreate →
        ∃ s', step cfg s e = .ok s' ∧ ElectedRight cfg s') := by
  have hinv := h.inv hcfg
  refine ⟨fun p hp => hinv.threadsInRange hp, fun e hok hne => ?_⟩
  obtain ⟨s', hs'⟩ := step_progress hcfg hinv hok hne
  exact ⟨s', hs', (step_inv hcfg hinv hs').electedRight
    (step_idleLast hcfg hinv (h.idleLast hcfg) hok hs')⟩

theorem deployment_partitionsOk : deployment.PartitionsOk where
  nthreads_pos := by decide
  nthreads_le := by decide
  main_mem := by unfold Config.Owns; decide
  sum_le := by decide
  nbThreads_lt := by decide
  nbSlots_pos := by decide
  slots_lt := by decide

/-- The deployed configuration, after a thread was created and the partition entered its normal
mode. -/
theorem scheduler_wellFormed_deployed :
    ∃ s, Reached deployment Allowed
        [.tick, .threadCreate, .request (.setPartitionMode partModeNormal)] s ∧
      (∀ p < deployment.nbPartitions, (s.partArray p).ThreadsInRange deployment) ∧
      (∀ e, Allowed s e → e ≠ .threadCreate →
        ∃ s', step deployment s e = .ok s' ∧ ElectedRight deployment s') := by
  obtain ⟨s, hs, _⟩ : ∃ s, Reached deployment Allowed
      [.tick, .threadCreate, .request (.setPartitionMode partModeNormal)] s ∧
        s.currentThread = 1 := by
    apply Reached.exists_of_boot
    decide +kernel
  exact ⟨s, hs, scheduler_wellFormed deployment_partitionsOk hs⟩

/-- A request to stop oneself that arrives before anything was elected stops the idle thread; when
the partition then enters its normal mode with no other thread, the idle thread is elected although
it is not runnable. -/
theorem idle_elected_while_stopped :
    ∃ s, Reached deployment Allowed
        [.request .stopSelf, .request (.setPartitionMode partModeNormal)] s ∧
      (s.partArray s.currentPartition).mode = .normal ∧
      (s.procArray s.currentThread).status ≠ .runnable := by
  apply Reached.exists_of_boot
  decide +kernel

end PartitionSeL4
