import PartitionSeL4.SchedProof
import PartitionSeL4.Lib.TimeTable

/-!
# Partition tables

The thread ranges of the partitions lie one after the other, as `partition_init` computes them: the
range of partition `p` starts where that of its predecessor ends. `Config.PartitionsOk` collects
what a usable table satisfies, and `Layout` says that `part_array` still holds the table, which no
later operation changes.
-/

namespace PartitionSeL4

open Lib

namespace Config

variable (cfg : Config)

/-- The number of threads of partition `p`. -/
def nthreads (p : Nat) : Nat := cfg.partitionsNthreads.getD p 0

/-- The first thread of partition `p`. -/
def low (p : Nat) : Nat := TimeTable.slotStart cfg.partitionsNthreads p

/-- The last thread of partition `p`. -/
def high (p : Nat) : Nat := cfg.low p + cfg.nthreads p - 1

/-- The main thread of partition `p`. -/
def threadMain (p : Nat) : Nat := cfg.mainArray.getD p 0

/-- Thread `i` is one of partition `p`'s: it lies in `[low, high]`. -/
def Owns (p i : Nat) : Prop := cfg.low p ≤ i ∧ i ≤ cfg.high p

/-- A usable partition table: non-empty ranges of at most 255 threads inside `proc_array`, each
with its main thread, and slots that belong to existing partitions. -/
structure PartitionsOk : Prop where
  nthreads_pos : ∀ p < cfg.nbPartitions, 0 < cfg.nthreads p
  nthreads_le : ∀ p < cfg.nbPartitions, cfg.nthreads p ≤ 255
  main_mem : ∀ p < cfg.nbPartitions, cfg.Owns p (cfg.threadMain p)
  sum_le : cfg.partitionsNthreads.sum ≤ cfg.nbThreads
  nbThreads_lt : cfg.nbThreads < 2 ^ 31
  nbSlots_pos : 0 < cfg.nbSlots
  slots_lt : ∀ k < cfg.nbSlots, cfg.slotsAllocation.getD k 0 < cfg.nbPartitions

namespace PartitionsOk

variable {cfg : Config} (hcfg : cfg.PartitionsOk) {p q i : Nat}

include hcfg

theorem nbPartitions_pos : 0 < cfg.nbPartitions :=
  Nat.lt_of_le_of_lt (Nat.zero_le _) (hcfg.slots_lt 0 hcfg.nbSlots_pos)

theorem high_add_one (hp : p < cfg.nbPartitions) : cfg.high p + 1 = cfg.low (p + 1) := by
  have hpos := hcfg.nthreads_pos p hp
  have hsucc := TimeTable.slotStart_succ cfg.partitionsNthreads p
  unfold high low nthreads at *
  omega

theorem high_lt_idle (hp : p < cfg.nbPartitions) : cfg.high p < cfg.idleThread := by
  have hend := hcfg.high_add_one hp
  have hsum := TimeTable.slotStart_le_sum cfg.partitionsNthreads (p + 1)
  have htotal := hcfg.sum_le
  unfold low at hend
  unfold idleThread
  omega

theorem high_lt_word (hp : p < cfg.nbPartitions) : cfg.high p + 1 < 2 ^ 32 := by
  have hlt := hcfg.high_lt_idle hp
  have hword := hcfg.nbThreads_lt
  unfold idleThread at hlt
  omega

theorem low_add_nthreads (hp : p < cfg.nbPartitions) :
    cfg.low p + cfg.nthreads p = cfg.high p + 1 := by
  have hpos := hcfg.nthreads_pos p hp
  unfold high
  omega

theorem owns_iff (hp : p < cfg.nbPartitions) :
    cfg.low p ≤ i ∧ i < cfg.low p + cfg.nthreads p ↔ cfg.Owns p i := by
  have hend := hcfg.low_add_nthreads hp
  unfold Owns
  omega

theorem ne_idle_of_owns (hp : p < cfg.nbPartitions) (hi : cfg.Owns p i) :
    i ≠ cfg.idleThread := by
  have hlt := hcfg.high_lt_idle hp
  have hle := hi.2
  omega

theorem main_ne_idle (hp : p < cfg.nbPartitions) : cfg.threadMain p ≠ cfg.idleThread :=
  hcfg.ne_idle_of_owns hp (hcfg.main_mem p hp)

theorem owns_unique (hp : p < cfg.nbPartitions) (hq : q < cfg.nbPartitions)
    (hpi : cfg.Owns p i) (hqi : cfg.Owns q i) : p = q := by
  have hpend := hcfg.high_add_one hp
  have hqend := hcfg.high_add_one hq
  obtain ⟨hpl, hph⟩ := hpi
  obtain ⟨hql, hqh⟩ := hqi
  unfold low at hpl hql hpend hqend
  rcases Nat.lt_trichotomy p q with hlt | heq | hgt
  · have := TimeTable.slotStart_mono cfg.partitionsNthreads (Nat.add_one_le_iff.2 hlt)
    omega
  · exact heq
  · have := TimeTable.slotStart_mono cfg.partitionsNthreads (Nat.add_one_le_iff.2 hgt)
    omega

end PartitionsOk

end Config

/-- `part_array` holds the partition table. -/
structure Layout (cfg : Config) (s : State) : Prop where
  low : ∀ p < cfg.nbPartitions, (s.partArray p).low = cfg.low p
  high : ∀ p < cfg.nbPartitions, (s.partArray p).high = cfg.high p
  nthreads : ∀ p < cfg.nbPartitions, (s.partArray p).nthreads = cfg.nthreads p
  threadMain : ∀ p < cfg.nbPartitions, (s.partArray p).threadMain = cfg.threadMain p

namespace Layout

variable {cfg : Config} {s s' : State}

theorem congr (h : Layout cfg s)
    (hlow : ∀ p, (s'.partArray p).low = (s.partArray p).low)
    (hhigh : ∀ p, (s'.partArray p).high = (s.partArray p).high)
    (hn : ∀ p, (s'.partArray p).nthreads = (s.partArray p).nthreads)
    (hmain : ∀ p, (s'.partArray p).threadMain = (s.partArray p).threadMain) :
    Layout cfg s' where
  low p hp := by rw [hlow, h.low p hp]
  high p hp := by rw [hhigh, h.high p hp]
  nthreads p hp := by rw [hn, h.nthreads p hp]
  threadMain p hp := by rw [hmain, h.threadMain p hp]

theorem afterSched (h : Layout cfg s) (e : Nat) : Layout cfg (afterSched cfg s e) := by
  refine h.congr ?_ ?_ ?_ ?_ <;> intro p <;> rw [afterSched_partArray] <;> split_ifs <;> simp

theorem owns_iff (h : Layout cfg s) {p i : Nat} (hp : p < cfg.nbPartitions) :
    (s.partArray p).low ≤ i ∧ i ≤ (s.partArray p).high ↔ cfg.Owns p i := by
  rw [h.low p hp, h.high p hp, Config.Owns]

theorem nthreads_lt (h : Layout cfg s) (hcfg : cfg.PartitionsOk) {p : Nat}
    (hp : p < cfg.nbPartitions) : (s.partArray p).nthreads < 2 ^ 8 := by
  have hle := hcfg.nthreads_le p hp
  rw [h.nthreads p hp]
  omega

end Layout

end PartitionSeL4
