import PartitionSeL4.Layout

/-!
# The scheduler's invariant

`Ready` is what `pok_sched` needs of the state it is entered in, and `Inv` adds what an election
has just established about the current thread. The loop of `pok_sched_part_rr` stops only when it
meets its starting index again, so everything depends on that index lying in the partition's
range: on `current_thread`, or on `prev_thread` while the partition idles (`Ready.part`).

* `Ready.pokSched` — from a ready state `pok_sched` returns, in a state that satisfies `Inv`;
* `Ready.idleLast` — and elects the idle thread only if it must, as long as that has no budget.
-/

namespace PartitionSeL4

open Lib

/-! ## Thread records -/

/-- What holds of the record of every partition thread at all times. No thread is ever in one of
the states `WAITING`, `LOCK` and `DELAYED_START`. -/
structure Process.Sound (t : Process) : Prop where
  status : t.status = .stopped ∨ t.status = .runnable ∨ t.status = .waitNextActivation
  exhausted : t.status = .waitNextActivation → t.remainingTimeCapacity = 0
  budget : t.remainingTimeCapacity ≤ t.timecap

namespace Process.Sound

variable {t : Process}

/-- A sound thread is never waiting, so the activation loop can only replenish it. -/
theorem activate_eq (h : t.Sound) (now : Nat) : t.activate now = t.replenish now := by
  have hne : t.status ≠ .waiting := by
    rcases h.status with h | h | h <;> simp [h]
  simp [Process.activate, Process.wakeUp, hne]

theorem activate (h : t.Sound) (now : Nat) : (t.activate now).Sound := by
  rw [h.activate_eq]
  unfold Process.replenish
  split_ifs
  · exact ⟨by simp, by simp, le_rfl⟩
  · exact h

theorem charge (h : t.Sound) : t.charge.Sound := by
  have hbudget := h.budget
  unfold Process.charge
  by_cases hpos : 0 < t.remainingTimeCapacity
  · by_cases hzero : t.remainingTimeCapacity - 1 = 0
    · simp only [hpos, hzero, if_true]
      exact ⟨by simp, by simp, Nat.zero_le _⟩
    · simp only [hpos, hzero, if_true, if_false]
      refine ⟨h.status, ?_, ?_⟩
      · intro hw
        have := h.exhausted hw
        omega
      · show t.remainingTimeCapacity - 1 ≤ t.timecap
        omega
  · rw [if_neg hpos]
    refine ⟨by simp, ?_, h.budget⟩
    intro _
    show t.remainingTimeCapacity = 0
    omega

theorem stop (h : t.Sound) : Process.Sound { t with status := .stopped } :=
  ⟨by simp, by simp, h.budget⟩

theorem giveUp : Process.Sound
    { t with status := .waitNextActivation, remainingTimeCapacity := 0 } :=
  ⟨by simp, by simp, Nat.zero_le _⟩

theorem setPriority (h : t.Sound) (now prio : Nat) :
    Process.Sound { t with wakeupTime := now, prio := prio } :=
  ⟨h.status, h.exhausted, h.budget⟩

theorem resume (h : t.Sound) (now : Nat) :
    Process.Sound { t with wakeupTime := now, status := .runnable } :=
  ⟨by simp, by simp, h.budget⟩

end Process.Sound

/-! ## Ready states -/

/-- What `pok_sched` needs of the state in which it is called. -/
structure Ready (cfg : Config) (s : State) : Prop where
  layout : Layout cfg s
  currentPartition_lt : s.currentPartition < cfg.nbPartitions
  currentSlot_lt : s.currentSlot < cfg.nbSlots
  mode : ∀ p < cfg.nbPartitions,
    (s.partArray p).mode = .warmStart ∨ (s.partArray p).mode = .normal
  /-- The starting index of the round robin lies in the partition's range. -/
  part : ∀ p < cfg.nbPartitions,
    cfg.Owns p (s.partArray p).currentThread ∨
      ((s.partArray p).currentThread = cfg.idleThread ∧ cfg.Owns p (s.partArray p).prevThread)
  current : cfg.Owns s.currentPartition s.currentThread ∨ s.currentThread = cfg.idleThread
  sound : ∀ p < cfg.nbPartitions, ∀ i, cfg.Owns p i → (s.procArray i).Sound

/-- The thread that the last election left as the current one: the idle thread, or else in a start
mode the main thread and in normal mode a runnable thread of the partition. -/
structure Elected (cfg : Config) (s : State) : Prop where
  start : (s.partArray s.currentPartition).mode ≠ .normal →
    s.currentThread = cfg.threadMain s.currentPartition ∨ s.currentThread = cfg.idleThread
  normal : (s.partArray s.currentPartition).mode = .normal →
    (cfg.Owns s.currentPartition s.currentThread ∧
        (s.procArray s.currentThread).status = .runnable) ∨
      s.currentThread = cfg.idleThread

/-- The invariant of the scheduler at rest. -/
structure Inv (cfg : Config) (s : State) : Prop extends Ready cfg s where
  elected : Elected cfg s

/-- In normal mode the idle thread is the last choice. It is as long as it has no budget. -/
structure IdleLast (cfg : Config) (s : State) : Prop where
  budget : (s.procArray cfg.idleThread).remainingTimeCapacity = 0
  none : (s.partArray s.currentPartition).mode = .normal → s.currentThread = cfg.idleThread →
    ∀ i, cfg.Owns s.currentPartition i → (s.procArray i).status ≠ .runnable

theorem schedThread_sound {cfg : Config} {s : State} {q p i : Nat} (h : Ready cfg s)
    (hp : p < cfg.nbPartitions) (hi : cfg.Owns p i) : (schedThread cfg s q i).Sound := by
  have hs := h.sound p hp i hi
  simp only [schedThread]
  split_ifs
  · exact (hs.activate _).charge
  · exact hs.charge
  · exact hs.activate _
  · exact hs

namespace Ready

variable {cfg : Config} {s : State} (hcfg : cfg.PartitionsOk) (h : Ready cfg s)

include hcfg h

theorem electedPartition_lt : electedPartition cfg s < cfg.nbPartitions := by
  by_cases hlt : s.tickCounter < s.nextDeadline
  · rw [electedPartition_of_lt hlt]
    exact h.currentPartition_lt
  · rw [electedPartition_of_le (by omega)]
    apply hcfg.slots_lt
    exact lt_of_le_of_lt (Nat.mod_le _ _) (Nat.mod_lt _ hcfg.nbSlots_pos)

theorem afterSched_currentSlot_lt (e : Nat) : (afterSched cfg s e).currentSlot < cfg.nbSlots := by
  show (pokElectPartition cfg s).2.currentSlot < cfg.nbSlots
  rw [pokElectPartition]
  by_cases hpast : s.nextDeadline ≤ s.tickCounter
  · rw [if_pos hpast]
    exact lt_of_le_of_lt (Nat.mod_le _ _) (Nat.mod_lt _ hcfg.nbSlots_pos)
  · rw [if_neg hpast]
    exact h.currentSlot_lt

/-- The starting index of a partition's round robin, in the words of the code. -/
theorem rrStart {q : Nat} (hq : q < cfg.nbPartitions) :
    (((s.partArray q).low ≤ (s.partArray q).currentThread ∧
          (s.partArray q).currentThread ≤ (s.partArray q).high) ∨
        ((s.partArray q).currentThread = cfg.idleThread ∧
          (s.partArray q).low ≤ (s.partArray q).prevThread ∧
          (s.partArray q).prevThread ≤ (s.partArray q).high)) ∧
      (s.partArray q).high < cfg.idleThread ∧ (s.partArray q).high + 1 < 2 ^ 32 := by
  rw [h.layout.owns_iff hq, h.layout.owns_iff hq, h.layout.high q hq]
  exact ⟨h.part q hq, hcfg.high_lt_idle hq, hcfg.high_lt_word hq⟩

/-- The thread elected for a partition is the idle thread, or one of its own: in a start mode the
main thread, in normal mode a runnable one. -/
theorem electOf {q : Nat} (hq : q < cfg.nbPartitions) :
    ∃ e, electOf cfg s q = .ok e ∧
      ((s.partArray q).mode ≠ .normal → e = cfg.threadMain q) ∧
      ((s.partArray q).mode = .normal →
        (cfg.Owns q e ∧ (schedThread cfg s q e).status = .runnable) ∨ e = cfg.idleThread) := by
  rcases h.mode q hq with hmode | hmode
  · refine ⟨cfg.threadMain q, ?_, fun _ => rfl, by simp [hmode]⟩
    simp [PartitionSeL4.electOf, hmode, h.layout.threadMain q hq]
  · obtain ⟨hstart, hidle, hword⟩ := h.rrStart hcfg hq
    obtain ⟨e, he, hspec⟩ := pokSchedPartRr_elects (schedThread cfg s q) hstart hidle hword
    refine ⟨e, ?_, by simp [hmode], fun _ => ?_⟩
    · simp only [PartitionSeL4.electOf, hmode]
      exact he
    · rcases hspec with ⟨hmem, hrun⟩ | hidle
      · exact Or.inl ⟨(h.layout.owns_iff hq).1 hmem, hrun⟩
      · exact Or.inr hidle

theorem afterSched {e : Nat}
    (he : cfg.Owns (electedPartition cfg s) e ∨ e = cfg.idleThread) :
    Ready cfg (afterSched cfg s e) where
  layout := h.layout.afterSched e
  currentPartition_lt := h.electedPartition_lt hcfg
  currentSlot_lt := h.afterSched_currentSlot_lt hcfg e
  mode := by
    intro p hp
    rw [afterSched_partArray]
    split_ifs
    · rw [Partition.elect_mode]
      exact h.mode p hp
    · exact h.mode p hp
  part := by
    intro p hp
    rw [afterSched_partArray]
    split_ifs with hpq
    · subst hpq
      rw [Partition.elect_currentThread]
      rcases he with hown | hidle
      · exact Or.inl hown
      · -- The last thread that was not idle becomes the previous one.
        refine Or.inr ⟨hidle, ?_⟩
        rw [hidle, Partition.elect_prevThread_of_idle]
        rcases h.part _ hp with hin | ⟨hid, hprev⟩
        · rw [if_neg (hcfg.ne_idle_of_owns hp hin)]
          exact hin
        · rw [if_pos hid]
          exact hprev
    · exact h.part p hp
  current := he
  sound := by
    intro p hp i hi
    have hs := schedThread_sound (q := electedPartition cfg s) h hp hi
    rw [afterSched_procArray]
    exact ⟨hs.status, hs.exhausted, hs.budget⟩

/-- **The scheduler returns**, and leaves a state that satisfies the invariant. -/
theorem pokSched : ∃ s', pokSched cfg s = .ok s' ∧ Inv cfg s' := by
  have hq := h.electedPartition_lt hcfg
  obtain ⟨e, he, hstart, hnormal⟩ := h.electOf hcfg hq
  -- In either mode the elected thread is the partition's own or the idle one.
  have hown : cfg.Owns (electedPartition cfg s) e ∨ e = cfg.idleThread := by
    by_cases hmode : (s.partArray (electedPartition cfg s)).mode = .normal
    · rcases hnormal hmode with ⟨hown, _⟩ | hidle
      · exact Or.inl hown
      · exact Or.inr hidle
    · rw [hstart hmode]
      exact Or.inl (hcfg.main_mem _ hq)
  have hmode' : ((PartitionSeL4.afterSched cfg s e).partArray (electedPartition cfg s)).mode =
      (s.partArray (electedPartition cfg s)).mode := by
    rw [afterSched_partArray, if_pos rfl, Partition.elect_mode]
  refine ⟨PartitionSeL4.afterSched cfg s e,
    pokSched_eq_ok_iff.2 ⟨h.layout.nthreads_lt hcfg hq, e, he, rfl⟩,
    h.afterSched hcfg hown, ⟨?_, ?_⟩⟩
  · intro hmode
    rw [afterSched_currentPartition, hmode'] at hmode
    exact Or.inl (hstart hmode)
  · intro hmode
    rw [afterSched_currentPartition, hmode'] at hmode
    simpa using hnormal hmode

/-! ## The idle thread -/

theorem schedThread_idle {q : Nat} (hq : q < cfg.nbPartitions) :
    schedThread cfg s q cfg.idleThread = s.procArray cfg.idleThread := by
  have hrange : ¬((s.partArray q).low ≤ cfg.idleThread ∧
      cfg.idleThread < (s.partArray q).low + (s.partArray q).nthreads) := by
    rw [h.layout.low q hq, h.layout.nthreads q hq, hcfg.owns_iff hq]
    intro hown
    exact hcfg.ne_idle_of_owns hq hown rfl
  have hcharge : ¬((s.partArray q).mode = .normal ∧ Chargeable cfg s ∧
      cfg.idleThread = s.currentThread) := by
    rintro ⟨_, hc, heq⟩
    exact hc.1 heq.symm
  simp only [schedThread, hrange, hcharge, if_false]

/-- An idle thread without budget is elected only if no thread of the partition is runnable. -/
theorem idleLast (hbudget : (s.procArray cfg.idleThread).remainingTimeCapacity = 0) {s' : State}
    (hs : PartitionSeL4.pokSched cfg s = .ok s') : IdleLast cfg s' := by
  have hq := h.electedPartition_lt hcfg
  obtain ⟨_, e, he, rfl⟩ := pokSched_eq_ok_iff.1 hs
  constructor
  · rw [afterSched_remaining, h.schedThread_idle hcfg hq]
    exact hbudget
  · intro hmode hidle i hi
    rw [afterSched_currentPartition, afterSched_partArray, if_pos rfl,
      Partition.elect_mode] at hmode
    rw [afterSched_currentThread] at hidle
    rw [afterSched_status]
    simp only [PartitionSeL4.electOf, hmode, hidle] at he
    obtain ⟨hstart, hlt, hword⟩ := h.rrStart hcfg hq
    obtain ⟨hlow, hhigh⟩ := (h.layout.owns_iff hq).2 hi
    rw [← h.schedThread_idle hcfg hq] at hbudget
    exact pokSchedPartRr_idle hstart hlt hword hbudget he i hlow hhigh

end Ready

end PartitionSeL4
