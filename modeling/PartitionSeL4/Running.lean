import PartitionSeL4.Temporal

/-!
# Only the current thread runs

`pok_sched_context_switch` suspends the thread it leaves and resumes the one it enters, and does
nothing when they are the same. So the kernel runs at most one TCB of the partitions' threads, that
of `current_thread`: `RunsOnlyCurrent`. The switch keeps this by itself; a creation keeps it because
a partition creates threads only in its start mode, when nobody but its main thread or the idle
thread is current, and suspends the new TCB.

A creation that hits the main thread's own index would give the current thread a second, suspended
TCB. With the main thread at the bottom of its range this cannot happen, but `thread_main` is
whatever `main_array` says (`created_over_main`).
-/

namespace PartitionSeL4

open Lib

/-! ## TCB capabilities -/

/-- The TCBs of the partitions' threads are distinct. -/
def Config.TcbsDistinct (cfg : Config) : Prop :=
  ∀ p < cfg.nbPartitions, ∀ q < cfg.nbPartitions, ∀ a < cfg.nthreads p, ∀ b < cfg.nthreads q,
    cfg.getTcbCptrFromPid (p + configPcbOffset) a = cfg.getTcbCptrFromPid (q + configPcbOffset) b →
      p = q ∧ a = b

/-- The number of a partition's thread in its process: the main thread is the first one, the others
are numbered by their index. -/
def Config.tcbIndex (cfg : Config) (p i : Nat) : Nat :=
  if i = cfg.threadMain p then 0 else i - cfg.low p

/-- A thread that has a TCB has its own: the main thread from start-up on, the others, which never
include the bottom of the range, since their creation. -/
structure TcbInv (cfg : Config) (s : State) : Prop where
  idle : (s.procArray cfg.idleThread).ktcb = 0
  owned : ∀ p < cfg.nbPartitions, ∀ i, cfg.Owns p i → (s.procArray i).ktcb ≠ 0 →
    (i = cfg.threadMain p ∨ cfg.low p < i) ∧
      (s.procArray i).ktcb =
        cfg.getTcbCptrFromPid (p + configPcbOffset) (cfg.tcbIndex p i)

/-- The only TCB that runs is that of the current thread, if it has one. -/
def RunsOnlyCurrent (s : State) : Prop :=
  ∀ c, s.tcbRunning c = true ↔ c ≠ 0 ∧ c = (s.procArray s.currentThread).ktcb

/-- The kernel runs thread `i`. -/
def ThreadRunning (s : State) (i : Nat) : Prop :=
  (s.procArray i).ktcb ≠ 0 ∧ s.tcbRunning (s.procArray i).ktcb = true

section Tcbs

variable {cfg : Config} {s : State}

theorem tcbIndex_lt (hcfg : cfg.PartitionsOk) {p i : Nat} (hp : p < cfg.nbPartitions)
    (hi : cfg.Owns p i) : cfg.tcbIndex p i < cfg.nthreads p := by
  have hend := hcfg.low_add_nthreads hp
  have hpos := hcfg.nthreads_pos p hp
  obtain ⟨hl, hh⟩ := hi
  unfold Config.tcbIndex
  split_ifs <;> omega

theorem TcbInv.ktcb_inj (hcfg : cfg.PartitionsOk) (hdist : cfg.TcbsDistinct) (h : TcbInv cfg s)
    {p q i j : Nat} (hp : p < cfg.nbPartitions) (hq : q < cfg.nbPartitions) (hi : cfg.Owns p i)
    (hj : cfg.Owns q j) (hne : (s.procArray i).ktcb ≠ 0)
    (heq : (s.procArray i).ktcb = (s.procArray j).ktcb) : i = j := by
  obtain ⟨hpos, htcb⟩ := h.owned p hp i hi hne
  obtain ⟨hpos', htcb'⟩ := h.owned q hq j hj (by rwa [← heq])
  rw [htcb, htcb'] at heq
  obtain ⟨rfl, hidx⟩ := hdist p hp q hq _ (tcbIndex_lt hcfg hp hi) _ (tcbIndex_lt hcfg hq hj) heq
  unfold Config.tcbIndex at hidx
  split_ifs at hidx <;> omega

theorem createdTcb_eq (hcfg : cfg.PartitionsOk) (h : Inv cfg s) (hc : Creates s)
    (hr : CreatesInRange s) :
    createdTcb cfg s = cfg.getTcbCptrFromPid (s.currentPartition + configPcbOffset)
      (createdId s - cfg.low s.currentPartition) := by
  have hp := h.currentPartition_lt
  obtain ⟨_, hlow, hhigh⟩ := createdId_eq hcfg h.layout hp hc hr
  have hword := hcfg.high_lt_word hp
  rw [createdTcb, h.layout.low _ hp]
  congr 1
  unfold u32
  omega

end Tcbs

/-! ## One event -/

section Step

variable {cfg : Config} {s s' : State}

/-- **The context switch** moves the processor from the old thread to the new one. -/
theorem switchedRunning_iff (h : RunsOnlyCurrent s) (new c : Nat) :
    switchedRunning s s.currentThread new c = true ↔ c ≠ 0 ∧ c = (s.procArray new).ktcb := by
  unfold switchedRunning pokSchedContextSwitch
  by_cases heq : s.currentThread = new
  · rw [if_neg (not_not.2 heq), ← heq]
    exact h c
  · rw [if_pos heq]
    have hc := h c
    by_cases hlast : (s.procArray s.currentThread).ktcb = 0 <;>
      by_cases hnew : (s.procArray new).ktcb = 0
    · simp only [hlast, hnew, ne_eq, not_true_eq_false, if_false] at hc ⊢
      exact hc
    · simp only [hlast, hnew, ne_eq, not_true_eq_false, not_false_eq_true, if_false, if_true,
        State.tcbResume, Function.update_apply] at hc ⊢
      split_ifs with hcn
      · simp [hcn, hnew]
      · rw [hc]
        tauto
    · simp only [hlast, hnew, ne_eq, not_true_eq_false, not_false_eq_true, if_false, if_true,
        State.tcbSuspend, Function.update_apply] at hc ⊢
      split_ifs with hcl
      · simp [hcl, hlast]
      · rw [hc]
        tauto
    · simp only [hlast, hnew, ne_eq, not_false_eq_true, if_true, State.tcbResume,
        State.tcbSuspend, Function.update_apply] at hc ⊢
      split_ifs with hcn hcl
      · simp [hcn, hnew]
      · simp [hcn]
      · rw [hc]
        tauto

/-- The events of the runs considered: a thread is never created over the main thread. -/
def CreatesOther (s : State) (e : Event) : Prop :=
  Allowed s e ∧
    (e = .threadCreate → createdId s ≠ (s.partArray s.currentPartition).threadMain)

instance (s : State) (e : Event) : Decidable (CreatesOther s e) :=
  inferInstanceAs (Decidable (_ ∧ _))

theorem step_tcbInv (hcfg : cfg.PartitionsOk) (h : Inv cfg s) (htcb : TcbInv cfg s) {e : Event}
    (hok : CreatesOther s e) (hs : step cfg s e = .ok s') : TcbInv cfg s' := by
  rcases step_cases hs with ⟨_, hsched⟩ | ⟨_, rfl⟩ | ⟨rfl, hc, rfl⟩
  · obtain ⟨_, new, _, rfl⟩ := pokSched_eq_ok_iff.1 hsched
    have hktcb : ∀ i, ((afterSched cfg (entry cfg s e) new).procArray i).ktcb =
        (s.procArray i).ktcb := by
      intro i
      rw [afterSched_ktcb, h.toReady.entry_ktcb hcfg]
    refine ⟨by rw [hktcb]; exact htcb.idle, fun p hp i hi hne => ?_⟩
    rw [hktcb] at hne ⊢
    exact htcb.owned p hp i hi hne
  · exact htcb
  · have hp := h.currentPartition_lt
    have hown := createdId_owned hcfg h.layout hp hc hok.1
    refine ⟨?_, fun p hp' i hi hne => ?_⟩
    · rw [createState_procArray, if_neg (hcfg.ne_idle_of_owns hp hown).symm]
      exact htcb.idle
    · rw [createState_procArray] at hne ⊢
      split_ifs at hne ⊢ with hid
      · -- The new thread gets the TCB of its own index.
        subst hid
        obtain ⟨_, hlow, _⟩ := createdId_eq hcfg h.layout hp hc hok.1
        have hmain := hok.2 rfl
        rw [h.layout.threadMain _ hp] at hmain
        obtain rfl := hcfg.owns_unique hp' hp hi hown
        refine ⟨Or.inr hlow, ?_⟩
        rw [Config.tcbIndex, if_neg hmain]
        exact createdTcb_eq hcfg h hc hok.1
      · exact htcb.owned p hp' i hi hne

/-- **Every event leaves no TCB running but that of the current thread.** -/
theorem step_runsOnlyCurrent (hcfg : cfg.PartitionsOk) (hdist : cfg.TcbsDistinct)
    (h : Inv cfg s) (htcb : TcbInv cfg s) (hrun : RunsOnlyCurrent s) {e : Event}
    (hok : CreatesOther s e) (hs : step cfg s e = .ok s') : RunsOnlyCurrent s' := by
  rcases step_cases hs with ⟨_, hsched⟩ | ⟨_, rfl⟩ | ⟨rfl, hc, rfl⟩
  · obtain ⟨_, new, _, rfl⟩ := pokSched_eq_ok_iff.1 hsched
    have hktcb := h.toReady.entry_ktcb hcfg e
    have hentry : RunsOnlyCurrent (entry cfg s e) := by
      intro c
      rw [entry_tcbRunning, entry_currentThread, hktcb]
      exact hrun c
    intro c
    rw [afterSched_tcbRunning, afterSched_currentThread, afterSched_ktcb]
    exact switchedRunning_iff hentry new c
  · exact hrun
  · -- The new TCB is not the one that runs.
    have hp := h.currentPartition_lt
    have hown := createdId_owned hcfg h.layout hp hc hok.1
    obtain ⟨_, hlow, hhigh⟩ := createdId_eq hcfg h.layout hp hc hok.1
    have hmain := hok.2 rfl
    rw [h.layout.threadMain _ hp] at hmain
    have hmode : (s.partArray s.currentPartition).mode ≠ .normal := by
      rcases hc.1 with hm | hm <;> simp [hm]
    have hcur : createdId s ≠ s.currentThread := by
      rcases h.elected.start hmode with heq | heq <;> rw [heq]
      · exact hmain
      · exact hcfg.ne_idle_of_owns hp hown
    have hnew : (s.procArray s.currentThread).ktcb ≠ 0 →
        createdTcb cfg s ≠ (s.procArray s.currentThread).ktcb := by
      intro hne heq
      rcases h.elected.start hmode with hthread | hthread
      · have hmem := hcfg.main_mem _ hp
        rw [hthread] at hne heq
        obtain ⟨_, hk⟩ := htcb.owned _ hp _ hmem hne
        have hend := hcfg.low_add_nthreads hp
        rw [hk, createdTcb_eq hcfg h hc hok.1] at heq
        have hidx := (hdist _ hp _ hp _ (by omega) _ (tcbIndex_lt hcfg hp hmem) heq).2
        rw [Config.tcbIndex, if_pos rfl] at hidx
        omega
      · rw [hthread, htcb.idle] at hne
        exact hne rfl
    intro c
    have hkeep : ((createState cfg s).procArray (createState cfg s).currentThread).ktcb =
        (s.procArray s.currentThread).ktcb := by
      rw [createState_currentThread, createState_procArray, if_neg hcur.symm]
    rw [hkeep]
    show Function.update s.tcbRunning (createdTcb cfg s) false c = true ↔ _
    rw [Function.update_apply]
    split_ifs with hcc
    · subst hcc
      simp only [false_iff, not_and]
      intro hne heq
      exact hnew (by rwa [← heq]) heq
    · exact hrun c

end Step

/-! ## Runs -/

theorem Booted.tcbInv {cfg : Config} (hcfg : cfg.PartitionsOk) {s : State} (h : Booted cfg s) :
    TcbInv cfg s := by
  have harr := h.arrayStart hcfg
  refine ⟨harr.otherKtcb _ fun p hp => (hcfg.main_ne_idle hp).symm, fun p hp i hi hne => ?_⟩
  -- After start-up the main threads are the only ones with a TCB.
  have hmain : i = cfg.threadMain p := by
    by_contra hother
    refine hne (harr.otherKtcb i fun q hq heq => ?_)
    rw [heq] at hi
    rw [hcfg.owns_unique hp hq hi (hcfg.main_mem q hq)] at hother
    exact hother heq
  rw [hmain, Config.tcbIndex, if_pos rfl]
  exact ⟨Or.inl rfl, harr.mainKtcb p hp⟩

theorem Booted.runsOnlyCurrent {cfg : Config} (hcfg : cfg.PartitionsOk) {s : State}
    (h : Booted cfg s) : RunsOnlyCurrent s := by
  intro c
  rw [(h.arrayStart hcfg).stopped, h.clockStart.currentThread, (h.tcbInv hcfg).idle]
  simp only [Bool.false_eq_true, false_iff, not_and]
  exact fun hne => hne

/-- The three invariants hold together in every state reached. -/
theorem Reached.runsOnlyCurrent {cfg : Config} (hcfg : cfg.PartitionsOk)
    (hdist : cfg.TcbsDistinct) {evs : List Event} {s : State}
    (h : Reached cfg CreatesOther evs s) : Inv cfg s ∧ TcbInv cfg s ∧ RunsOnlyCurrent s := by
  obtain ⟨s₀, hboot, hrun⟩ := h
  refine hrun.invariant (I := fun s => Inv cfg s ∧ TcbInv cfg s ∧ RunsOnlyCurrent s)
    ⟨hboot.inv hcfg, hboot.tcbInv hcfg, hboot.runsOnlyCurrent hcfg⟩ ?_
  rintro s e s' ⟨hinv, htcb, honly⟩ hok hs
  exact ⟨step_inv hcfg hinv hs, step_tcbInv hcfg hinv htcb hok hs,
    step_runsOnlyCurrent hcfg hdist hinv htcb honly hok hs⟩

/-- **Only the current thread runs.** With distinct TCBs, in every state reached by ticks, requests
and creations (in range, and not over the main thread), the kernel runs partition thread `i` if and
only if it is the current thread and has a TCB. So no thread runs outside its partition's slot. -/
theorem only_current_thread_runs {cfg : Config} (hcfg : cfg.PartitionsOk)
    (hdist : cfg.TcbsDistinct) {evs : List Event} {s : State}
    (h : Reached cfg CreatesOther evs s) {p i : Nat} (hp : p < cfg.nbPartitions)
    (hi : cfg.Owns p i) :
    (ThreadRunning s i ↔ i = s.currentThread ∧ (s.procArray i).ktcb ≠ 0) ∧
      (ThreadRunning s i → p = s.currentPartition ∧
        (cfg.slotsAllocation.getD 0 0 = 0 →
          p = cfg.slotsAllocation.getD s.currentSlot 0)) := by
  obtain ⟨hinv, htcb, honly⟩ := h.runsOnlyCurrent hcfg hdist
  have hiff : ThreadRunning s i ↔ i = s.currentThread ∧ (s.procArray i).ktcb ≠ 0 := by
    constructor
    · rintro ⟨hne, hrun⟩
      obtain ⟨_, heq⟩ := (honly _).1 hrun
      refine ⟨?_, hne⟩
      rcases hinv.current with hown | hidle
      · exact htcb.ktcb_inj hcfg hdist hp hinv.currentPartition_lt hi hown hne heq
      · rw [hidle, htcb.idle] at heq
        exact absurd heq hne
    · rintro ⟨heq, hne⟩
      exact ⟨hne, (honly _).2 ⟨hne, by rw [heq]⟩⟩
  refine ⟨hiff, fun hrun => ?_⟩
  have hpart : p = s.currentPartition := by
    have hcur := (hiff.1 hrun).1
    rcases hinv.current with hown | hidle
    · rw [← hcur] at hown
      exact hcfg.owns_unique hp hinv.currentPartition_lt hi hown
    · exact absurd (hcur.trans hidle) (hcfg.ne_idle_of_owns hp hi)
  exact ⟨hpart, fun hfirst => hpart.trans (h.alloc hfirst)⟩

theorem tcbsDistinct_of_numbered {cfg : Config} (hcfg : cfg.PartitionsOk)
    (h : ∀ pid tid, cfg.getTcbCptrFromPid pid tid = 256 * pid + tid) : cfg.TcbsDistinct := by
  intro p hp q hq a ha b hb heq
  have hpn := hcfg.nthreads_le p hp
  have hqn := hcfg.nthreads_le q hq
  rw [h, h] at heq
  omega

/-- In the deployed configuration a created thread runs once it is elected. -/
theorem only_current_thread_runs_deployed :
    ∃ s, Reached deployment CreatesOther
        [.tick, .threadCreate, .request (.setPartitionMode partModeNormal)] s ∧
      (ThreadRunning s 1 ↔ 1 = s.currentThread ∧ (s.procArray 1).ktcb ≠ 0) := by
  obtain ⟨s, hs, _⟩ : ∃ s, Reached deployment CreatesOther
      [.tick, .threadCreate, .request (.setPartitionMode partModeNormal)] s ∧
        s.currentThread = 1 := by
    apply Reached.exists_of_boot
    decide +kernel
  exact ⟨s, hs, (only_current_thread_runs deployment_partitionsOk
    (tcbsDistinct_of_numbered deployment_partitionsOk fun _ _ => rfl) hs (p := 0) (by decide)
    ⟨by decide, by decide⟩).1⟩

/-- A table in which the first partition's main thread is not the bottom of its range. -/
def mainOnTop : Config := { deployment with mainArray := [1, 2] }

/-- There the first thread created is the main thread again: it gets a second TCB, which is
suspended, while it stays the current thread and is not switched to. -/
theorem created_over_main :
    mainOnTop.PartitionsOk ∧ mainOnTop.TcbsDistinct ∧
      ∃ s, Reached mainOnTop Allowed [.tick, .threadCreate, .tick] s ∧
        ¬(ThreadRunning s 1 ↔ 1 = s.currentThread ∧ (s.procArray 1).ktcb ≠ 0) := by
  have hcfg : mainOnTop.PartitionsOk := ⟨by decide, by decide, by unfold Config.Owns; decide,
    by decide, by decide, by decide, by decide⟩
  refine ⟨hcfg, tcbsDistinct_of_numbered hcfg fun _ _ => rfl, ?_⟩
  obtain ⟨s, hs, hcur, hktcb, hrun⟩ : ∃ s, Reached mainOnTop Allowed
      [.tick, .threadCreate, .tick] s ∧ s.currentThread = 1 ∧ (s.procArray 1).ktcb ≠ 0 ∧
        s.tcbRunning (s.procArray 1).ktcb = false := by
    apply Reached.exists_of_boot
    decide +kernel
  refine ⟨s, hs, fun hiff => ?_⟩
  have hthread := (hiff.2 ⟨hcur.symm, hktcb⟩).2
  rw [hrun] at hthread
  cases hthread

end PartitionSeL4
