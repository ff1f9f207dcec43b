import PartitionSeL4.Step

/-!
# Start-up

What `system_init` leaves behind. `InitLoop` is the invariant of the loop of `partition_init`;
`process_init` then resets every thread's record but keeps its TCB, and `sched_init` sets the slot
counters. The invariant of the scheduler holds in the state left (`Booted.inv`), and hence in every
state reached from it (`Reached.inv`).
-/

namespace PartitionSeL4

open Lib

variable {cfg : Config} {s : State}

/-! ## `partition_init` -/

theorem partitionInitLoop_succ {i k : Nat} {s s' : State}
    (h : partitionInitLoop cfg (i + 1) s = .ok (k, s')) :
    ∃ m t, partitionInitLoop cfg i s = .ok (m, t) ∧
      cfg.getTcbCptrFromPid (i + configPcbOffset) 0 ≠ 0 ∧
      k = u32 ((partitionRecord cfg i m).high + 1) ∧
      s' = (setupMainThreadKtcb cfg (cfg.threadMain i) i (setupMainThread cfg (cfg.threadMain i) i
        (t.updPart i fun _ => partitionRecord cfg i m))).tcbSuspend
          (cfg.getTcbCptrFromPid (i + configPcbOffset) 0) := by
  rw [partitionInitLoop] at h
  obtain ⟨⟨m, t⟩, ht, h⟩ := bind_eq_ok_iff.1 h
  have hktcb : ((setupMainThreadKtcb cfg (cfg.mainArray.getD i 0) i
      (setupMainThread cfg (cfg.mainArray.getD i 0) i
        (t.updPart i fun _ => partitionRecord cfg i m))).procArray (cfg.mainArray.getD i 0)).ktcb =
      cfg.getTcbCptrFromPid (i + configPcbOffset) 0 := by
    simp [setupMainThreadKtcb]
  simp only [hktcb] at h
  by_cases hzero : cfg.getTcbCptrFromPid (i + configPcbOffset) 0 = 0
  · rw [if_pos hzero] at h
    cases h
  · rw [if_neg hzero] at h
    obtain ⟨hk, hs'⟩ := Prod.mk.inj (Except.ok.inj h)
    exact ⟨m, t, ht, hzero, hk.symm, hs'.symm⟩

/-- What the loop of `partition_init` has done after `n` rounds. -/
structure InitLoop (cfg : Config) (n : Nat) (s : State) : Prop where
  partArray : ∀ p < n, s.partArray p = partitionRecord cfg p (cfg.low p)
  mainKtcb : ∀ p < n, (s.procArray (cfg.threadMain p)).ktcb =
    cfg.getTcbCptrFromPid (p + configPcbOffset) 0
  otherKtcb : ∀ i, (∀ p < n, i ≠ cfg.threadMain p) → (s.procArray i).ktcb = 0
  stopped : ∀ c, s.tcbRunning c = false

theorem partitionRecord_high (hcfg : cfg.PartitionsOk) {p : Nat} (hp : p < cfg.nbPartitions) :
    (partitionRecord cfg p (cfg.low p)).high = cfg.high p := by
  have hpos := hcfg.nthreads_pos p hp
  have hword := hcfg.high_lt_word hp
  show u32 (cfg.low p + cfg.nthreads p + (2 ^ 32 - 1)) = cfg.high p
  unfold u32 Config.high at *
  omega

theorem InitLoop.round (hcfg : cfg.PartitionsOk) {n : Nat} {t : State} (h : InitLoop cfg n t)
    (hn : n < cfg.nbPartitions) :
    InitLoop cfg (n + 1) ((setupMainThreadKtcb cfg (cfg.threadMain n) n
      (setupMainThread cfg (cfg.threadMain n) n
        (t.updPart n fun _ => partitionRecord cfg n (cfg.low n)))).tcbSuspend
          (cfg.getTcbCptrFromPid (n + configPcbOffset) 0)) := by
  set t' := (setupMainThreadKtcb cfg (cfg.threadMain n) n
    (setupMainThread cfg (cfg.threadMain n) n
      (t.updPart n fun _ => partitionRecord cfg n (cfg.low n)))).tcbSuspend
        (cfg.getTcbCptrFromPid (n + configPcbOffset) 0) with ht'
  have hktcb : ∀ i, (t'.procArray i).ktcb =
      if i = cfg.threadMain n then cfg.getTcbCptrFromPid (n + configPcbOffset) 0
      else (t.procArray i).ktcb := by
    intro i
    simp only [ht', State.tcbSuspend, setupMainThreadKtcb, setupMainThread, State.tcbResume,
      State.updProc_procArray, State.updPart_procArray]
    split_ifs <;> rfl
  refine ⟨?_, ?_, ?_, ?_⟩
  · intro p hp
    show (t.updPart n fun _ => partitionRecord cfg n (cfg.low n)).partArray p = _
    rw [State.updPart_partArray]
    split_ifs with hpn
    · rw [hpn]
    · exact h.partArray p (by omega)
  · intro p hp
    rw [hktcb]
    split_ifs with hmain
    · -- Two partitions with one main thread are one partition.
      have hown := hcfg.main_mem p (by omega)
      rw [hmain] at hown
      rw [hcfg.owns_unique (by omega) hn hown (hcfg.main_mem n hn)]
    · have hpn : p ≠ n := by
        intro hpn
        exact hmain (by rw [hpn])
      exact h.mainKtcb p (by omega)
  · intro i hi
    rw [hktcb, if_neg (hi n (by omega))]
    exact h.otherKtcb i fun p hp => hi p (by omega)
  · intro c
    show Function.update (Function.update t.tcbRunning _ true) _ false c = false
    rw [Function.update_apply, Function.update_apply]
    split_ifs
    · rfl
    · exact h.stopped c

theorem partitionInitLoop_spec (hcfg : cfg.PartitionsOk) {n k : Nat}
    (h : partitionInitLoop cfg n (State.zero cfg) = .ok (k, s)) (hn : n ≤ cfg.nbPartitions) :
    k = cfg.low n ∧ InitLoop cfg n s := by
  induction n generalizing k s with
  | zero =>
      cases h
      exact ⟨rfl, ⟨by simp, by simp, fun _ _ => rfl, fun _ => rfl⟩⟩
  | succ n ih =>
      obtain ⟨m, t, ht, _, hk, hs⟩ := partitionInitLoop_succ h
      obtain ⟨rfl, hloop⟩ := ih ht (by omega)
      rw [hk, hs]
      refine ⟨?_, hloop.round hcfg (by omega)⟩
      rw [partitionRecord_high hcfg (by omega), hcfg.high_add_one (by omega), u32_of_lt]
      rw [← hcfg.high_add_one (by omega)]
      exact hcfg.high_lt_word (by omega)

theorem partitionInitLoop_frame {n k : Nat} {s t : State}
    (h : partitionInitLoop cfg n s = .ok (k, t)) :
    t.tickCounter = s.tickCounter ∧ t.currentThread = s.currentThread := by
  induction n generalizing k t with
  | zero =>
      cases h
      exact ⟨rfl, rfl⟩
  | succ n ih =>
      obtain ⟨m, u, hu, _, _, hs⟩ := partitionInitLoop_succ h
      obtain ⟨htick, hthread⟩ := ih hu
      rw [hs]
      exact ⟨htick, hthread⟩

/-! ## `system_init` -/

theorem systemInit_eq_ok {s₀ : State} (h : systemInit cfg = .ok s₀) :
    ∃ k s, partitionInitLoop cfg cfg.nbPartitions (State.zero cfg) = .ok (k, s) ∧
      cfg.nbSlots < 2 ^ 8 ∧ totalTime cfg.slots = cfg.majorFrame ∧
      s₀ = { processInit cfg s with
        currentSlot := 0
        nextMajorFrame := cfg.majorFrame
        nextDeadline := cfg.slots.getD 0 0
        currentPartition := cfg.slotsAllocation.getD 0 0 } := by
  obtain ⟨s, hpart, hsched⟩ := bind_eq_ok_iff.1 h
  obtain ⟨⟨k, t⟩, hloop, hret⟩ := bind_eq_ok_iff.1 hpart
  cases hret
  rw [schedInit] at hsched
  split_ifs at hsched with hslots htotal
  cases hsched
  exact ⟨k, s, hloop, by omega, not_not.1 htotal, rfl⟩

/-- What `system_init` leaves, for the scheduler's clock. -/
structure ClockStart (cfg : Config) (s : State) : Prop where
  nbSlots_lt : cfg.nbSlots < 2 ^ 8
  total : totalTime cfg.slots = cfg.majorFrame
  currentThread : s.currentThread = cfg.idleThread
  tickCounter : s.tickCounter = 0
  currentSlot : s.currentSlot = 0
  nextMajorFrame : s.nextMajorFrame = cfg.majorFrame
  nextDeadline : s.nextDeadline = cfg.slots.getD 0 0
  currentPartition : s.currentPartition = 0 ∨
    s.currentPartition = cfg.slotsAllocation.getD 0 0

theorem Booted.clockStart (h : Booted cfg s) : ClockStart cfg s := by
  obtain ⟨s₀, hinit, hs⟩ := h
  obtain ⟨k, t, hloop, hslots, htotal, rfl⟩ := systemInit_eq_ok hinit
  obtain ⟨htick, hthread⟩ := partitionInitLoop_frame hloop
  rcases hs with rfl | rfl <;>
    simp only [processInit, State.forThreads_eq, schedulerThreadStart]
  · exact ⟨hslots, htotal, hthread, htick, rfl, rfl, rfl, Or.inr rfl⟩
  · exact ⟨hslots, htotal, hthread, htick, rfl, rfl, rfl, Or.inl rfl⟩

/-- What `system_init` leaves in the two arrays. -/
structure ArrayStart (cfg : Config) (s : State) : Prop where
  partArray : ∀ p < cfg.nbPartitions, s.partArray p = partitionRecord cfg p (cfg.low p)
  procArray : ∀ i < cfg.nbThreads, ∃ t : Process, s.procArray i = t.reset cfg i
  mainKtcb : ∀ p < cfg.nbPartitions, (s.procArray (cfg.threadMain p)).ktcb =
    cfg.getTcbCptrFromPid (p + configPcbOffset) 0
  otherKtcb : ∀ i, (∀ p < cfg.nbPartitions, i ≠ cfg.threadMain p) → (s.procArray i).ktcb = 0
  stopped : ∀ c, s.tcbRunning c = false
  idleBudget : (s.procArray cfg.idleThread).remainingTimeCapacity = 0

theorem Booted.arrayStart (hcfg : cfg.PartitionsOk) (h : Booted cfg s) : ArrayStart cfg s := by
  obtain ⟨s₀, hinit, hs⟩ := h
  obtain ⟨k, t, hloop, _, _, rfl⟩ := systemInit_eq_ok hinit
  obtain ⟨_, hspec⟩ := partitionInitLoop_spec hcfg hloop le_rfl
  have hparts : s.partArray = t.partArray ∧ s.tcbRunning = t.tcbRunning ∧
      s.procArray = (processInit cfg t).procArray := by
    rcases hs with rfl | rfl <;>
      simp only [processInit, State.forThreads_eq, schedulerThreadStart, and_true] <;>
      exact ⟨rfl, rfl⟩
  obtain ⟨hpart, hrun, hproc⟩ := hparts
  have hreset : ∀ i < cfg.nbThreads, s.procArray i = (t.procArray i).reset cfg i := by
    intro i hi
    have hidle : i ≠ cfg.idleThread := by
      unfold Config.idleThread
      omega
    have hkernel : i ≠ cfg.kernelThread := by
      unfold Config.kernelThread
      omega
    rw [hproc, processInit, State.forThreads_eq]
    simp [hi, initKernelThread, initIdleThread, State.updProc_procArray, hidle, hkernel]
  refine ⟨?_, ?_, ?_, ?_, ?_, ?_⟩
  · intro p hp
    rw [hpart]
    exact hspec.partArray p hp
  · intro i hi
    exact ⟨_, hreset i hi⟩
  · intro p hp
    have hlt := hcfg.high_lt_idle hp
    have hmain := (hcfg.main_mem p hp).2
    unfold Config.idleThread at hlt
    rw [hreset _ (by omega)]
    exact hspec.mainKtcb p hp
  · intro i hi
    have hzero := hspec.otherKtcb i hi
    rw [hproc, processInit, State.forThreads_eq]
    simp only [initKernelThread, initIdleThread, State.updProc_procArray]
    split_ifs <;> simp [Process.reset, hzero]
  · intro c
    rw [hrun]
    exact hspec.stopped c
  · rw [hproc, processInit, State.forThreads_eq]
    have hne : cfg.idleThread ≠ cfg.kernelThread := by
      simp [Config.idleThread, Config.kernelThread]
    have hidle : ¬cfg.idleThread < cfg.nbThreads := by simp [Config.idleThread]
    simp [initKernelThread, initIdleThread, State.updProc_procArray, hne, hidle]

/-! ## The invariant -/

theorem Process.reset_sound (t : Process) (i : Nat) : (t.reset cfg i).Sound :=
  ⟨Or.inl rfl, fun h => (by cases h), le_rfl⟩

theorem Config.PartitionsOk.lt_nbThreads (hcfg : cfg.PartitionsOk) {p i : Nat}
    (hp : p < cfg.nbPartitions) (hi : cfg.Owns p i) : i < cfg.nbThreads :=
  Nat.lt_of_le_of_lt hi.2 (hcfg.high_lt_idle hp)

/-- **The invariant holds after start-up.** -/
theorem Booted.inv (hcfg : cfg.PartitionsOk) (h : Booted cfg s) : Inv cfg s := by
  have hclock := h.clockStart
  have harr := h.arrayStart hcfg
  have hp : s.currentPartition < cfg.nbPartitions := by
    rcases hclock.currentPartition with hp | hp <;> rw [hp]
    · exact hcfg.nbPartitions_pos
    · exact hcfg.slots_lt 0 hcfg.nbSlots_pos
  have hidle := hclock.currentThread
  refine ⟨⟨⟨?_, ?_, ?_, ?_⟩, hp, ?_, ?_, ?_, Or.inr hidle, ?_⟩,
    ⟨fun _ => Or.inr hidle, fun _ => Or.inr hidle⟩⟩
  · intro p hp
    rw [harr.partArray p hp]
    rfl
  · intro p hp
    rw [harr.partArray p hp]
    exact partitionRecord_high hcfg hp
  · intro p hp
    rw [harr.partArray p hp]
    rfl
  · intro p hp
    rw [harr.partArray p hp]
    rfl
  · rw [hclock.currentSlot]
    exact hcfg.nbSlots_pos
  · intro p hp
    rw [harr.partArray p hp]
    exact Or.inl rfl
  · intro p hp
    rw [harr.partArray p hp]
    exact Or.inl (hcfg.main_mem p hp)
  · intro p hp i hi
    obtain ⟨t, ht⟩ := harr.procArray i (hcfg.lt_nbThreads hp hi)
    rw [ht]
    exact t.reset_sound i

theorem Booted.idleLast (hcfg : cfg.PartitionsOk) (h : Booted cfg s) : IdleLast cfg s := by
  have harr := h.arrayStart hcfg
  have hp := (h.inv hcfg).currentPartition_lt
  refine ⟨harr.idleBudget, fun hnormal => ?_⟩
  rw [harr.partArray _ hp] at hnormal
  cases hnormal

/-- **The invariant holds in every state reached**, by whatever events. -/
theorem Reached.inv (hcfg : cfg.PartitionsOk) {ok : State → Event → Prop} {evs : List Event}
    (h : Reached cfg ok evs s) : Inv cfg s := by
  obtain ⟨s₀, hboot, hrun⟩ := h
  exact hrun.invariant (I := Inv cfg) (hboot.inv hcfg) fun _ _ _ hinv _ hs =>
    step_inv hcfg hinv hs

/-- In runs in which threads are created with ids of their partition only, the idle thread is the
last choice. -/
theorem Reached.idleLast (hcfg : cfg.PartitionsOk) {evs : List Event}
    (h : Reached cfg Allowed evs s) : IdleLast cfg s := by
  obtain ⟨s₀, hboot, hrun⟩ := h
  refine (hrun.invariant (I := fun s => Inv cfg s ∧ IdleLast cfg s)
    ⟨hboot.inv hcfg, hboot.idleLast hcfg⟩ ?_).2
  rintro s e s' ⟨hinv, hlast⟩ hok hs
  exact ⟨step_inv hcfg hinv hs, step_idleLast hcfg hinv hlast hok hs⟩

end PartitionSeL4
