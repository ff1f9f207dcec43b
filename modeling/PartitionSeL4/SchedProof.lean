import PartitionSeL4.Server

/-!
# What one call of the scheduler does

Everything `pok_sched` can do, said once: `pokSched_eq_ok_iff`. A call that returns has elected the
partition `electedPartition` by the clock and a thread `e` of it (`electOf`), and leaves
`afterSched cfg s e`. In that state a thread's record is the old one run through the activation
loop and the budget accounting (`schedThread`), apart from the end time of the elected thread.

The proofs about runs use these equations and never unfold the scheduler again. The second half
is the specification of the round robin (`pokSchedPartRr_spec`).
-/

namespace PartitionSeL4

open Lib

/-! ## Electing a partition -/

/-- The partition that `pok_elect_partition` returns. -/
def electedPartition (cfg : Config) (s : State) : Nat := (pokElectPartition cfg s).1

theorem pokElectPartition_of_lt {cfg : Config} {s : State} (h : s.tickCounter < s.nextDeadline) :
    pokElectPartition cfg s = (s.currentPartition, s) := by
  rw [pokElectPartition, if_neg (by omega)]

theorem electedPartition_of_lt {cfg : Config} {s : State} (h : s.tickCounter < s.nextDeadline) :
    electedPartition cfg s = s.currentPartition := by
  rw [electedPartition, pokElectPartition_of_lt h]

/-- At a deadline the next slot's partition is elected. -/
theorem electedPartition_of_le {cfg : Config} {s : State} (h : s.nextDeadline ≤ s.tickCounter) :
    electedPartition cfg s =
      cfg.slotsAllocation.getD (u8 ((s.currentSlot + 1) % cfg.nbSlots)) 0 := by
  rw [electedPartition, pokElectPartition, if_pos h]

theorem pokElectPartition_snd (cfg : Config) (s : State) :
    (pokElectPartition cfg s).2 = { s with
      nextMajorFrame := (pokElectPartition cfg s).2.nextMajorFrame
      currentSlot := (pokElectPartition cfg s).2.currentSlot
      nextDeadline := (pokElectPartition cfg s).2.nextDeadline } := by
  simp only [pokElectPartition]
  split_ifs <;> rfl

/-! ## Electing a thread -/

/-- The current thread is one whose budget is charged. -/
def Chargeable (cfg : Config) (s : State) : Prop :=
  s.currentThread ≠ cfg.idleThread ∧
    s.currentThread ≠ (s.partArray s.currentPartition).threadMain

instance (cfg : Config) (s : State) : Decidable (Chargeable cfg s) :=
  inferInstanceAs (Decidable (_ ∧ _))

/-- A thread's record after an election for partition `q`, its end time apart. -/
def schedThread (cfg : Config) (s : State) (q j : Nat) : Process :=
  let part := s.partArray q
  let thread :=
    if part.low ≤ j ∧ j < part.low + part.nthreads then
      (s.procArray j).activate s.tickCounter
    else s.procArray j
  if part.mode = .normal ∧ Chargeable cfg s ∧ j = s.currentThread then thread.charge else thread

/-- The thread elected for partition `q`. -/
def electOf (cfg : Config) (s : State) (q : Nat) : Except Failure Nat :=
  let part := s.partArray q
  match part.mode with
  | .warmStart | .coldStart => .ok part.threadMain
  | .normal => pokSchedPartRr cfg (schedThread cfg s q) part.low part.high part.prevThread
      part.currentThread
  | _ => .ok cfg.idleThread

/-- The end time that `pok_elect_thread` notes for the thread elected. -/
def Process.noteEnd (now : Nat) (p : Process) : Process :=
  { p with endTime := u64 (now + p.remainingTimeCapacity) }

/-- `proc_array` after an election for partition `q` that elects thread `e`. -/
def schedProcs (cfg : Config) (s : State) (q e : Nat) : Nat → Process :=
  Function.update (schedThread cfg s q) e ((schedThread cfg s q e).noteEnd s.tickCounter)

theorem activateThreads_of_not_normal (cfg : Config) {s : State} {q : Nat}
    (hmode : (s.partArray q).mode ≠ .normal) :
    activateThreads s.tickCounter (s.partArray q) s =
      { s with procArray := schedThread cfg s q } := by
  rw [activateThreads, State.forThreads_eq]
  congr 1
  funext j
  simp [schedThread, hmode]

theorem chargeCurrent_of_normal {cfg : Config} {s : State} {q : Nat}
    (hmode : (s.partArray q).mode = .normal) :
    chargeCurrent cfg (activateThreads s.tickCounter (s.partArray q) s) =
      { s with procArray := schedThread cfg s q } := by
  rw [activateThreads, State.forThreads_eq]
  by_cases hc : Chargeable cfg s
  · rw [chargeCurrent, if_pos (by exact hc), State.updProc]
    congr 1
    funext j
    by_cases hj : j = s.currentThread
    · subst hj
      simp [schedThread, hmode, hc]
    · simp [schedThread, hj]
  · rw [chargeCurrent, if_neg (by exact hc)]
    congr 1
    funext j
    simp [schedThread, hc]

theorem pokElectThread_eq (cfg : Config) (s : State) (q : Nat)
    (hn : (s.partArray q).nthreads < 2 ^ 8) :
    pokElectThread cfg s q = (electOf cfg s q).map fun e =>
      (e, { s with procArray := schedProcs cfg s q e }) := by
  simp only [pokElectThread, electOf]
  rw [if_neg (by omega)]
  cases hmode : (s.partArray q).mode with
  | warmStart | coldStart | idle | restart | stopped =>
      rw [activateThreads_of_not_normal cfg (by simp [hmode])]
      simp only [electByMode, hmode]
      rfl
  | normal =>
      simp only [electByMode, hmode]
      rw [chargeCurrent_of_normal hmode]
      cases pokSchedPartRr cfg (schedThread cfg s q) (s.partArray q).low (s.partArray q).high
        (s.partArray q).prevThread (s.partArray q).currentThread <;> rfl

/-! ## The whole call -/

/-- The running bits after a switch from thread `last` to thread `new`. -/
def switchedRunning (s : State) (last new : Nat) : Nat → Bool :=
  (pokSchedContextSwitch s last new).tcbRunning

/-- The state in which a call of `pok_sched` that elects thread `e` leaves the scheduler. -/
def afterSched (cfg : Config) (s : State) (e : Nat) : State :=
  let q := electedPartition cfg s
  let counters := (pokElectPartition cfg s).2
  { procArray := schedProcs cfg s q e
    partArray := Function.update s.partArray q ((s.partArray q).elect cfg e)
    currentPartition := q
    currentThread := e
    tickCounter := s.tickCounter
    nextDeadline := counters.nextDeadline
    nextMajorFrame := counters.nextMajorFrame
    currentSlot := counters.currentSlot
    tcbRunning := switchedRunning s s.currentThread e }

theorem Process.activate_ktcb (now : Nat) (p : Process) : (p.activate now).ktcb = p.ktcb := by
  unfold Process.activate Process.replenish Process.wakeUp
  split_ifs <;> rfl

theorem Process.charge_ktcb (p : Process) : p.charge.ktcb = p.ktcb := by
  unfold Process.charge
  split_ifs <;> rfl

@[simp] theorem schedThread_ktcb (cfg : Config) (s : State) (q j : Nat) :
    (schedThread cfg s q j).ktcb = (s.procArray j).ktcb := by
  simp only [schedThread]
  split_ifs <;> simp [Process.activate_ktcb, Process.charge_ktcb]

theorem pokSchedContextSwitch_eq {s t : State} (last new : Nat)
    (hktcb : ∀ j, (t.procArray j).ktcb = (s.procArray j).ktcb)
    (hrun : t.tcbRunning = s.tcbRunning) :
    pokSchedContextSwitch t last new =
      { t with tcbRunning := switchedRunning s last new } := by
  unfold switchedRunning pokSchedContextSwitch State.tcbSuspend State.tcbResume
  by_cases hne : last = new
  · ext <;> simp [hne, hrun]
  · by_cases hl : (s.procArray last).ktcb = 0 <;> by_cases hw : (s.procArray new).ktcb = 0 <;>
      ext <;> simp [hne, hl, hw, hrun, hktcb]

/-- Everything a call of `pok_sched` that returns has done. -/
theorem pokSched_eq_ok_iff {cfg : Config} {s s' : State} :
    pokSched cfg s = .ok s' ↔
      (s.partArray (electedPartition cfg s)).nthreads < 2 ^ 8 ∧
        ∃ e, electOf cfg s (electedPartition cfg s) = .ok e ∧ s' = afterSched cfg s e := by
  have hsnd := pokElectPartition_snd cfg s
  simp only [pokSched]
  rw [show (pokElectPartition cfg s).1 = electedPartition cfg s from rfl]
  by_cases hn : (s.partArray (electedPartition cfg s)).nthreads < 2 ^ 8
  · have helect : pokElectThread cfg (pokElectPartition cfg s).2 (electedPartition cfg s) =
        (electOf cfg s (electedPartition cfg s)).map fun e =>
          (e, { (pokElectPartition cfg s).2 with
            procArray := schedProcs cfg s (electedPartition cfg s) e }) := by
      rw [hsnd]
      exact pokElectThread_eq cfg _ _ hn
    rw [helect]
    cases electOf cfg s (electedPartition cfg s) with
    | error f => simp [Except.map, bind, Except.bind]
    | ok e =>
        simp only [Except.map, bind, Except.bind, pure, Except.pure, Except.ok.injEq,
          exists_eq_left', hn, true_and]
        rw [pokSchedContextSwitch_eq (s := s), hsnd]
        · exact eq_comm
        · intro j
          simp only [State.updPart_procArray, schedProcs, Function.update_apply]
          split_ifs with hj
          · subst hj
            simp [Process.noteEnd]
          · simp
        · rw [hsnd]
          rfl
  · -- The activation loop does not end.
    have hhang : pokElectThread cfg (pokElectPartition cfg s).2 (electedPartition cfg s) =
        .error .hang := by
      rw [hsnd, pokElectThread]
      exact if_pos (Nat.le_of_not_lt hn)
    rw [hhang]
    constructor
    · intro h
      cases h
    · intro h
      exact absurd h.1 hn

/-! ## Reading the new state -/

section AfterSched

variable (cfg : Config) (s : State) (e j : Nat)

@[simp] theorem afterSched_currentThread : (afterSched cfg s e).currentThread = e := rfl
@[simp] theorem afterSched_currentPartition :
    (afterSched cfg s e).currentPartition = electedPartition cfg s := rfl
@[simp] theorem afterSched_tickCounter :
    (afterSched cfg s e).tickCounter = s.tickCounter := rfl
@[simp] theorem afterSched_tcbRunning :
    (afterSched cfg s e).tcbRunning = switchedRunning s s.currentThread e := rfl

theorem afterSched_partArray (p : Nat) :
    (afterSched cfg s e).partArray p =
      if p = electedPartition cfg s then (s.partArray p).elect cfg e else s.partArray p := by
  simp only [afterSched, Function.update_apply]
  split_ifs with hp
  · rw [hp]
  · rfl

theorem afterSched_procArray :
    (afterSched cfg s e).procArray j =
      { schedThread cfg s (electedPartition cfg s) j with
        endTime := ((afterSched cfg s e).procArray j).endTime } := by
  simp only [afterSched, schedProcs, Function.update_apply]
  split_ifs with hj
  · subst hj
    rfl
  · rfl

@[simp] theorem afterSched_status : ((afterSched cfg s e).procArray j).status =
    (schedThread cfg s (electedPartition cfg s) j).status := by
  rw [afterSched_procArray]
@[simp] theorem afterSched_remaining :
    ((afterSched cfg s e).procArray j).remainingTimeCapacity =
      (schedThread cfg s (electedPartition cfg s) j).remainingTimeCapacity := by
  rw [afterSched_procArray]
@[simp] theorem afterSched_ktcb :
    ((afterSched cfg s e).procArray j).ktcb = (s.procArray j).ktcb := by
  rw [afterSched_procArray]
  simp

end AfterSched

section Elect

variable (cfg : Config) (e : Nat) (part : Partition)

@[simp] theorem Partition.elect_low : (part.elect cfg e).low = part.low := by
  unfold Partition.elect
  split_ifs <;> rfl
@[simp] theorem Partition.elect_high : (part.elect cfg e).high = part.high := by
  unfold Partition.elect
  split_ifs <;> rfl
@[simp] theorem Partition.elect_nthreads : (part.elect cfg e).nthreads = part.nthreads := by
  unfold Partition.elect
  split_ifs <;> rfl
@[simp] theorem Partition.elect_mode : (part.elect cfg e).mode = part.mode := by
  unfold Partition.elect
  split_ifs <;> rfl
@[simp] theorem Partition.elect_threadMain : (part.elect cfg e).threadMain = part.threadMain := by
  unfold Partition.elect
  split_ifs <;> rfl
@[simp] theorem Partition.elect_currentThread : (part.elect cfg e).currentThread = e := by
  unfold Partition.elect
  by_cases h : part.currentThread = e <;> simp [h]

/-- When the idle thread is elected, the previous thread is the last one that was not idle. -/
theorem Partition.elect_prevThread_of_idle :
    (part.elect cfg cfg.idleThread).prevThread =
      if part.currentThread = cfg.idleThread then part.prevThread else part.currentThread := by
  unfold Partition.elect
  by_cases h : part.currentThread = cfg.idleThread <;> simp [h]

end Elect

/-! ## Round robin -/

theorem rrNext_eq {low high i : Nat} (hi : i ≤ high) (hhigh : high + 1 < 2 ^ 32) :
    rrNext low high i = cycSucc low high i := by
  rw [rrNext, cycSucc, u32_of_lt (by omega)]

theorem iterate_rrNext {low high i : Nat} (hl : low ≤ i) (hi : i ≤ high)
    (hhigh : high + 1 < 2 ^ 32) (k : Nat) :
    (rrNext low high)^[k] i = (cycSucc low high)^[k] i := by
  induction k with
  | zero => rfl
  | succ k ih =>
      rw [Function.iterate_succ_apply', Function.iterate_succ_apply', ih]
      exact rrNext_eq (iterate_cycSucc_mem hl hi k).2 hhigh

/-- What `pok_sched_part_rr` returns when its starting index lies in the range: the current thread
while it is runnable and has budget left; otherwise the first runnable thread in cyclic order after
the starting index; and the idle thread when no thread of the range is runnable. -/
theorem pokSchedPartRr_spec {cfg : Config} (procs : Nat → Process) {low high prev cur start : Nat}
    (hstart : start = if cur = cfg.idleThread then prev else cur)
    (hl : low ≤ start) (hh : start ≤ high) (hhigh : high + 1 < 2 ^ 32) :
    ∃ r, pokSchedPartRr cfg procs low high prev cur = .ok r ∧
      ((r = cur ∧ 0 < (procs cur).remainingTimeCapacity ∧ (procs cur).status = .runnable) ∨
        (∃ k < high + 1 - low, r = (cycSucc low high)^[k + 1] start ∧
          (procs r).status = .runnable ∧
          ∀ j < k, (procs ((cycSucc low high)^[j + 1] start)).status ≠ .runnable) ∨
        (r = cfg.idleThread ∧ ∀ i, low ≤ i → i ≤ high → (procs i).status ≠ .runnable)) := by
  simp only [pokSchedPartRr, ← hstart]
  by_cases hcur : 0 < (procs cur).remainingTimeCapacity ∧ (procs cur).status = .runnable
  · rw [if_pos hcur]
    exact ⟨cur, rfl, Or.inl ⟨rfl, hcur⟩⟩
  rw [if_neg hcur]
  -- One lap of the loop is enough: its last round is back at the starting index.
  have hlap := iterate_cycSucc_lap hl hh
  have hends : ∃ res, doUntil (rrNext low high)
      (fun res => decide (res = start ∨ (procs res).status = .runnable)) (high + 2) start =
        some res := by
    apply exists_doUntil_eq_some (k := high - low)
    · omega
    · rw [iterate_rrNext hl hh hhigh, show high - low + 1 = high + 1 - low by omega, hlap]
      simp
  obtain ⟨res, hres⟩ := hends
  rw [hres]
  obtain ⟨k, hk, rfl, hstop, hfirst⟩ := doUntil_eq_some_iff.1 hres
  simp only [iterate_rrNext hl hh hhigh, decide_eq_true_eq, decide_eq_false_iff_not,
    not_or] at hstop hfirst ⊢
  have hklap : k < high + 1 - low := by
    by_contra hge
    have := (hfirst (high - low) (by omega)).1
    rw [show high - low + 1 = high + 1 - low by omega, hlap] at this
    exact this rfl
  by_cases hrun : (procs ((cycSucc low high)^[k + 1] start)).status = .runnable
  · refine ⟨_, rfl, Or.inr (Or.inl ?_)⟩
    rw [if_neg fun h => h.2 hrun]
    exact ⟨k, hklap, rfl, hrun, fun j hj => (hfirst j hj).2⟩
  · -- The loop came back to its start without meeting a runnable thread.
    have hback : (cycSucc low high)^[k + 1] start = start := hstop.resolve_right hrun
    refine ⟨_, rfl, Or.inr (Or.inr ?_)⟩
    rw [if_pos ⟨hback, hrun⟩]
    refine ⟨rfl, fun i hi hi' => ?_⟩
    obtain ⟨j, hj, rfl⟩ := exists_iterate_cycSucc hl hh hi hi'
    by_cases hjk : j < k
    · exact (hfirst j hjk).2
    · -- A lap ends only after `high + 1 - low` rounds, so `k` was its last round.
      have hkeq : k = high - low := by
        by_contra hne
        have hlt : k + 1 < high + 1 - low := by omega
        rw [iterate_cycSucc hl hh] at hback
        have hmod : (start - low + (k + 1)) % (high + 1 - low) = start - low := by omega
        by_cases hwrap : start - low + (k + 1) < high + 1 - low
        · rw [Nat.mod_eq_of_lt hwrap] at hmod
          omega
        · rw [Nat.mod_eq_sub_mod (by omega), Nat.mod_eq_of_lt (by omega)] at hmod
          omega
      have hje : j = k := by omega
      rw [hje]
      exact hrun

theorem rrStart_mem {cfg : Config} {low high prev cur : Nat}
    (hcur : (low ≤ cur ∧ cur ≤ high) ∨ (cur = cfg.idleThread ∧ low ≤ prev ∧ prev ≤ high))
    (hidle : high < cfg.idleThread) :
    ∃ start, (start = if cur = cfg.idleThread then prev else cur) ∧
      low ≤ start ∧ start ≤ high := by
  rcases hcur with ⟨hl, hh⟩ | ⟨rfl, hl, hh⟩
  · exact ⟨cur, by rw [if_neg (by omega)], hl, hh⟩
  · exact ⟨prev, by rw [if_pos rfl], hl, hh⟩

theorem pokSchedPartRr_elects {cfg : Config} (procs : Nat → Process) {low high prev cur : Nat}
    (hcur : (low ≤ cur ∧ cur ≤ high) ∨ (cur = cfg.idleThread ∧ low ≤ prev ∧ prev ≤ high))
    (hidle : high < cfg.idleThread) (hhigh : high + 1 < 2 ^ 32) :
    ∃ r, pokSchedPartRr cfg procs low high prev cur = .ok r ∧
      (((low ≤ r ∧ r ≤ high) ∧ (procs r).status = .runnable) ∨ r = cfg.idleThread) := by
  obtain ⟨start, hdef, hl, hh⟩ := rrStart_mem hcur hidle
  obtain ⟨r, hr, hspec⟩ := pokSchedPartRr_spec procs hdef hl hh hhigh
  refine ⟨r, hr, ?_⟩
  rcases hspec with ⟨rfl, _, hrun⟩ | ⟨k, _, rfl, hrun, _⟩ | ⟨hnone, _⟩
  · rcases hcur with hmem | ⟨hid, _⟩
    · exact Or.inl ⟨hmem, hrun⟩
    · exact Or.inr hid
  · exact Or.inl ⟨iterate_cycSucc_mem hl hh (k + 1), hrun⟩
  · exact Or.inr hnone

/-- The idle thread is elected without budget only if no thread of the range is runnable. -/
theorem pokSchedPartRr_idle {cfg : Config} {procs : Nat → Process} {low high prev cur : Nat}
    (hcur : (low ≤ cur ∧ cur ≤ high) ∨ (cur = cfg.idleThread ∧ low ≤ prev ∧ prev ≤ high))
    (hidle : high < cfg.idleThread) (hhigh : high + 1 < 2 ^ 32)
    (hbudget : (procs cfg.idleThread).remainingTimeCapacity = 0)
    (h : pokSchedPartRr cfg procs low high prev cur = .ok cfg.idleThread) (i : Nat)
    (hlow : low ≤ i) (hi : i ≤ high) : (procs i).status ≠ .runnable := by
  obtain ⟨start, hdef, hl, hh⟩ := rrStart_mem hcur hidle
  obtain ⟨r, hr, hspec⟩ := pokSchedPartRr_spec procs hdef hl hh hhigh
  rw [h] at hr
  cases hr
  rcases hspec with ⟨rfl, hpos, _⟩ | ⟨k, _, hmem, _⟩ | ⟨_, hnone⟩
  · omega
  · have hle := (iterate_cycSucc_mem hl hh (k + 1)).2
    omega
  · exact hnone i hlow hi

/-- The election that a round robin over `[low, high]` from `start` promises: `cur` keeps the
processor while it is runnable with budget left, otherwise the first runnable thread strictly after
`start` gets it (`start` comes last), and the idle thread exactly when no thread is runnable. -/
structure RoundRobinElects (cfg : Config) (procs : Nat → Process) (low high start cur r : Nat) :
    Prop where
  keeps : (procs cur).status = .runnable → 0 < (procs cur).remainingTimeCapacity → r = cur
  first : ¬ ((procs cur).status = .runnable ∧ 0 < (procs cur).remainingTimeCapacity) →
    (∃ i, low ≤ i ∧ i ≤ high ∧ (procs i).status = .runnable) →
    ∃ k < high + 1 - low, r = (cycSucc low high)^[k + 1] start ∧
      (procs r).status = .runnable ∧
      ∀ j < k, (procs ((cycSucc low high)^[j + 1] start)).status ≠ .runnable
  idle : r = cfg.idleThread ↔ ∀ i, low ≤ i → i ≤ high → (procs i).status ≠ .runnable

/-- **The round robin elects as promised**, for every range that does not hold the idle thread. -/
theorem pokSchedPartRr_roundRobin (cfg : Config) (procs : Nat → Process)
    (low high prev cur : Nat) (hhigh : high + 1 < 2 ^ 32)
    (hl : low ≤ if cur = cfg.idleThread then prev else cur)
    (hh : (if cur = cfg.idleThread then prev else cur) ≤ high)
    (hbudget : (procs cfg.idleThread).remainingTimeCapacity = 0)
    (hidle : ¬ (low ≤ cfg.idleThread ∧ cfg.idleThread ≤ high)) :
    ∃ r, pokSchedPartRr cfg procs low high prev cur = .ok r ∧
      RoundRobinElects cfg procs low high (if cur = cfg.idleThread then prev else cur) cur r := by
  obtain ⟨r, hr, hspec⟩ := pokSchedPartRr_spec procs rfl hl hh hhigh
  refine ⟨r, hr, ?_⟩
  rcases hspec with ⟨rfl, hpos, hrun⟩ | ⟨k, hk, hrk, hrun, hfirst⟩ | ⟨hri, hnone⟩
  · -- A current thread that keeps the processor is not idle, so it lies in the range.
    have hne : r ≠ cfg.idleThread := by
      intro h
      rw [h] at hpos
      omega
    rw [if_neg hne] at hl hh
    refine ⟨fun _ _ => rfl, fun hnot _ => absurd ⟨hrun, hpos⟩ hnot, fun h => absurd h hne,
      fun hall => absurd hrun (hall r hl hh)⟩
  · have hmem : low ≤ r ∧ r ≤ high := by
      rw [hrk]
      exact iterate_cycSucc_mem hl hh (k + 1)
    refine ⟨fun hcur hpos => ?_, fun _ _ => ⟨k, hk, hrk, hrun, hfirst⟩, fun h => ?_,
      fun hall => absurd hrun (hall r hmem.1 hmem.2)⟩
    · -- The loop is not entered when the current thread may go on.
      rw [pokSchedPartRr, if_pos ⟨hpos, hcur⟩, Except.ok.injEq] at hr
      exact hr.symm
    · rw [h] at hmem
      exact absurd hmem hidle
  · refine ⟨fun hcur hpos => ?_, fun _ ⟨i, hi, hi', hrun⟩ => absurd hrun (hnone i hi hi'),
      fun _ => hnone, fun _ => hri⟩
    by_cases hc : cur = cfg.idleThread
    · rw [hri, hc]
    · rw [if_neg hc] at hl hh
      exact absurd hcur (hnone cur hl hh)

/-- The deployed configuration, with thread 1 the only runnable one and thread 0 out of budget. -/
theorem pokSchedPartRr_roundRobin_deployment :
    ∃ r, pokSchedPartRr deployment
        (fun i => { status := if i = 1 then .runnable else .stopped }) 0 1 5 0 = .ok r ∧
      RoundRobinElects deployment
        (fun i => { status := if i = 1 then .runnable else .stopped }) 0 1 0 0 r :=
  pokSchedPartRr_roundRobin deployment _ 0 1 5 0 (by decide) (by decide) (by decide) rfl
    (by decide)

/-- A range that holds the idle thread: the idle thread is runnable like any other thread of the
range, and it is elected although a thread of the range is runnable. -/
theorem pokSchedPartRr_idle_in_range :
    ¬ ∀ (cfg : Config) (procs : Nat → Process) (low high prev cur : Nat), low ≤ high →
      (low ≤ if cur = cfg.idleThread then prev else cur) →
      (if cur = cfg.idleThread then prev else cur) ≤ high →
      (procs cfg.idleThread).remainingTimeCapacity = 0 →
      ∃ r, pokSchedPartRr cfg procs low high prev cur = .ok r ∧
        RoundRobinElects cfg procs low high (if cur = cfg.idleThread then prev else cur) cur
          r := by
  intro h
  obtain ⟨r, hr, helects⟩ := h deployment
    (fun i => { status := if i = 5 then .runnable else .stopped }) 3 5 4 3 (by decide) (by decide)
    (by decide) rfl
  have hr5 : r = deployment.idleThread := by
    have hrun : pokSchedPartRr deployment
        (fun i => { status := if i = 5 then .runnable else .stopped }) 3 5 4 3 = .ok 5 := rfl
    rw [hrun, Except.ok.injEq] at hr
    exact hr.symm
  exact helects.idle.1 hr5 5 (by decide) (by decide) rfl

end PartitionSeL4
