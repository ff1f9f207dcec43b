import PartitionSeL4.Kernel.Endpoint
import PartitionSeL4.Kernel.Ready

/-!
# The scheduler keeps the threads that can run

A thread that can run is current, stands in a ready queue or is the one to be switched to. An
operation takes a thread in hand, changes its state and gives it back with `tcbSchedEnqueue` or
`possibleSwitchTo`.

* `Sched`: what holds in the midst of an operation, with a thread in hand.
* `Settled`: what holds besides at its end. The current thread can run, and its priority, or that of
  the thread to be switched to, is not below that of any thread that waits to run.
* `Settled.setState`, `Settled.possibleSwitchTo`, `Sched.reschedule`: the steps of the operations.
* `Settled.schedule`: the thread that is chosen.
-/

namespace PartitionSeL4.Kernel

open Lib Function

variable {μ : Type} {cfg : Config} {s s' s₁ s₂ : KState μ} {x y t : Nat}

/-- The part of the state that the scheduler reads, besides the threads' states. -/
structure SchedPart where
  tcbQueued : Nat → Bool
  tcbDomain : Nat → Nat
  tcbPriority : Nat → Nat
  tcbSchedNext : Nat → Nat
  tcbSchedPrev : Nat → Nat
  ksReadyQueues : Nat → Queue
  ksReadyQueuesL1Bitmap : Nat → BitVec 32
  ksReadyQueuesL2Bitmap : Nat → Nat → BitVec 32
  ksCurThread : Nat
  ksIdleThread : Nat
  ksSchedulerAction : SchedulerAction
  ksCurDomain : Nat

def KState.schedPart (s : KState μ) : SchedPart :=
  ⟨s.tcbQueued, s.tcbDomain, s.tcbPriority, s.tcbSchedNext, s.tcbSchedPrev, s.ksReadyQueues,
    s.ksReadyQueuesL1Bitmap, s.ksReadyQueuesL2Bitmap, s.ksCurThread, s.ksIdleThread,
    s.ksSchedulerAction, s.ksCurDomain⟩

/-- Two states that differ in the ready queues and the scheduler's action only. -/
def Rescheduled (s s' : KState μ) : Prop :=
  s' = { s with
    tcbQueued := s'.tcbQueued
    tcbSchedNext := s'.tcbSchedNext
    tcbSchedPrev := s'.tcbSchedPrev
    ksReadyQueues := s'.ksReadyQueues
    ksReadyQueuesL1Bitmap := s'.ksReadyQueuesL1Bitmap
    ksReadyQueuesL2Bitmap := s'.ksReadyQueuesL2Bitmap
    ksSchedulerAction := s'.ksSchedulerAction }

theorem Rescheduled.refl : Rescheduled s s := rfl

theorem Rescheduled.trans (h : Rescheduled s s₁) (h' : Rescheduled s₁ s₂) : Rescheduled s s₂ := by
  unfold Rescheduled at *
  rw [h] at h'
  exact h'

theorem Rescheduled.ksCurThread (h : Rescheduled s s') : s'.ksCurThread = s.ksCurThread := by
  unfold Rescheduled at h
  rw [h]

theorem Requeued.rescheduled (h : Requeued s s') : Rescheduled s s' := by
  unfold Requeued at h
  unfold Rescheduled
  rw [h]

/-- What every operation takes for granted of the threads' states. No thread runs a guest system. -/
structure Threads (cfg : Config) (s : KState μ) : Prop where
  idle : ∀ t, s.tsType t = .idleThreadState ↔ t = s.ksIdleThread
  tcb : ∀ t, s.tsType t ≠ .inactive → IsTcb t
  noVM : ∀ t, s.tsType t ≠ .runningVM
  curDomain : s.ksCurDomain < cfg.numDomains

/-- The threads, in the midst of an operation that has the thread `x` in hand, or none if `x` is
0. -/
structure Sched (cfg : Config) (s : KState μ) (x : Nat) : Prop where
  threads : Threads cfg s
  ready : ∃ rq, Ready cfg s rq
  queued : ∀ t, s.tcbQueued t = true → isRunnable s t = true
  handed : s.tcbQueued x = false
  kept : cfg.numDomains = 1 → ∀ t, isRunnable s t = true → t ≠ x →
    s.tcbQueued t = true ∨ t = s.ksCurThread ∨ s.ksSchedulerAction = .switchToThread t
  target : ∀ t, s.ksSchedulerAction = .switchToThread t → isRunnable s t = true ∧ t ≠ x

/-- The scheduler has nothing to do with the thread. -/
def Aside (s : KState μ) (t : Nat) : Prop :=
  s.tcbQueued t = false ∧ s.ksSchedulerAction ≠ .switchToThread t

/-- A thread that can run, and that the scheduler does not know of. -/
structure Orphaned (s : KState μ) (t : Nat) : Prop where
  run : isRunnable s t = true
  aside : Aside s t
  current : t ≠ s.ksCurThread

/-- A priority that no thread in a ready queue has more than. -/
def Highest (s : KState μ) (prio : Nat) : Prop :=
  ∀ t, s.tcbQueued t = true → s.tcbPriority t ≤ prio

/-- The threads at the end of an operation. With several domains the last two hold only within the
domain that runs, and `kept` not even there. -/
structure Settled (cfg : Config) (s : KState μ) (x : Nat) : Prop extends Sched cfg s x where
  current : s.ksSchedulerAction = .resumeCurrentThread →
    (isRunnable s s.ksCurThread = true ∨ s.ksCurThread = s.ksIdleThread) ∧
      s.tcbQueued s.ksCurThread = false
  highest : cfg.numDomains = 1 → s.ksSchedulerAction = .resumeCurrentThread →
    Highest s (s.tcbPriority s.ksCurThread)
  targetHighest : cfg.numDomains = 1 → ∀ t, s.ksSchedulerAction = .switchToThread t →
    Highest s (s.tcbPriority t) ∧ s.tcbPriority s.ksCurThread ≤ s.tcbPriority t

theorem isTcb_ne_zero (h : IsTcb t) : t ≠ 0 := by
  rintro rfl
  exact absurd h (by decide)

theorem Ready.congr {rq : Nat → List Nat} (h : Ready cfg s rq)
    (hpart : s'.schedPart = s.schedPart) :
    Ready cfg s' rq := by
  injection hpart with h1 h2 h3 h4 h5 h6 h7 h8 h9
  obtain ⟨hq, hm, hd, hp, hb⟩ := h
  constructor
  · rwa [KState.schedLinks, h4, h5, h6]
  · intro t i
    rw [hm, h1, KState.idx, KState.idx, h2, h3]
  · rwa [h2]
  · rwa [h3]
  · exact ⟨by rw [h8]; exact hb.l2, by rw [h7, h8]; exact hb.l1⟩

theorem Threads.congr (h : Threads cfg s) (hts : s'.tsType = s.tsType)
    (hidle : s'.ksIdleThread = s.ksIdleThread) (hdom : s'.ksCurDomain = s.ksCurDomain) :
    Threads cfg s' :=
  ⟨by rw [hts, hidle]; exact h.idle, by rw [hts]; exact h.tcb, by rw [hts]; exact h.noVM,
    by rw [hdom]; exact h.curDomain⟩

theorem Threads.restate (h : Threads cfg s) {ts : ThreadStateType}
    (hts : s'.tsType = update s.tsType x ts) (hidle' : s'.ksIdleThread = s.ksIdleThread)
    (hdom : s'.ksCurDomain = s.ksCurDomain) (hx : IsTcb x) (hidle : x ≠ s.ksIdleThread)
    (hnot : ts ≠ .idleThreadState ∧ ts ≠ .runningVM) : Threads cfg s' := by
  refine ⟨fun t => ?_, fun t ht => ?_, fun t => ?_, hdom ▸ h.curDomain⟩
  · rw [hts, hidle']
    by_cases ht : t = x
    · subst ht
      rw [update_self]
      exact iff_of_false hnot.1 hidle
    · rw [update_of_ne ht]
      exact h.idle t
  · by_cases htx : t = x
    · exact htx ▸ hx
    · rw [hts, update_of_ne htx] at ht
      exact h.tcb t ht
  · rw [hts]
    by_cases htx : t = x
    · subst htx
      rw [update_self]
      exact hnot.2
    · rw [update_of_ne htx]
      exact h.noVM t

namespace Requeued

theorem isRunnable (h : Requeued s s') (t : Nat) : isRunnable s' t = isRunnable s t := by
  rw [Kernel.isRunnable, Kernel.isRunnable, h.tsType]

theorem threads (h : Requeued s s') (ht : Threads cfg s) : Threads cfg s' := by
  refine ht.congr h.tsType ?_ ?_ <;>
    · unfold Requeued at h
      rw [h]

end Requeued

namespace Sched

theorem isTcb (h : Sched cfg s x) (ht : isRunnable s t = true) : IsTcb t := by
  refine h.threads.tcb t fun hin => ?_
  rw [isRunnable, hin] at ht
  cases ht

theorem queued_zero (h : Sched cfg s x) : s.tcbQueued 0 = false := by
  by_contra hq
  exact isTcb_ne_zero (h.isTcb (h.queued 0 (Bool.eq_true_of_not_eq_false hq))) rfl

theorem restate (h : Sched cfg s x) {ts : ThreadStateType} (hpart : s'.schedPart = s.schedPart)
    (hts : s'.tsType = update s.tsType x ts) (hx : IsTcb x) (hidle : x ≠ s.ksIdleThread)
    (hnot : ts ≠ .idleThreadState ∧ ts ≠ .runningVM) : Sched cfg s' x := by
  obtain ⟨rq, hready⟩ := h.ready
  have hready' := hready.congr hpart
  injection hpart with h1 h2 h3 h4 h5 h6 h7 h8 h9 h10 h11 h12
  have hrun : ∀ t, t ≠ x → isRunnable s' t = isRunnable s t := by
    intro t ht
    rw [isRunnable, isRunnable, hts, update_of_ne ht]
  refine ⟨h.threads.restate hts h10 h12 hx hidle hnot, ⟨rq, hready'⟩, ?_, ?_, ?_, ?_⟩
  · intro t ht
    rw [h1] at ht
    rw [hrun t fun hx => by rw [hx, h.handed] at ht; cases ht]
    exact h.queued t ht
  · rw [h1]
    exact h.handed
  · intro hone t ht htx
    rw [hrun t htx] at ht
    rw [h1, h9, h11]
    exact h.kept hone t ht htx
  · intro t ht
    rw [h11] at ht
    obtain ⟨hr, htx⟩ := h.target t ht
    exact ⟨(hrun t htx).trans hr, htx⟩

/-- What the scheduler does not read is free to change. -/
theorem transport (h : Sched cfg s x) (hpart : s'.schedPart = s.schedPart)
    (hthreads : Threads cfg s') (hrun : ∀ t, isRunnable s' t = isRunnable s t) :
    Sched cfg s' x := by
  obtain ⟨rq, hready⟩ := h.ready
  have hready' := hready.congr hpart
  injection hpart with h1 h2 h3 h4 h5 h6 h7 h8 h9 h10 h11 h12
  refine ⟨hthreads, ⟨rq, hready'⟩, ?_, ?_, ?_, ?_⟩
  · intro t ht
    rw [hrun]
    exact h.queued t (h1 ▸ ht)
  · rw [h1]
    exact h.handed
  · intro hone t ht htx
    rw [h1, h9, h11]
    exact h.kept hone t ((hrun t).symm.trans ht) htx
  · intro t ht
    rw [hrun]
    exact h.target t (h11 ▸ ht)

theorem frame (h : Sched cfg s x) (hpart : s'.schedPart = s.schedPart)
    (hts : s'.tsType = s.tsType) : Sched cfg s' x := by
  refine h.transport hpart ?_ fun t => by rw [isRunnable, isRunnable, hts]
  injection hpart with h1 h2 h3 h4 h5 h6 h7 h8 h9 h10 h11 h12
  exact h.threads.congr hts h10 h12

/-- A thread has come into its ready queue. It may be the one in hand. -/
theorem insert {rq : Nat → List Nat} (h : Sched cfg s x) (ht : isRunnable s t = true)
    (hx : y = x ∨ y = 0 ∧ t = x) (hy : y ≠ t) (hreq : Requeued s s') (hready : Ready cfg s' rq)
    (hqueued : s'.tcbQueued = update s.tcbQueued t true) : Sched cfg s' y := by
  have hy0 : s.tcbQueued y = false ∧ ∀ t, s.ksSchedulerAction = .switchToThread t → t ≠ y := by
    rcases hx with rfl | ⟨rfl, -⟩
    · exact ⟨h.handed, fun t ht => (h.target t ht).2⟩
    · exact ⟨h.queued_zero, fun t ht => isTcb_ne_zero (h.isTcb (h.target t ht).1)⟩
  refine ⟨hreq.threads h.threads, ⟨rq, hready⟩, ?_, ?_, ?_, ?_⟩
  · intro z hz
    rw [hreq.isRunnable]
    by_cases hzt : z = t
    · exact hzt ▸ ht
    · rw [hqueued, update_of_ne hzt] at hz
      exact h.queued z hz
  · rw [hqueued, update_of_ne hy]
    exact hy0.1
  · intro hone z hz hzy
    rw [hreq.isRunnable] at hz
    rw [hqueued, hreq.ksCurThread, hreq.ksSchedulerAction]
    by_cases hzt : z = t
    · subst hzt
      exact .inl (update_self ..)
    · rw [update_of_ne hzt]
      refine h.kept hone z hz ?_
      rcases hx with rfl | ⟨-, rfl⟩
      · exact hzy
      · exact hzt
  · intro z hz
    rw [hreq.ksSchedulerAction] at hz
    exact ⟨(hreq.isRunnable z).trans (h.target z hz).1, hy0.2 z hz⟩

theorem enqueue (h : Sched cfg s x) (ht : isRunnable s t = true) (hx : y = x ∨ y = 0 ∧ t = x)
    (hy : y ≠ t) :
    ∃ s', tcbSchedEnqueue cfg s t = .ok s' ∧ Requeued s s' ∧ Sched cfg s' y ∧
      s'.tcbQueued = update s.tcbQueued t true := by
  obtain ⟨rq, hready⟩ := h.ready
  obtain ⟨s', rq', hcall, hreq, hready', hqueued, -⟩ := hready.enqueue (isTcb_ne_zero (h.isTcb ht))
  exact ⟨s', hcall, hreq, h.insert ht hx hy hreq hready' hqueued, hqueued⟩

theorem append (h : Sched cfg s x) (ht : isRunnable s t = true) (hx : y = x ∨ y = 0 ∧ t = x)
    (hy : y ≠ t) :
    ∃ s', tcbSchedAppend cfg s t = .ok s' ∧ Requeued s s' ∧ Sched cfg s' y ∧
      s'.tcbQueued = update s.tcbQueued t true := by
  obtain ⟨rq, hready⟩ := h.ready
  obtain ⟨s', rq', hcall, hreq, hready', hqueued, -⟩ := hready.append (isTcb_ne_zero (h.isTcb ht))
  exact ⟨s', hcall, hreq, h.insert ht hx hy hreq hready' hqueued, hqueued⟩

theorem dequeue (h : Sched cfg s x) (hx : x = t ∨ x = 0)
    (ht : s.ksSchedulerAction ≠ .switchToThread t) :
    ∃ s', tcbSchedDequeue cfg s t = .ok s' ∧ Requeued s s' ∧ Sched cfg s' t ∧
      s'.tcbQueued = update s.tcbQueued t false := by
  obtain ⟨rq, hready⟩ := h.ready
  obtain ⟨s', rq', hcall, hreq, hready', hqueued, -⟩ := hready.dequeue t
  refine ⟨s', hcall, hreq, ?_, hqueued⟩
  refine ⟨hreq.threads h.threads, ⟨rq', hready'⟩, ?_, ?_, ?_, ?_⟩
  · intro z hz
    rw [hreq.isRunnable]
    by_cases hzt : z = t
    · rw [hqueued, hzt, update_self] at hz
      cases hz
    · rw [hqueued, update_of_ne hzt] at hz
      exact h.queued z hz
  · rw [hqueued, update_self]
  · intro hone z hz hzt
    rw [hreq.isRunnable] at hz
    rw [hqueued, hreq.ksCurThread, hreq.ksSchedulerAction, update_of_ne hzt]
    refine h.kept hone z hz ?_
    rcases hx with rfl | rfl
    · exact hzt
    · exact isTcb_ne_zero (h.isTcb hz)
  · intro z hz
    rw [hreq.ksSchedulerAction] at hz
    exact ⟨(hreq.isRunnable z).trans (h.target z hz).1, fun hzt => ht (hzt ▸ hz)⟩

theorem take (h : Sched cfg s 0) (ht : Aside s t) : Sched cfg s t :=
  ⟨h.threads, h.ready, h.queued, ht.1,
    fun hone z hz _ => h.kept hone z hz (isTcb_ne_zero (h.isTcb hz)),
    fun z hz => ⟨(h.target z hz).1, fun hzt => ht.2 (hzt ▸ hz)⟩⟩

theorem aside (h : Sched cfg s x) (ht : isRunnable s t = false) : Aside s t := by
  refine ⟨?_, fun hact => ?_⟩
  · by_contra hq
    rw [h.queued t (Bool.eq_true_of_not_eq_false hq)] at ht
    cases ht
  · rw [(h.target t hact).1] at ht
    cases ht

theorem release (h : Sched cfg s x) (hx : cfg.numDomains = 1 → isRunnable s x = false) :
    Sched cfg s 0 := by
  refine ⟨h.threads, h.ready, h.queued, h.queued_zero, ?_, ?_⟩
  · intro hone t ht _
    refine h.kept hone t ht fun htx => ?_
    rw [htx, hx hone] at ht
    cases ht
  · intro t ht
    have hrun := (h.target t ht).1
    exact ⟨hrun, isTcb_ne_zero (h.isTcb hrun)⟩

theorem enqueueRunnable (h : Sched cfg s x) (hx : x = t ∨ x = 0) :
    ∃ s', enqueueRunnable cfg s t = .ok s' ∧ Requeued s s' ∧ Sched cfg s' 0 ∧
      (∀ z, z ≠ t → s'.tcbQueued z = s.tcbQueued z) ∧
        s'.tcbQueued t = isRunnable s t := by
  rw [Kernel.enqueueRunnable]
  split_ifs with ht
  · have ht0 := isTcb_ne_zero (h.isTcb ht)
    obtain ⟨s', hcall, hreq, hs', hqueued⟩ := h.enqueue ht (y := 0)
      (hx.elim (fun hx => .inr ⟨rfl, hx.symm⟩) fun hx => .inl hx.symm) (Ne.symm ht0)
    refine ⟨s', hcall, hreq, hs', fun z hz => ?_, ?_⟩
    · rw [hqueued, update_of_ne hz]
    · rw [hqueued, update_self, ht]
  · have hrun := Bool.eq_false_iff.mpr ht
    refine ⟨s, rfl, .refl, ?_, fun _ _ => rfl, (h.aside hrun).1.trans hrun.symm⟩
    rcases hx with rfl | rfl
    · exact h.release fun _ => hrun
    · exact h

/-- A thread that the scheduler is to choose anew leaves nothing to be said of the current one. -/
theorem reschedule (h : Sched cfg s x) :
    ∃ s', rescheduleRequired cfg s = .ok s' ∧ Rescheduled s s' ∧ Settled cfg s' x ∧
      ∀ t, Aside s t → Aside s' t := by
  have hchoose : ∀ {s₁ : KState μ}, Sched cfg s₁ x →
      (∀ t, s.ksSchedulerAction = .switchToThread t → s₁.tcbQueued t = true) →
      s₁.ksSchedulerAction = s.ksSchedulerAction →
      Settled cfg { s₁ with ksSchedulerAction := .chooseNewThread } x := by
    intro s₁ h₁ htarget haction
    obtain ⟨rq, hready⟩ := h₁.ready
    refine ⟨⟨h₁.threads.congr rfl rfl rfl, ⟨rq, ?_⟩, h₁.queued, h₁.handed, ?_, ?_⟩, ?_, ?_, ?_⟩
    · exact ⟨hready.queues, hready.mem, hready.domain, hready.priority, hready.bitmaps.l2,
        hready.bitmaps.l1⟩
    · intro hone t ht htx
      rcases h₁.kept hone t ht htx with hq | hcur | hact
      · exact .inl hq
      · exact .inr (.inl hcur)
      · exact .inl (htarget t (haction ▸ hact))
    · exact fun _ ht => by cases ht
    · exact fun ht => by cases ht
    · exact fun _ ht => by cases ht
    · exact fun _ _ ht => by cases ht
  cases haction : s.ksSchedulerAction with
  | switchToThread a =>
      obtain ⟨hrun, hax⟩ := h.target a haction
      obtain ⟨s₁, hcall, hreq, h₁, hqueued⟩ := h.enqueue hrun (.inl rfl) (Ne.symm hax)
      refine ⟨_, ?_, ?_, hchoose h₁ ?_ hreq.ksSchedulerAction,
        fun t ht => ⟨?_, fun hc => by cases hc⟩⟩
      · rw [rescheduleRequired, haction]
        simp only [bind, Except.bind]
        rw [hcall]
      · exact hreq.rescheduled.trans rfl
      · intro t ht
        rw [haction] at ht
        injection ht with ht
        rw [hqueued, ht, update_self]
      · show s₁.tcbQueued t = false
        rw [hqueued, update_of_ne fun hta : t = a => ht.2 (hta ▸ haction)]
        exact ht.1
  | resumeCurrentThread =>
      refine ⟨_, ?_, ?_, hchoose h (fun t ht => ?_) rfl, fun t ht => ⟨ht.1, fun hc => by cases hc⟩⟩
      · rw [rescheduleRequired, haction]
        rfl
      · rfl
      · rw [haction] at ht
        cases ht
  | chooseNewThread =>
      refine ⟨_, ?_, ?_, hchoose h (fun t ht => ?_) rfl, fun t ht => ⟨ht.1, fun hc => by cases hc⟩⟩
      · rw [rescheduleRequired, haction]
        rfl
      · rfl
      · rw [haction] at ht
        cases ht

theorem kept_of (h : Sched cfg s x) (hxt : x = t ∨ x = 0) (hone : cfg.numDomains = 1) {z : Nat}
    (hz : isRunnable s z = true) (hzt : z ≠ t) :
    s.tcbQueued z = true ∨ z = s.ksCurThread ∨ s.ksSchedulerAction = .switchToThread z := by
  refine h.kept hone z hz ?_
  rcases hxt with rfl | rfl
  · exact hzt
  · exact isTcb_ne_zero (h.isTcb hz)

end Sched

namespace Settled

/-- The thread in hand is given a state. If it is the current one and can run no longer, the
scheduler is to choose anew. -/
theorem setState (h : Settled cfg s x) {ts : ThreadStateType} (hpart : s'.schedPart = s.schedPart)
    (hts : s'.tsType = update s.tsType x ts) (hx : IsTcb x) (hidle : x ≠ s.ksIdleThread)
    (hnot : ts ≠ .idleThreadState ∧ ts ≠ .runningVM) :
    ∃ s'', scheduleTCB cfg s' x = .ok s'' ∧ Rescheduled s' s'' ∧ Settled cfg s'' x ∧
      ∀ t, Aside s t → Aside s'' t := by
  have hs := h.toSched.restate hpart hts hx hidle hnot
  have haside : ∀ t, Aside s t → Aside s' t := by
    intro t ht
    injection hpart with h1 h2 h3 h4 h5 h6 h7 h8 h9 h10 h11 h12
    exact ⟨by rw [h1]; exact ht.1, by rw [h11]; exact ht.2⟩
  rw [scheduleTCB]
  split_ifs with hcond
  · obtain ⟨s'', hcall, hres, hsettled, hkeep⟩ := hs.reschedule
    exact ⟨s'', hcall, hres, hsettled, fun t ht => hkeep t (haside t ht)⟩
  · refine ⟨s', rfl, .refl, ⟨hs, ?_, ?_, ?_⟩, haside⟩
    · intro hact
      injection hpart with h1 h2 h3 h4 h5 h6 h7 h8 h9 h10 h11 h12
      obtain ⟨hrun, hq⟩ := h.current (h11.symm.trans hact)
      rw [h9, h10, h1]
      refine ⟨?_, hq⟩
      by_cases hcur : s.ksCurThread = x
      · refine .inl (Bool.eq_true_of_not_eq_false fun hf => hcond ?_)
        exact ⟨hcur.symm.trans h9.symm, hact, hcur ▸ hf⟩
      · rwa [isRunnable, hts, update_of_ne hcur]
    · intro hone hact t ht
      injection hpart with h1 h2 h3 h4 h5 h6 h7 h8 h9 h10 h11 h12
      rw [h3, h9]
      exact h.highest hone (h11.symm.trans hact) t (h1 ▸ ht)
    · intro hone t hact
      injection hpart with h1 h2 h3 h4 h5 h6 h7 h8 h9 h10 h11 h12
      rw [h3, h9]
      obtain ⟨hhigh, hle⟩ := h.targetHighest hone t (h11.symm.trans hact)
      refine ⟨fun z hz => ?_, hle⟩
      rw [h3]
      exact hhigh z (h1 ▸ hz)

theorem setThreadState (h : Settled cfg s x) (ts : ThreadStateType) (hx : IsTcb x)
    (hidle : x ≠ s.ksIdleThread) (hnot : ts ≠ .idleThreadState ∧ ts ≠ .runningVM) :
    ∃ s', setThreadState cfg s x ts = .ok s' ∧
      Rescheduled { s with tsType := update s.tsType x ts } s' ∧ Settled cfg s' x ∧
      ∀ t, Aside s t → Aside s' t :=
  h.setState rfl rfl hx hidle hnot

/-- A thread that cannot run is given back. With several domains no thread is kept track of. -/
theorem release (h : Settled cfg s x) (hx : cfg.numDomains = 1 → isRunnable s x = false) :
    Settled cfg s 0 :=
  ⟨h.toSched.release hx, h.current, h.highest, h.targetHighest⟩

theorem take (h : Settled cfg s 0) (ht : Aside s t) : Settled cfg s t :=
  ⟨h.toSched.take ht, h.current, h.highest, h.targetHighest⟩

theorem ne_current (h : Settled cfg s x) (ht : isRunnable s t = false)
    (hidle : t ≠ s.ksIdleThread) (hact : s.ksSchedulerAction = .resumeCurrentThread) :
    t ≠ s.ksCurThread := by
  rintro rfl
  rcases (h.current hact).1 with hrun | hcur
  · rw [ht] at hrun
    cases hrun
  · exact hidle hcur

theorem giveWay (h : Sched cfg s x) (hxt : x = t ∨ x = 0) (ht : isRunnable s t = true)
    (hact : s.ksSchedulerAction = .resumeCurrentThread)
    (hle : s.tcbPriority s.ksCurThread ≤ s.tcbPriority t)
    (hhigh : cfg.numDomains = 1 →
      ∀ z, z ≠ t → s.tcbQueued z = true → s.tcbPriority z ≤ s.tcbPriority s.ksCurThread) :
    Settled cfg { s with ksSchedulerAction := .switchToThread t } 0 := by
  obtain ⟨rq, hready⟩ := h.ready
  refine ⟨⟨h.threads.congr rfl rfl rfl, ⟨rq, ?_⟩, h.queued, h.queued_zero, ?_, ?_⟩, ?_, ?_, ?_⟩
  · exact ⟨hready.queues, hready.mem, hready.domain, hready.priority, hready.bitmaps.l2,
      hready.bitmaps.l1⟩
  · intro hone z hz _
    by_cases hzt : z = t
    · exact .inr (.inr (hzt ▸ rfl))
    · rcases h.kept_of hxt hone hz hzt with hq | hcur | hswitch
      · exact .inl hq
      · exact .inr (.inl hcur)
      · rw [hact] at hswitch
        cases hswitch
  · intro z hz
    injection hz with hz
    exact hz ▸ ⟨ht, isTcb_ne_zero (h.isTcb ht)⟩
  · exact fun ht => by cases ht
  · exact fun _ ht => by cases ht
  · intro hone z hz
    injection hz with hz
    refine hz ▸ ⟨fun w hw => ?_, hle⟩
    by_cases hwt : w = t
    · rw [hwt]
    · exact (hhigh hone w hwt hw).trans hle

/-- A thread that can run comes to the scheduler: it is switched to, or comes into its ready
queue. It may stand there already, before a current thread of a lower priority. -/
theorem possibleSwitchTo_of_sched (h : Sched cfg s x) (hxt : x = t ∨ x = 0)
    (ht : isRunnable s t = true) (onSame : Bool)
    (hcurrent : s.ksSchedulerAction = .resumeCurrentThread →
      (isRunnable s s.ksCurThread = true ∨ s.ksCurThread = s.ksIdleThread) ∧
        s.tcbQueued s.ksCurThread = false ∧ t ≠ s.ksCurThread)
    (hhigh : cfg.numDomains = 1 → s.ksSchedulerAction = .resumeCurrentThread →
      ∀ z, z ≠ t → s.tcbQueued z = true → s.tcbPriority z ≤ s.tcbPriority s.ksCurThread) :
    ∃ s', possibleSwitchTo cfg s t onSame = .ok s' ∧ Rescheduled s s' ∧ Settled cfg s' 0 ∧
      ∀ z, z ≠ t → Aside s z → Aside s' z := by
  have ht0 := isTcb_ne_zero (h.isTcb ht)
  obtain ⟨s₁, henq, hreq, h₁, hqueued⟩ := h.enqueue ht (y := 0)
    (hxt.elim (fun hx => .inr ⟨rfl, hx.symm⟩) fun hx => .inl hx.symm) (Ne.symm ht0)
  have haside₁ : ∀ z, z ≠ t → Aside s z → Aside s₁ z := by
    intro z hz ha
    refine ⟨?_, by rw [hreq.ksSchedulerAction]; exact ha.2⟩
    rw [hqueued, update_of_ne hz]
    exact ha.1
  -- the current thread stays out of the queues
  have hcurrent₁ : s₁.ksSchedulerAction = .resumeCurrentThread →
      (isRunnable s₁ s₁.ksCurThread = true ∨ s₁.ksCurThread = s₁.ksIdleThread) ∧
        s₁.tcbQueued s₁.ksCurThread = false := by
    intro hact
    rw [hreq.ksSchedulerAction] at hact
    obtain ⟨hcur, hq, hne⟩ := hcurrent hact
    rw [hreq.isRunnable, hqueued, hreq.ksCurThread, update_of_ne hne.symm]
    unfold Requeued at hreq
    rw [hreq]
    exact ⟨hcur, hq⟩
  rw [Kernel.possibleSwitchTo]
  by_cases hmany : 1 < cfg.numDomains
  · simp only [hmany, if_true]
    split_ifs with hdom
    · refine ⟨s₁, henq, hreq.rescheduled, ⟨h₁, hcurrent₁, fun hone => ?_, fun hone => ?_⟩,
        haside₁⟩ <;> omega
    · refine ⟨s, rfl, .refl, ⟨h.release fun hone => ?_, fun hact => ?_, fun hone => ?_,
        fun hone => ?_⟩, fun _ _ ha => ha⟩
      · omega
      · exact ⟨(hcurrent hact).1, (hcurrent hact).2.1⟩
      · omega
      · omega
  · simp only [hmany, if_false]
    split_ifs with hcond
    · -- the scheduler is to switch to the thread
      obtain ⟨hprio, hact⟩ := hcond
      have hle : s.tcbPriority s.ksCurThread ≤ s.tcbPriority t := by omega
      have hswitch : Settled cfg { s with ksSchedulerAction := .switchToThread t } 0 :=
        giveWay h hxt ht hact hle fun hone => hhigh hone hact
      refine ⟨{ s with ksSchedulerAction := .switchToThread t }, ?_, rfl, hswitch, ?_⟩
      · rw [hact]
        rfl
      · refine fun z hz ha => ⟨ha.1, fun hzt => hz ?_⟩
        injection hzt with hzt
        exact hzt.symm
    · cases hact : s.ksSchedulerAction with
      | switchToThread a =>
          obtain ⟨s₂, hcall, hres, hsettled, haside⟩ := h₁.reschedule
          refine ⟨s₂, ?_, hreq.rescheduled.trans hres, hsettled,
            fun z hz ha => haside z (haside₁ z hz ha)⟩
          simp only [bind, Except.bind]
          rw [henq]
          exact hcall
      | resumeCurrentThread =>
          refine ⟨s₁, ?_, hreq.rescheduled, ⟨h₁, hcurrent₁, ?_, ?_⟩, haside₁⟩
          · simp only [bind, Except.bind]
            rw [henq]
          · intro hone _ z hz
            rw [hreq.tcbPriority, hreq.ksCurThread]
            rw [hqueued] at hz
            by_cases hzt : z = t
            · subst hzt
              exact not_lt.mp fun hlt => hcond ⟨.inl hlt, hact⟩
            · rw [update_of_ne hzt] at hz
              exact hhigh hone hact z hzt hz
          · intro hone z hz
            rw [hreq.ksSchedulerAction, hact] at hz
            cases hz
      | chooseNewThread =>
          refine ⟨s₁, ?_, hreq.rescheduled, ⟨h₁, hcurrent₁, ?_, ?_⟩, haside₁⟩
          · simp only [bind, Except.bind]
            rw [henq]
          · intro _ hz
            rw [hreq.ksSchedulerAction, hact] at hz
            cases hz
          · intro _ z hz
            rw [hreq.ksSchedulerAction, hact] at hz
            cases hz

theorem possibleSwitchTo (h : Settled cfg s x) (hxt : x = t ∨ x = 0) (ht : isRunnable s t = true)
    (onSame : Bool) (hcur : s.ksSchedulerAction = .resumeCurrentThread → t ≠ s.ksCurThread) :
    ∃ s', possibleSwitchTo cfg s t onSame = .ok s' ∧ Rescheduled s s' ∧ Settled cfg s' 0 ∧
      ∀ z, z ≠ t → Aside s z → Aside s' z :=
  possibleSwitchTo_of_sched h.toSched hxt ht onSame
    (fun hact => ⟨(h.current hact).1, (h.current hact).2, hcur hact⟩)
    fun hone hact z _ hz => h.highest hone hact z hz

end Settled

/-! ## The choice of a thread -/

/-- The domain schedule names domains that exist. -/
def Config.Ok (cfg : Config) : Prop :=
  1 < cfg.numDomains → cfg.ksDomSchedule ≠ [] ∧ ∀ e ∈ cfg.ksDomSchedule, e.1 < cfg.numDomains

/-- Two states that differ in what the scheduler changes. -/
def Scheduled (s s' : KState μ) : Prop :=
  s' = { s with
    tcbQueued := s'.tcbQueued
    tcbSchedNext := s'.tcbSchedNext
    tcbSchedPrev := s'.tcbSchedPrev
    ksReadyQueues := s'.ksReadyQueues
    ksReadyQueuesL1Bitmap := s'.ksReadyQueuesL1Bitmap
    ksReadyQueuesL2Bitmap := s'.ksReadyQueuesL2Bitmap
    ksSchedulerAction := s'.ksSchedulerAction
    tcbDomain := s'.tcbDomain
    tcbPriority := s'.tcbPriority
    tcbTimeSlice := s'.tcbTimeSlice
    ksCurThread := s'.ksCurThread
    ksCurDomain := s'.ksCurDomain
    ksDomainTime := s'.ksDomainTime
    ksDomScheduleIdx := s'.ksDomScheduleIdx
    context := s'.context }

theorem Scheduled.trans (h : Scheduled s s₁) (h' : Scheduled s₁ s₂) : Scheduled s s₂ := by
  unfold Scheduled at *
  rw [h] at h'
  exact h'

theorem Rescheduled.scheduled (h : Rescheduled s s') : Scheduled s s' := by
  unfold Rescheduled at h
  unfold Scheduled
  rw [h]

/-- Every thread that can run is in a ready queue, apart from `t`. -/
def AllQueued (cfg : Config) (s : KState μ) (t : Nat) : Prop :=
  cfg.numDomains = 1 → ∀ z, isRunnable s z = true → z ≠ t → s.tcbQueued z = true

namespace Sched

/-- The scheduler's own fields are free to change between operations on the queues. -/
theorem congr (h : Sched cfg s 0) (hts : s'.tsType = s.tsType) (hq : s'.tcbQueued = s.tcbQueued)
    (hready : ∀ rq, Ready cfg s rq → Ready cfg s' rq) (hidle : s'.ksIdleThread = s.ksIdleThread)
    (hdom : s'.ksCurDomain < cfg.numDomains)
    (haction : s'.ksSchedulerAction = .resumeCurrentThread ∨
      s'.ksSchedulerAction = s.ksSchedulerAction)
    (hall : AllQueued cfg s' s'.ksCurThread) : Sched cfg s' 0 := by
  obtain ⟨rq, hrq⟩ := h.ready
  have hrun : ∀ t, isRunnable s' t = isRunnable s t := fun t => by
    rw [isRunnable, isRunnable, hts]
  refine ⟨⟨?_, ?_, ?_, hdom⟩, ⟨rq, hready rq hrq⟩, ?_, hq ▸ h.queued_zero, ?_, ?_⟩
  · rw [hts, hidle]
    exact h.threads.idle
  · rw [hts]
    exact h.threads.tcb
  · rw [hts]
    exact h.threads.noVM
  · intro t ht
    rw [hrun]
    exact h.queued t (hq ▸ ht)
  · intro hone t ht _
    by_cases hcur : t = s'.ksCurThread
    · exact .inr (.inl hcur)
    · exact .inl (hall hone t ht hcur)
  · intro t ht
    rcases haction with hact | hact
    · rw [hact] at ht
      cases ht
    · rw [hrun]
      exact h.target t (hact ▸ ht)

theorem requeueCurrent (h : Sched cfg s 0) :
    ∃ s', Kernel.enqueueRunnable cfg s s.ksCurThread = .ok s' ∧ Requeued s s' ∧ Sched cfg s' 0 ∧
      (∀ t, s'.tcbQueued t = true → s.tcbQueued t = true ∨ t = s.ksCurThread) ∧
      ∀ t, (∀ a, s.ksSchedulerAction = .switchToThread a → a = t) → AllQueued cfg s' t := by
  obtain ⟨s', hcall, hreq, hs', hqueued, hcur⟩ := h.enqueueRunnable (t := s.ksCurThread) (.inr rfl)
  refine ⟨s', hcall, hreq, hs', fun t ht => ?_, fun t htarget hone z hz hzt => ?_⟩
  · by_cases htc : t = s.ksCurThread
    · exact .inr htc
    · exact .inl (hqueued t htc ▸ ht)
  · rw [hreq.isRunnable] at hz
    by_cases hzc : z = s.ksCurThread
    · rw [hzc, hcur, ← hzc]
      exact hz
    · rw [hqueued z hzc]
      rcases h.kept hone z hz (isTcb_ne_zero (h.isTcb hz)) with hq | hc | ha
      · exact hq
      · exact absurd hc hzc
      · exact absurd (htarget z ha) hzt

theorem switchTo (h : Sched cfg s 0) (plat : Platform μ) (ht : isRunnable s t = true)
    (hall : AllQueued cfg s t) (hhigh : cfg.numDomains = 1 → Highest s (s.tcbPriority t)) :
    ∃ s', switchToThread cfg plat s t = .ok s' ∧ Scheduled s s' ∧ s'.ksCurThread = t ∧
      Settled cfg { s' with ksSchedulerAction := .resumeCurrentThread } 0 ∧
        ∀ z, s.tcbQueued z = false → s'.tcbQueued z = false := by
  obtain ⟨rq, hready⟩ := h.ready
  have hready' : Ready cfg { s with context.mem := plat.archSwitchToThread s.context.mem t } rq :=
    hready.congr rfl
  obtain ⟨s₁, rq₁, hcall, hreq, hready₁, hqueued, -⟩ := hready'.dequeue t
  have hts : s₁.tsType = s.tsType := hreq.tsType
  have hprio : s₁.tcbPriority = s.tcbPriority := hreq.tcbPriority
  have hq₁ : ∀ z, s₁.tcbQueued z = true → z ≠ t ∧ s.tcbQueued z = true := by
    intro z hz
    rw [hqueued] at hz
    by_cases hzt : z = t
    · rw [hzt, update_self] at hz
      cases hz
    · rw [update_of_ne hzt] at hz
      exact ⟨hzt, hz⟩
  have hrun : ∀ z, isRunnable s₁ z = isRunnable s z := fun z => by
    rw [isRunnable, isRunnable, hts]
  have hthreads : Threads cfg s₁ := by
    have : Threads cfg _ := hreq.threads (h.threads.congr rfl rfl rfl)
    exact this
  refine ⟨{ s₁ with ksCurThread := t }, ?_, ?_, rfl, ⟨⟨hthreads.congr rfl rfl rfl, ⟨rq₁, ?_⟩, ?_,
    ?_, ?_, ?_⟩, ?_, ?_, ?_⟩, fun z hz => Bool.eq_false_iff.mpr fun hz₁ => ?_⟩
  · rw [Kernel.switchToThread]
    simp only [bind, Except.bind]
    rw [hcall]
  · unfold Requeued at hreq
    unfold Scheduled
    rw [hreq]
  · exact ⟨hready₁.queues, hready₁.mem, hready₁.domain, hready₁.priority, hready₁.bitmaps.l2,
      hready₁.bitmaps.l1⟩
  · intro z hz
    exact (hrun z).trans (h.queued z (hq₁ z hz).2)
  · by_contra hz
    have := (hq₁ 0 (Bool.eq_true_of_not_eq_false hz)).2
    rw [h.queued_zero] at this
    cases this
  · intro hone z hz _
    by_cases hzt : z = t
    · exact .inr (.inl hzt)
    · refine .inl ?_
      show s₁.tcbQueued z = true
      rw [hqueued, update_of_ne hzt]
      exact hall hone z ((hrun z).symm.trans hz) hzt
  · exact fun _ ht => by cases ht
  · refine fun _ => ⟨.inl ((hrun t).trans ht), ?_⟩
    show s₁.tcbQueued t = false
    rw [hqueued, update_self]
  · intro hone _ z hz
    show s₁.tcbPriority z ≤ s₁.tcbPriority t
    rw [hprio]
    exact hhigh hone z (hq₁ z hz).2
  · exact fun _ _ ht => by cases ht
  · rw [(hq₁ z hz₁).2] at hz
    cases hz

theorem chooseThread (h : Sched cfg s 0) (plat : Platform μ) (hall : ∀ t, AllQueued cfg s t) :
    ∃ s', chooseThread cfg plat s = .ok s' ∧ Scheduled s s' ∧
      Settled cfg { s' with ksSchedulerAction := .resumeCurrentThread } 0 ∧
        ∀ z, isRunnable s z = true → s.tcbQueued z = false →
          s'.tcbQueued z = false ∧ z ≠ s'.ksCurThread := by
  obtain ⟨rq, hready⟩ := h.ready
  have hdom : (if 1 < cfg.numDomains then s.ksCurDomain else 0) < cfg.numDomains := by
    have := h.threads.curDomain
    split_ifs <;> omega
  have hzero : cfg.numDomains = 1 → (if 1 < cfg.numDomains then s.ksCurDomain else 0) = 0 := by
    intro hone
    rw [if_neg (by omega)]
  rw [Kernel.chooseThread]
  simp only
  generalize (if 1 < cfg.numDomains then s.ksCurDomain else 0) = dom at hdom hzero ⊢
  have hidx : cfg.numDomains = 1 → ∀ z, s.idx cfg z = cfg.readyIdx dom (s.tcbPriority z) := by
    intro hone z
    have := hready.domain z
    rw [KState.idx, hzero hone, show s.tcbDomain z = 0 by omega]
  split_ifs with hbits
  · obtain ⟨hlt, hlist, hmax⟩ := hready.bitmaps.highest hdom hbits rfl rfl
    generalize (l1IndexToPrio (highestBit (s.ksReadyQueuesL1Bitmap dom)) |||
      highestBit (s.ksReadyQueuesL2Bitmap dom (highestBit (s.ksReadyQueuesL1Bitmap dom)))) = prio
      at hlt hlist hmax ⊢
    rw [readyQueuesIndex_eq hdom]
    simp only [bind, Except.bind]
    have hholds := hready.queues.holds (cfg.readyIdx dom prio)
    have hhead := mt hholds.head_eq_zero_iff.mp hlist
    obtain ⟨hqueued, hi⟩ := (hready.mem _ _).mp (hholds.head_mem hhead)
    have hrun := h.queued _ hqueued
    obtain ⟨-, hprio⟩ := (readyIdx_inj (hready.domain _) hdom (hready.priority _) hlt).mp hi
    rw [if_neg hhead, hrun]
    simp only [Bool.true_eq_false, if_false]
    obtain ⟨s', hcall, hsched, hcur, hsettled, hout⟩ :=
      h.switchTo plat hrun (hall _) fun hone z hz => by
        rw [hprio]
        refine hmax _ (hready.priority z) fun hnil => ?_
        have := (hready.mem z _).mpr ⟨hz, hidx hone z⟩
        rw [hnil] at this
        cases this
    refine ⟨s', hcall, hsched, hsettled, fun z _ hz => ⟨hout z hz, fun heq => ?_⟩⟩
    rw [heq, hcur, hqueued] at hz
    cases hz
  · have hnone : cfg.numDomains = 1 → ∀ z, s.tcbQueued z = false := by
      intro hone z
      by_contra hz
      have := (hready.mem z _).mpr ⟨Bool.eq_true_of_not_eq_false hz, hidx hone z⟩
      rw [hready.bitmaps.empty hdom (not_not.mp hbits) (hready.priority z)] at this
      cases this
    have hidle : s.tsType s.ksIdleThread = .idleThreadState := (h.threads.idle _).mpr rfl
    have hidleq : s.tcbQueued s.ksIdleThread = false := by
      by_contra hq
      have := h.queued _ (Bool.eq_true_of_not_eq_false hq)
      rw [isRunnable, hidle] at this
      cases this
    refine ⟨_, rfl, rfl, ⟨?_, ?_, ?_, ?_⟩, fun z hz hq => ⟨hq, fun heq => ?_⟩⟩
    · refine h.congr rfl rfl (fun rq hrq => ?_) rfl h.threads.curDomain (.inl rfl) ?_
      · exact ⟨hrq.queues, hrq.mem, hrq.domain, hrq.priority, hrq.bitmaps.l2, hrq.bitmaps.l1⟩
      · exact hall s.ksIdleThread
    · exact fun _ => ⟨.inr rfl, hidleq⟩
    · intro hone _ z hz
      have := hnone hone z
      rw [show s.tcbQueued z = true from hz] at this
      cases this
    · exact fun _ _ ht => by cases ht
    · rw [isRunnable, heq.trans (show _ = s.ksIdleThread from rfl), hidle] at hz
      cases hz

end Sched

/-- The scheduler goes on without a thread that it does not know of. -/
theorem Orphaned.keep (h : Orphaned s t) (hsched : Scheduled s s') (haside : Aside s' t)
    (hcur : t ≠ s'.ksCurThread) : Orphaned s' t := by
  refine ⟨?_, haside, hcur⟩
  unfold Scheduled at hsched
  rw [isRunnable, hsched]
  exact h.run

theorem nextDomain_ok (hcfg : cfg.Ok) (hmany : 1 < cfg.numDomains) :
    ∃ idx dom time, nextDomain cfg s = .ok { s with
      ksDomScheduleIdx := idx, ksCurDomain := dom, ksDomainTime := time } ∧
        dom < cfg.numDomains := by
  obtain ⟨hne, hdoms⟩ := hcfg hmany
  have hlen := List.length_pos_iff.mpr hne
  unfold nextDomain
  have hlt : (if s.ksDomScheduleIdx + 1 ≥ cfg.ksDomSchedule.length then 0
      else s.ksDomScheduleIdx + 1) < cfg.ksDomSchedule.length := by
    split_ifs <;> omega
  simp only [List.getElem?_eq_getElem hlt]
  exact ⟨_, _, _, rfl, hdoms _ (List.getElem_mem hlt)⟩

theorem Settled.schedule (h : Settled cfg s 0) (plat : Platform μ) (hcfg : cfg.Ok) :
    ∃ s', schedule cfg plat s = .ok s' ∧ Scheduled s s' ∧ Settled cfg s' 0 ∧
      s'.ksSchedulerAction = .resumeCurrentThread ∧ ∀ t, Orphaned s t → Orphaned s' t := by
  obtain ⟨s₁, hcall₁, hreq₁, hs₁, hqueued₁, hall₁⟩ := h.toSched.requeueCurrent
  have hout₁ : ∀ t, Orphaned s t → s₁.tcbQueued t = false := fun t ht =>
    Bool.eq_false_iff.mpr fun hq => by
      rcases hqueued₁ t hq with hq | hcur
      · rw [ht.aside.1] at hq
        cases hq
      · exact ht.current hcur
  unfold Kernel.schedule
  cases haction : s.ksSchedulerAction with
  | resumeCurrentThread => exact ⟨s, rfl, rfl, h, haction, fun _ => id⟩
  | switchToThread a =>
      have hrun := (hreq₁.isRunnable a).trans (h.target a haction).1
      have hall := hall₁ a fun b hb => by
        rw [haction] at hb
        injection hb with hb
        exact hb.symm
      have hhigh : cfg.numDomains = 1 → Highest s₁ (s₁.tcbPriority a) := by
        intro hone z hz
        obtain ⟨hhigh, hcur⟩ := h.targetHighest hone a haction
        rw [hreq₁.tcbPriority]
        rcases hqueued₁ z hz with hq | rfl
        · exact hhigh z hq
        · exact hcur
      obtain ⟨s₂, hcall₂, hsched, hcur, hsettled, hout⟩ := hs₁.switchTo plat hrun hall hhigh
      have hto : Scheduled s { s₂ with ksSchedulerAction := .resumeCurrentThread } :=
        (hreq₁.rescheduled.scheduled.trans hsched).trans rfl
      refine ⟨_, ?_, hto, hsettled, rfl, fun t ht =>
        ht.keep hto ⟨hout t (hout₁ t ht), fun hc => by cases hc⟩ fun heq => ?_⟩
      · simp only [bind, Except.bind]
        rw [hcall₁]
        dsimp only
        rw [hcall₂]
      · exact ht.aside.2 (haction.trans (congrArg _ (hcur.symm.trans heq.symm)))
  | chooseNewThread =>
      have hall : ∀ t, AllQueued cfg s₁ t := fun t => hall₁ t fun a ha => by
        rw [haction] at ha
        cases ha
      have hnext : ∃ s₂, nextDomainIfDue cfg s₁ = .ok s₂ ∧ Scheduled s₁ s₂ ∧ Sched cfg s₂ 0 ∧
          (∀ t, AllQueued cfg s₂ t) ∧ s₂.tcbQueued = s₁.tcbQueued := by
        rw [nextDomainIfDue]
        split_ifs with htime
        · obtain ⟨idx, dom, time, hcall, hdom⟩ := nextDomain_ok (s := s₁) hcfg htime.1
          refine ⟨_, hcall, rfl, ?_, hall, rfl⟩
          refine hs₁.congr rfl rfl (fun rq hrq => ?_) rfl hdom (.inr rfl) (hall _)
          exact ⟨hrq.queues, hrq.mem, hrq.domain, hrq.priority, hrq.bitmaps.l2, hrq.bitmaps.l1⟩
        · exact ⟨s₁, rfl, rfl, hs₁, hall, rfl⟩
      obtain ⟨s₂, hcall₂, hsched₂, hs₂, hall₂, hqueued₂⟩ := hnext
      obtain ⟨s₃, hcall₃, hsched₃, hsettled, hout⟩ := hs₂.chooseThread plat hall₂
      have hto₂ : Scheduled s s₂ := hreq₁.rescheduled.scheduled.trans hsched₂
      have hto : Scheduled s { s₃ with ksSchedulerAction := .resumeCurrentThread } :=
        (hto₂.trans hsched₃).trans rfl
      refine ⟨_, ?_, hto, hsettled, rfl, fun t ht => ?_⟩
      · simp only [bind, Except.bind]
        rw [hcall₁]
        dsimp only
        rw [hcall₂]
        dsimp only
        rw [hcall₃]
      · have hrun : isRunnable s₂ t = true := by
          unfold Scheduled at hto₂
          rw [isRunnable, hto₂]
          exact ht.run
        obtain ⟨hq, hcur⟩ := hout t hrun (hqueued₂ ▸ hout₁ t ht)
        exact ht.keep hto ⟨hq, fun hc => by cases hc⟩ hcur

/-! ## The operations on the scheduler -/

theorem tcbSchedDequeue_tsType (f : Nat → ThreadStateType) :
    tcbSchedDequeue cfg { s with tsType := f } t =
      (tcbSchedDequeue cfg s t).map fun s' => { s' with tsType := f } := by
  by_cases hq : s.tcbQueued t = true
  · simp only [tcbSchedDequeue, hq, if_true]
    cases readyQueuesIndex cfg (s.tcbDomain t) (s.tcbPriority t) with
    | error e => rfl
    | ok idx =>
        simp only [bind, Except.bind]
        by_cases hp : s.tcbSchedPrev t = 0
        · by_cases hn : s.tcbSchedNext t = 0
          · simp only [hp, hn, if_true, removeFromBitmap_tcbSchedNext]
            rfl
          · simp only [hp, hn, if_true, if_false]
            rfl
        · simp only [hp, if_false]
          split_ifs <;> rfl
  · simp only [tcbSchedDequeue, hq]
    rfl

namespace Settled

/-- What the scheduler does not read is free to change. -/
theorem congr (h : Settled cfg s x) (hpart : s'.schedPart = s.schedPart)
    (hthreads : Threads cfg s') (hrun : ∀ t, isRunnable s' t = isRunnable s t) :
    Settled cfg s' x := by
  have hs := h.toSched.transport hpart hthreads hrun
  injection hpart with h1 h2 h3 h4 h5 h6 h7 h8 h9 h10 h11 h12
  refine ⟨hs, ?_, ?_, ?_⟩
  · intro hact
    rw [hrun, h1, h9, h10]
    exact h.current (h11 ▸ hact)
  · intro hone hact t ht
    rw [h3, h9]
    exact h.highest hone (h11 ▸ hact) t (h1 ▸ ht)
  · intro hone t ht
    obtain ⟨hhigh, hcur⟩ := h.targetHighest hone t (h11 ▸ ht)
    rw [h3, h9]
    exact ⟨fun z hz => by rw [h3]; exact hhigh z (h1 ▸ hz), hcur⟩

theorem frame (h : Settled cfg s x) (hpart : s'.schedPart = s.schedPart)
    (hts : s'.tsType = s.tsType) : Settled cfg s' x := by
  have hthreads : Threads cfg s' := by
    injection hpart with h1 h2 h3 h4 h5 h6 h7 h8 h9 h10 h11 h12
    exact h.threads.congr hts h10 h12
  exact h.congr hpart hthreads fun t => by rw [isRunnable, isRunnable, hts]

theorem activateThread (h : Settled cfg s 0) (plat : Platform μ)
    (hact : s.ksSchedulerAction = .resumeCurrentThread) :
    ∃ s', activateThread cfg plat s = .ok s' ∧ Settled cfg s' 0 ∧
      s'.ksSchedulerAction = .resumeCurrentThread ∧
      (s' = s ∨ s.tsType s.ksCurThread = .restart ∧ s' = { s with
        tsType := update s.tsType s.ksCurThread .running
        context := s'.context }) := by
  have hcur := (h.current hact).1
  rw [isRunnable, ← h.threads.idle] at hcur
  rw [Kernel.activateThread]
  cases hts : s.tsType s.ksCurThread with
  | running => exact ⟨s, rfl, h, hact, .inl rfl⟩
  | runningVM => exact ⟨s, rfl, h, hact, .inl rfl⟩
  | idleThreadState => exact ⟨s, rfl, h, hact, .inl rfl⟩
  | restart =>
      have hidle : s.ksCurThread ≠ s.ksIdleThread := fun heq => by
        rw [(h.threads.idle _).mpr heq] at hts
        cases hts
      have hrun : ∀ (c : Context μ) (t : Nat), isRunnable { s with
          tsType := update s.tsType s.ksCurThread .running, context := c } t = isRunnable s t := by
        intro c t
        simp only [isRunnable]
        by_cases ht : t = s.ksCurThread
        · rw [ht, update_self, hts]
          rfl
        · rw [update_of_ne ht]
      have htcb := h.threads.tcb s.ksCurThread (by rw [hts]; decide)
      dsimp only
      rw [Kernel.setThreadState, scheduleTCB, if_neg]
      · refine ⟨_, rfl, ?_, hact, .inr ⟨rfl, rfl⟩⟩
        refine h.congr rfl ?_ (hrun _)
        exact h.threads.restate rfl rfl rfl htcb hidle (by decide)
      · rw [hrun, isRunnable, hts]
        exact fun hc => by cases hc.2.2
  | inactive | blockedOnReceive | blockedOnSend | blockedOnReply | blockedOnAsyncEvent =>
      rw [hts] at hcur
      exact hcur.elim (fun hc => by cases hc) (fun hc => by cases hc)

/-- A thread's priority or domain is changed. It is not to rise above the priority of the thread
that runs, or is to run next. -/
theorem reassign (h : Settled cfg s 0) (assign : KState μ → KState μ) {dom prio : Nat}
    (hassign : ∀ s₁, Requeued s s₁ → assign s₁ = { s₁ with
      tcbDomain := update s₁.tcbDomain t dom
      tcbPriority := update s₁.tcbPriority t prio })
    (ht : s.ksSchedulerAction ≠ .switchToThread t) (hdom : dom < cfg.numDomains)
    (hprio : prio < numPriorities)
    (hcur : isRunnable s t = true → t ≠ s.ksCurThread → cfg.numDomains = 1 →
      s.ksSchedulerAction = .resumeCurrentThread → prio ≤ s.tcbPriority s.ksCurThread)
    (htarget : isRunnable s t = true → cfg.numDomains = 1 → ∀ a,
      s.ksSchedulerAction = .switchToThread a → prio ≤ s.tcbPriority a) :
    ∃ s', reassign cfg s t assign = .ok s' ∧ Scheduled s s' ∧ Settled cfg s' 0 ∧
      s'.ksCurThread = s.ksCurThread ∧ ∀ z, z ≠ t → Aside s z → Aside s' z := by
  obtain ⟨s₁, hcall₁, hreq₁, hs₁, hqueued₁⟩ := h.dequeue (.inr rfl) ht
  obtain ⟨s₂, hs₂⟩ : ∃ s₂, s₂ = { s₁ with
    tcbDomain := update s₁.tcbDomain t dom
    tcbPriority := update s₁.tcbPriority t prio } := ⟨_, rfl⟩
  have hsched₂ : Sched cfg s₂ t := by
    obtain ⟨rq, hready⟩ := hs₁.ready
    subst hs₂
    exact ⟨hs₁.threads.congr rfl rfl rfl, ⟨rq, hready.assign hs₁.handed hdom hprio⟩, hs₁.queued,
      hs₁.handed, hs₁.kept, hs₁.target⟩
  obtain ⟨s₃, hcall₃, hreq₃, hs₃, hqueued₃, hqt₃⟩ := hsched₂.enqueueRunnable (.inl rfl)
  have hto₃ : Scheduled s s₃ := by
    unfold Requeued at hreq₁ hreq₃
    unfold Scheduled
    rw [hreq₃, hs₂, hreq₁]
  have hcur₃ : s₃.ksCurThread = s.ksCurThread := by
    rw [hreq₃.ksCurThread, hs₂]
    exact hreq₁.ksCurThread
  have hact₃ : s₃.ksSchedulerAction = s.ksSchedulerAction := by
    rw [hreq₃.ksSchedulerAction, hs₂]
    exact hreq₁.ksSchedulerAction
  have hrun₃ : ∀ z, isRunnable s₃ z = isRunnable s z := by
    intro z
    rw [hreq₃.isRunnable, hs₂]
    exact hreq₁.isRunnable z
  have hprio₃ : s₃.tcbPriority = update s.tcbPriority t prio := by
    rw [hreq₃.tcbPriority, hs₂]
    exact congrArg (update · t prio) hreq₁.tcbPriority
  have hq₃ : ∀ z, z ≠ t → s₃.tcbQueued z = s.tcbQueued z := by
    intro z hz
    rw [hqueued₃ z hz, hs₂]
    show s₁.tcbQueued z = _
    rw [hqueued₁, update_of_ne hz]
  have haside₃ : ∀ z, z ≠ t → Aside s z → Aside s₃ z := fun z hz ha =>
    ⟨(hq₃ z hz).trans ha.1, by rw [hact₃]; exact ha.2⟩
  have hcall : ∀ r, (if t = s₃.ksCurThread then rescheduleRequired cfg s₃ else .ok s₃) = r →
      Kernel.reassign cfg s t assign = r := by
    intro r hr
    rw [Kernel.reassign]
    simp only [bind, Except.bind]
    rw [hcall₁]
    dsimp only
    rw [hassign s₁ hreq₁, ← hs₂, hcall₃]
    exact hr
  by_cases htc : t = s₃.ksCurThread
  · obtain ⟨s₄, hcall₄, hres, hsettled, haside₄⟩ := hs₃.reschedule
    refine ⟨s₄, hcall _ ?_, hto₃.trans hres.scheduled, hsettled, ?_,
      fun z hz ha => haside₄ z (haside₃ z hz ha)⟩
    · rw [if_pos htc, hcall₄]
    · unfold Rescheduled at hres
      rw [hres]
      exact hcur₃
  · have htc' : t ≠ s.ksCurThread := hcur₃ ▸ htc
    refine ⟨s₃, hcall _ (if_neg htc), hto₃, ⟨hs₃, fun hact => ?_, fun hone hact z hz => ?_,
      fun hone a ha => ?_⟩, hcur₃, haside₃⟩
    · obtain ⟨hrun, hq⟩ := h.current (hact₃.symm.trans hact)
      rw [hrun₃, hcur₃, hq₃ _ htc'.symm]
      refine ⟨hrun.imp id fun hidle => hidle.trans ?_, hq⟩
      unfold Scheduled at hto₃
      rw [hto₃]
    · rw [hprio₃, hcur₃, update_of_ne htc'.symm]
      have hact' := hact₃.symm.trans hact
      by_cases hzt : z = t
      · subst hzt
        rw [update_self]
        refine hcur ?_ htc' hone hact'
        rw [← hrun₃]
        exact hs₃.queued z hz
      · rw [update_of_ne hzt]
        exact h.highest hone hact' z (hq₃ z hzt ▸ hz)
    · have ha' := hact₃.symm.trans ha
      have hat : a ≠ t := fun hat => ht (hat ▸ ha')
      obtain ⟨hhigh, hle⟩ := h.targetHighest hone a ha'
      rw [hprio₃, hcur₃, update_of_ne htc'.symm, update_of_ne hat]
      refine ⟨fun z hz => ?_, hle⟩
      rw [hprio₃]
      by_cases hzt : z = t
      · subst hzt
        rw [update_self]
        refine htarget ?_ hone a ha'
        rw [← hrun₃]
        exact hs₃.queued z hz
      · rw [update_of_ne hzt]
        exact hhigh z (hq₃ z hzt ▸ hz)

/-- A thread's priority becomes one that the current thread's allows. -/
theorem setPriority (h : Settled cfg s 0) {prio : Nat}
    (ht : s.ksSchedulerAction ≠ .switchToThread t) (hprio : prio < numPriorities)
    (hle : prio ≤ s.tcbPriority s.ksCurThread) :
    ∃ s', setPriority cfg s t prio = .ok s' ∧ Scheduled s s' ∧ Settled cfg s' 0 := by
  obtain ⟨rq, hready⟩ := h.ready
  obtain ⟨s', hcall, hsched, hsettled, -⟩ := h.reassign (t := t)
    (fun s : KState μ => { s with tcbPriority := update s.tcbPriority t prio })
    (fun s₁ hreq => by rw [← hreq.tcbDomain, update_eq_self]) ht (hready.domain t) hprio
    (fun _ _ _ _ => hle)
    (fun _ hone a ha => hle.trans (h.targetHighest hone a ha).2)
  exact ⟨s', hcall, hsched, hsettled⟩

theorem setDomain (h : Settled cfg s 0) {dom : Nat}
    (ht : s.ksSchedulerAction ≠ .switchToThread t) (hdom : dom < cfg.numDomains) :
    ∃ s', setDomain cfg s t dom = .ok s' ∧ Scheduled s s' ∧ Settled cfg s' 0 := by
  obtain ⟨rq, hready⟩ := h.ready
  have hkept := fun (hrun : isRunnable s t = true) hone =>
    h.kept hone t hrun (isTcb_ne_zero (h.isTcb hrun))
  obtain ⟨s', hcall, hsched, hsettled, -⟩ := h.reassign (t := t)
    (fun s : KState μ => { s with tcbDomain := update s.tcbDomain t dom })
    (fun s₁ hreq => by rw [← hreq.tcbPriority, update_eq_self]) ht hdom (hready.priority t)
    (fun hrun htc hone hact => h.highest hone hact t
      (((hkept hrun hone).resolve_right fun hor => hor.elim htc ht)))
    (fun hrun hone a ha => by
      rcases hkept hrun hone with hq | hc | hact
      · exact (h.targetHighest hone a ha).1 t hq
      · rw [hc]
        exact (h.targetHighest hone a ha).2
      · exact absurd hact ht)
  exact ⟨s', hcall, hsched, hsettled⟩

theorem tickTimeSlice (h : Settled cfg s 0) :
    ∃ s', tickTimeSlice cfg s = .ok s' ∧ Scheduled s s' ∧ Settled cfg s' 0 ∧
      ∀ t, Orphaned s t → Orphaned s' t := by
  unfold Kernel.tickTimeSlice
  dsimp only
  split_ifs with hrun hslice
  · exact ⟨_, rfl, rfl, h.frame rfl rfl, fun t ht => ht.keep rfl ht.aside ht.current⟩
  · have htick : Settled cfg { s with
        tcbTimeSlice := update s.tcbTimeSlice s.ksCurThread cfg.timeSlice } 0 := h.frame rfl rfl
    obtain ⟨s₁, hcall₁, hreq₁, hs₁, hqueued₁⟩ := htick.append hrun (.inl rfl)
      (Ne.symm (isTcb_ne_zero (h.isTcb hrun)))
    obtain ⟨s₂, hcall₂, hres₂, hsettled, haside⟩ := hs₁.reschedule
    have hto : Scheduled s s₂ := by
      refine Scheduled.trans ?_ hres₂.scheduled
      unfold Requeued at hreq₁
      unfold Scheduled
      rw [hreq₁]
    refine ⟨s₂, ?_, hto, hsettled, fun t ht => ht.keep hto (haside t ⟨?_, ?_⟩) ?_⟩
    · simp only [bind, Except.bind]
      rw [hcall₁]
      exact hcall₂
    · rw [hqueued₁, update_of_ne ht.current]
      exact ht.aside.1
    · rw [hreq₁.ksSchedulerAction]
      exact ht.aside.2
    · rw [hres₂.ksCurThread, hreq₁.ksCurThread]
      exact ht.current
  · exact ⟨s, rfl, rfl, h, fun _ => id⟩

theorem timerTick (h : Settled cfg s 0) :
    ∃ s', timerTick cfg s = .ok s' ∧ Scheduled s s' ∧ Settled cfg s' 0 ∧
      ∀ t, Orphaned s t → Orphaned s' t := by
  obtain ⟨s₁, hcall₁, hsched₁, hs₁, hout₁⟩ := h.tickTimeSlice
  rw [Kernel.timerTick]
  simp only [bind, Except.bind]
  rw [hcall₁]
  dsimp only
  generalize wordDec s₁.ksDomainTime = time
  have hs : Settled cfg { s₁ with ksDomainTime := time } 0 := hs₁.frame rfl rfl
  have hto : Scheduled s { s₁ with ksDomainTime := time } := hsched₁.trans rfl
  split_ifs with hmany hzero
  · obtain ⟨s₂, hcall₂, hres₂, hs₂, haside⟩ := hs.reschedule
    refine ⟨s₂, hcall₂, hto.trans hres₂.scheduled, hs₂, fun t ht => ?_⟩
    refine ht.keep (hto.trans hres₂.scheduled) (haside t (hout₁ t ht).aside) ?_
    rw [hres₂.ksCurThread]
    exact (hout₁ t ht).current
  · exact ⟨_, rfl, hto, hs, fun t ht => ht.keep hto (hout₁ t ht).aside (hout₁ t ht).current⟩
  · exact ⟨s₁, rfl, hsched₁, hs₁, hout₁⟩

theorem handleYield (h : Settled cfg s 0) (hrun : isRunnable s s.ksCurThread = true)
    (ht : s.ksSchedulerAction ≠ .switchToThread s.ksCurThread) :
    ∃ s', handleYield cfg s = .ok s' ∧ Scheduled s s' ∧ Settled cfg s' 0 ∧
      ∀ t, Orphaned s t → Orphaned s' t := by
  have h0 := isTcb_ne_zero (h.isTcb hrun)
  obtain ⟨s₁, hcall₁, hreq₁, hs₁, hqueued₁⟩ := h.dequeue (.inr rfl) ht
  obtain ⟨s₂, hcall₂, hreq₂, hs₂, hqueued₂⟩ := hs₁.append (y := 0)
    ((hreq₁.isRunnable _).trans hrun) (.inr ⟨rfl, rfl⟩) (Ne.symm h0)
  obtain ⟨s₃, hcall₃, hres₃, hs₃, haside⟩ := hs₂.reschedule
  have hreq := hreq₁.trans hreq₂
  have hto : Scheduled s s₃ := (hreq.rescheduled.trans hres₃).scheduled
  refine ⟨s₃, ?_, hto, hs₃, fun t ht => ht.keep hto (haside t ⟨?_, ?_⟩) ?_⟩
  · rw [Kernel.handleYield]
    simp only [bind, Except.bind]
    rw [hcall₁]
    dsimp only
    rw [hreq₁.ksCurThread, hcall₂]
    exact hcall₃
  · rw [hqueued₂, update_of_ne ht.current, hqueued₁, update_of_ne ht.current]
    exact ht.aside.1
  · rw [hreq.ksSchedulerAction]
    exact ht.aside.2
  · rw [hres₃.ksCurThread, hreq.ksCurThread]
    exact ht.current

theorem dequeue (h : Settled cfg s 0) (ht : s.ksSchedulerAction ≠ .switchToThread t) :
    ∃ s', tcbSchedDequeue cfg s t = .ok s' ∧ Requeued s s' ∧ Settled cfg s' t ∧
      ∀ z, Aside s z → Aside s' z := by
  obtain ⟨s', hcall, hreq, hs', hqueued⟩ := h.toSched.dequeue (.inr rfl) ht
  have hq : ∀ z, s'.tcbQueued z = true → s.tcbQueued z = true := by
    intro z hz
    by_cases hzt : z = t
    · rw [hqueued, hzt, update_self] at hz
      cases hz
    · rwa [hqueued, update_of_ne hzt] at hz
  have hq' : ∀ z, s.tcbQueued z = false → s'.tcbQueued z = false := fun z hz =>
    Bool.eq_false_iff.mpr fun hz' => Bool.eq_false_iff.mp hz (hq z hz')
  have hidle : s'.ksIdleThread = s.ksIdleThread := by
    unfold Requeued at hreq
    rw [hreq]
  refine ⟨s', hcall, hreq, ⟨hs', ?_, ?_, ?_⟩, fun z ha => ⟨hq' z ha.1, ?_⟩⟩
  · intro hact
    obtain ⟨hrun, hcur⟩ := h.current (hreq.ksSchedulerAction ▸ hact)
    rw [hreq.isRunnable, hreq.ksCurThread, hidle]
    exact ⟨hrun, hq' _ hcur⟩
  · intro hone hact z hz
    rw [hreq.tcbPriority, hreq.ksCurThread]
    exact h.highest hone (hreq.ksSchedulerAction ▸ hact) z (hq z hz)
  · intro hone a ha
    obtain ⟨hhigh, hcur⟩ := h.targetHighest hone a (hreq.ksSchedulerAction ▸ ha)
    rw [hreq.tcbPriority, hreq.ksCurThread]
    refine ⟨fun z hz => ?_, hcur⟩
    rw [hreq.tcbPriority]
    exact hhigh z (hq z hz)
  · rw [hreq.ksSchedulerAction]
    exact ha.2

/-- A thread that is to run no longer is given its state before it is taken out of its queue. -/
theorem park (h : Settled cfg s 0) (ts : ThreadStateType)
    (ht : s.ksSchedulerAction ≠ .switchToThread t) (htcb : IsTcb t) (hidle : t ≠ s.ksIdleThread)
    (hts : ts.isRunnable = false) (hnot : ts ≠ .idleThreadState) :
    ∃ s₁ s', Kernel.setThreadState cfg s t ts = .ok s₁ ∧ tcbSchedDequeue cfg s₁ t = .ok s' ∧
      Rescheduled { s with tsType := update s.tsType t ts } s' ∧ Settled cfg s' 0 := by
  have hnot' : ts ≠ .idleThreadState ∧ ts ≠ .runningVM := ⟨hnot, by rintro rfl; cases hts⟩
  have hstopped : ∀ {s₁ : KState μ}, Rescheduled { s with tsType := update s.tsType t ts } s₁ →
      isRunnable s₁ t = false := by
    intro s₁ hres
    unfold Rescheduled at hres
    rw [isRunnable, hres]
    simpa using hts
  by_cases hq : s.tcbQueued t = true
  · -- the current thread is in no queue
    have hcur : ¬ (t = s.ksCurThread ∧ s.ksSchedulerAction = .resumeCurrentThread) := by
      rintro ⟨rfl, hact⟩
      rw [(h.current hact).2] at hq
      cases hq
    obtain ⟨s₂, hcall, hreq, hs₂, -⟩ := h.dequeue ht
    have hidle₂ : s₂.ksIdleThread = s.ksIdleThread := by
      unfold Requeued at hreq
      rw [hreq]
    obtain ⟨s₃, hcall₃, -, hs₃, -⟩ := hs₂.setThreadState ts htcb (hidle₂ ▸ hidle) hnot'
    rw [Kernel.setThreadState, scheduleTCB, if_neg fun hc => hcur ⟨hreq.ksCurThread ▸ hc.1,
      hreq.ksSchedulerAction ▸ hc.2.1⟩] at hcall₃
    injection hcall₃ with hs₃'
    have hto : Rescheduled { s with tsType := update s.tsType t ts } s₃ := by
      unfold Requeued at hreq
      unfold Rescheduled
      rw [← hs₃', hreq]
    refine ⟨{ s with tsType := update s.tsType t ts }, s₃, ?_, ?_, hto,
      hs₃.release fun _ => hstopped hto⟩
    · rw [Kernel.setThreadState, scheduleTCB, if_neg fun hc => hcur ⟨hc.1, hc.2.1⟩]
    · rw [tcbSchedDequeue_tsType, hcall, ← hs₃', hreq.tsType]
      rfl
  · obtain ⟨s₁, hcall₁, hres₁, hs₁, haside⟩ :=
      (h.take ⟨Bool.eq_false_iff.mpr hq, ht⟩).setThreadState ts htcb hidle hnot'
    have hout := (haside t ⟨Bool.eq_false_iff.mpr hq, ht⟩).1
    refine ⟨s₁, s₁, hcall₁, ?_, hres₁, hs₁.release fun _ => hstopped hres₁⟩
    rw [tcbSchedDequeue, hout]
    rfl

end Settled

end PartitionSeL4.Kernel
