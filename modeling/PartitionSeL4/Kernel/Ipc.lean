import PartitionSeL4.Kernel.Cancel
import PartitionSeL4.Kernel.Replies

/-!
# The operations keep the kernel's invariants

* `KInv`: the scheduler is settled, the queues of the endpoints hold the threads that wait there,
  and each reply capability is for a thread that waits for the reply.
* `KInv.sendIPC`, `KInv.receiveIPC` and so on: an operation runs without a failed assertion and
  keeps the invariants.
-/

namespace PartitionSeL4.Kernel

open Lib Function

variable {μ : Type} {cfg : Config} {s s' s₁ : KState μ}
  {q : QueueId → List Nat} {i : QueueId} {t : Nat} {ts : ThreadStateType}

/-- The kernel's invariants between operations. -/
structure KInv (cfg : Config) (s : KState μ) (q : QueueId → List Nat) : Prop where
  settled : Settled cfg s 0
  waiting : Waiting s q
  replies : s.Replies

/-- The part of the state that the invariants are about. -/
structure KPart where
  sched : SchedPart
  ep : EpPart
  tcbReply : Nat → Option Nat
  replyCap : Nat → Nat

def KState.part (s : KState μ) : KPart := ⟨s.schedPart, s.epPart, s.tcbReply, s.replyCap⟩

theorem KState.part_inj (h : s'.part = s.part) : s'.schedPart = s.schedPart ∧ s'.epPart = s.epPart ∧
    s'.tcbReply = s.tcbReply ∧ s'.replyCap = s.replyCap ∧ s'.tsType = s.tsType := by
  injection h with h1 h2 h3 h4
  exact ⟨h1, h2, h3, h4, congrArg EpPart.tsType h2⟩

theorem KState.epPart_tsType {f : Nat → ThreadStateType} (h : s'.epPart = s.epPart) :
    KState.epPart { s' with tsType := f } = KState.epPart { s with tsType := f } := by
  injection h with h1 h2 h3 h4 h5 h6 h7 h8
  simp only [KState.epPart, h2, h3, h4, h5, h6, h7, h8]

theorem Scheduled.replies (h : Scheduled s s') (hr : s.Replies) : s'.Replies := by
  unfold Scheduled at h
  rw [h]
  exact hr

theorem KInv.congr (h : KInv cfg s q) (hpart : s'.part = s.part) : KInv cfg s' q := by
  obtain ⟨hsched, hep, hreply, hcap, hts⟩ := KState.part_inj hpart
  refine ⟨h.settled.frame hsched hts, h.waiting.congr hep, ?_⟩
  rw [KState.Replies, hts, hreply, hcap]
  exact h.replies

/-- The scheduler's operations keep the rest of the invariants. -/
theorem KInv.scheduled (h : KInv cfg s q) (hsched : Scheduled s s') (hs : Settled cfg s' 0) :
    KInv cfg s' q :=
  ⟨hs, h.waiting.congr hsched.epPart, hsched.replies h.replies⟩

/-- The current thread can run, and no operation has dealt with it yet. -/
structure Acting (s : KState μ) : Prop where
  run : isRunnable s s.ksCurThread = true
  aside : Aside s s.ksCurThread

theorem Settled.acting (h : Settled cfg s 0) (hact : s.ksSchedulerAction = .resumeCurrentThread)
    (hidle : s.ksCurThread ≠ s.ksIdleThread) : Acting s := by
  obtain ⟨hcur, hq⟩ := h.current hact
  refine ⟨hcur.resolve_right hidle, hq, ?_⟩
  rw [hact]
  exact fun hc => by cases hc

theorem Acting.keep (h : Acting s) (hcur : s'.ksCurThread = s.ksCurThread)
    (hts : s'.tsType s.ksCurThread = s.tsType s.ksCurThread)
    (haside : Aside s s.ksCurThread → Aside s' s.ksCurThread) : Acting s' := by
  constructor
  · rw [isRunnable, hcur, hts]
    exact h.run
  · rw [hcur]
    exact haside h.aside

theorem Sched.ne_idle (h : Sched cfg s 0) (ht : isRunnable s t = true) : t ≠ s.ksIdleThread := by
  intro heq
  rw [isRunnable, (h.threads.idle t).mpr heq] at ht
  cases ht

theorem notWaiting_of_isRunnable (h : isRunnable s t = true) : (s.tsType t).NotWaiting := by
  rw [isRunnable] at h
  refine ⟨?_, ?_, ?_⟩ <;>
  · intro hts
    rw [hts] at h
    cases h

/-! ## Parts of the operations -/

theorem setThreadState_of_isRunnable (hts : ts.isRunnable = true) :
    setThreadState cfg s t ts = .ok { s with tsType := update s.tsType t ts } := by
  rw [setThreadState, scheduleTCB, if_neg]
  rintro ⟨-, -, hrun⟩
  rw [isRunnable] at hrun
  simp only [update_self, hts] at hrun
  cases hrun

theorem Settled.stop (h : Settled cfg s 0) (ts : ThreadStateType) (s₁ : KState μ) (ht : Aside s t)
    (htcb : IsTcb t) (hidle : t ≠ s.ksIdleThread) (hpart : s₁.schedPart = s.schedPart)
    (htype : s₁.tsType = update s.tsType t ts) (hts : ts.isRunnable = false)
    (hnot : ts ≠ .idleThreadState) :
    ∃ s₂, scheduleTCB cfg s₁ t = .ok s₂ ∧ Rescheduled s₁ s₂ ∧ Settled cfg s₂ 0 ∧
      ∀ z, Aside s z → Aside s₂ z := by
  obtain ⟨s₂, hcall, hres, hs₂, haside⟩ := (h.take ht).setState hpart htype htcb hidle
    ⟨hnot, by rintro rfl; cases hts⟩
  refine ⟨s₂, hcall, hres, hs₂.release fun _ => ?_, haside⟩
  unfold Rescheduled at hres
  rw [isRunnable, hres, htype, update_self]
  exact hts

theorem Settled.wake (h : Settled cfg s 0) (ht : Blocked s t) (onSame : Bool) (s₁ : KState μ)
    (hpart : s₁.schedPart = s.schedPart) (htype : s₁.tsType = update s.tsType t ts)
    (hts : ts.isRunnable = true) (hvm : ts ≠ .runningVM) :
    ∃ s₂, Kernel.possibleSwitchTo cfg s₁ t onSame = .ok s₂ ∧ Rescheduled s₁ s₂ ∧ Settled cfg s₂ 0 ∧
      ∀ z, z ≠ t → Aside s z → Aside s₂ z := by
  have haside := h.aside ht.stopped
  obtain ⟨s₁', hcall, hres, hs₁, -⟩ := (h.take haside).setState hpart htype ht.tcb ht.idle
    ⟨(by rintro rfl; cases hts), hvm⟩
  have hrun : isRunnable s₁ t = true := by
    rw [isRunnable, htype, update_self]
    exact hts
  rw [scheduleTCB, if_neg fun hc => by rw [hrun] at hc; cases hc.2.2] at hcall
  injection hcall with hcall
  subst hcall
  have hne := h.ne_current ht.stopped ht.idle
  injection hpart with h1 h2 h3 h4 h5 h6 h7 h8 h9 h10 h11 h12
  obtain ⟨s₂, hcall₂, hres₂, hs₂, haside₂⟩ :=
    hs₁.possibleSwitchTo (.inl rfl) hrun onSame fun hact => by
      rw [h9]
      exact hne (h11 ▸ hact)
  refine ⟨s₂, hcall₂, hres₂, hs₂, fun z hz ha => haside₂ z hz ⟨?_, ?_⟩⟩
  · rw [h1]
    exact ha.1
  · rw [h11]
    exact ha.2

theorem Settled.restartThread (h : Settled cfg s 0) (ht : Blocked s t) :
    ∃ s₁ s₂ s₃, Kernel.setThreadState cfg s t .restart = .ok s₁ ∧
      tcbSchedEnqueue cfg s₁ t = .ok s₂ ∧ switchIfRequiredTo cfg s₂ t = .ok s₃ ∧
      Rescheduled { s with tsType := update s.tsType t .restart } s₃ ∧ Settled cfg s₃ 0 := by
  have hrun : isRunnable { s with tsType := update s.tsType t .restart } t = true := by
    simp [isRunnable, ThreadStateType.isRunnable]
  have hs₁ : Sched cfg { s with tsType := update s.tsType t .restart } t :=
    (h.toSched.take (h.aside ht.stopped)).restate rfl rfl ht.tcb ht.idle (by decide)
  obtain ⟨s₂, hcall₂, hreq, hs₂, hqueued⟩ := hs₁.enqueue (y := 0) hrun (.inr ⟨rfl, rfl⟩)
    (isTcb_ne_zero ht.tcb).symm
  have hne := h.ne_current ht.stopped ht.idle
  have hact : s₂.ksSchedulerAction = s.ksSchedulerAction := hreq.ksSchedulerAction
  have hcur : s₂.ksCurThread = s.ksCurThread := hreq.ksCurThread
  have hprio : s₂.tcbPriority = s.tcbPriority := hreq.tcbPriority
  have hq : ∀ z, z ≠ t → s₂.tcbQueued z = s.tcbQueued z := by
    intro z hz
    rw [hqueued, update_of_ne hz]
  obtain ⟨s₃, hcall₃, hres, hs₃, -⟩ := Settled.possibleSwitchTo_of_sched (t := t) hs₂ (.inr rfl)
    ((hreq.isRunnable t).trans hrun) false
    (fun hresume => by
      rw [hact] at hresume
      obtain ⟨hcurrent, hcq⟩ := h.current hresume
      have hct := (hne hresume).symm
      rw [hcur, hq _ hct]
      refine ⟨?_, hcq, hne hresume⟩
      rw [hreq.isRunnable, isRunnable]
      dsimp only
      rw [update_of_ne hct]
      refine hcurrent.imp id fun heq => heq.trans ?_
      unfold Requeued at hreq
      rw [hreq])
    (fun hone hresume z hz hzq => by
      rw [hprio, hcur]
      exact h.highest hone (hact.symm.trans hresume) z (hq z hz ▸ hzq))
  exact ⟨_, s₂, s₃, setThreadState_of_isRunnable rfl, hcall₂, hcall₃, hreq.rescheduled.trans hres,
    hs₃⟩

theorem leaveQueue_part : (leaveQueue s t i).schedPart = s.schedPart ∧
    (leaveQueue s t i).tsType = s.tsType ∧ (leaveQueue s t i).tcbReply = s.tcbReply ∧
    (leaveQueue s t i).replyCap = s.replyCap := by
  rw [leaveQueue_frame]
  exact ⟨rfl, rfl, rfl, rfl⟩

namespace KInv

theorem queued (h : KInv cfg s q) (ht : t ∈ q i) :
    Blocked s t ∧ s.tsType t ≠ .blockedOnReply ∧ s.tcbReply t ≠ none := by
  obtain ⟨-, hactive, hidle⟩ := h.waiting.blocked ht
  refine ⟨h.settled.blocked h.waiting ht, fun hreply => ?_, h.replies.master t hactive hidle⟩
  refine h.waiting.not_mem (waitsOn_eq_none ?_) i ht
  rw [hreply]
  decide

theorem wake (h : KInv cfg s q) (ht : t ∈ q i) (onSame : Bool) (ts : ThreadStateType)
    (s₁ : KState μ) (hts : ts.isRunnable = true) (hvm : ts ≠ .runningVM)
    (hpart : s₁.part = KState.part { leaveQueue s t i with
      tsType := update (leaveQueue s t i).tsType t ts }) :
    ∃ s₂, possibleSwitchTo cfg s₁ t onSame = .ok s₂ ∧ Rescheduled s₁ s₂ ∧
      KInv cfg s₂ (update q i ((q i).erase t)) ∧ ∀ z, z ≠ t → Aside s z → Aside s₂ z := by
  obtain ⟨hblocked, hreply, hmaster⟩ := h.queued ht
  obtain ⟨hsched, hep, hmap, hcap, htype⟩ := KState.part_inj hpart
  obtain ⟨hsched', htype', hmap', hcap'⟩ := leaveQueue_part (s := s) (t := t) (i := i)
  have hrecv : ts ≠ .blockedOnReceive := by
    rintro rfl
    cases hts
  have hnot : ts.NotWaiting := by
    refine ⟨?_, hrecv, ?_⟩ <;>
    · rintro rfl
      cases hts
  have htype₁ : s₁.tsType = update s.tsType t ts := htype' ▸ htype
  obtain ⟨s₂, hcall, hres, hs₂, haside⟩ := h.settled.wake hblocked onSame s₁
    (hsched.trans hsched') htype₁ hts hvm
  refine ⟨s₂, hcall, hres, ⟨hs₂, ?_, ?_⟩, haside⟩
  · refine h.waiting.wake ht ts hnot (hres.epPart.trans (hep.trans ?_))
    rw [htype']
  · refine hres.scheduled.replies ?_
    rw [KState.Replies, htype₁]
    have hmap₁ : s₁.tcbReply = s.tcbReply := hmap.trans hmap'
    have hcap₁ : s₁.replyCap = s.replyCap := hcap.trans hcap'
    rw [hmap₁, hcap₁]
    exact h.replies.restate (h.replies.noCap hreply) (fun heq => absurd heq hrecv)
      fun _ _ => hmaster

theorem stop (h : KInv cfg s q) (ht : t ∈ q i) (s₁ : KState μ)
    (hpart : s₁.part = (leaveQueue s t i).part) :
    ∃ s₂, setThreadState cfg s₁ t .inactive = .ok s₂ ∧
      Rescheduled { s₁ with tsType := update s₁.tsType t .inactive } s₂ ∧
      KInv cfg s₂ (update q i ((q i).erase t)) ∧ ∀ z, Aside s z → Aside s₂ z := by
  obtain ⟨hblocked, hreply, -⟩ := h.queued ht
  obtain ⟨hsched, hep, hmap, hcap, htype⟩ := KState.part_inj hpart
  obtain ⟨hsched', htype', hmap', hcap'⟩ := leaveQueue_part (s := s) (t := t) (i := i)
  have htype₁ : s₁.tsType = s.tsType := htype.trans htype'
  obtain ⟨s₂, hcall, hres, hs₂, haside⟩ := h.settled.stop .inactive { s₁ with
    tsType := update s₁.tsType t .inactive } (h.settled.aside hblocked.stopped) hblocked.tcb
    hblocked.idle (hsched.trans hsched') (by rw [htype₁]) rfl (by decide)
  refine ⟨s₂, hcall, hres, ⟨hs₂, ?_, ?_⟩, haside⟩
  · refine h.waiting.wake ht .inactive (by decide) (hres.epPart.trans ?_)
    rw [htype₁]
    exact KState.epPart_tsType hep
  · refine hres.scheduled.replies ?_
    have hmap₁ : s₁.tcbReply = s.tcbReply := hmap.trans hmap'
    have hcap₁ : s₁.replyCap = s.replyCap := hcap.trans hcap'
    rw [KState.Replies, htype₁]
    dsimp only
    rw [hmap₁, hcap₁]
    exact h.replies.restate (h.replies.noCap hreply) (fun heq => by cases heq)
      fun hin => absurd rfl hin

theorem first (h : KInv cfg s q) (hi : s.waitState i ≠ none) :
    (s.queueOf i).head ≠ 0 ∧ (s.queueOf i).head ∈ q i ∧
      (q i).erase (s.queueOf i).head = (q i).tail := by
  have hholds := h.waiting.queues.holds i
  have hne : q i ≠ [] := mt (h.waiting.state i).mpr hi
  have h0 := mt hholds.head_eq_zero_iff.mp hne
  refine ⟨h0, hholds.head_mem h0, ?_⟩
  rw [hholds.head]
  cases q i with
  | nil => rfl
  | cons x xs => exact List.erase_cons_head ..

theorem stopped (h : KInv cfg s q) (hact : Acting s) (ht : (s.tsType t).isRunnable = false) :
    t ≠ s.ksCurThread ∧ s.tcbQueued t = false := by
  refine ⟨fun heq => ?_, Bool.eq_false_iff.mpr fun hq => ?_⟩
  · have hrun := hact.run
    rw [isRunnable, ← heq, ht] at hrun
    cases hrun
  · have hrun := h.settled.queued t hq
    rw [isRunnable, ht] at hrun
    cases hrun

theorem firstWaits (h : KInv cfg s q) (hact : Acting s) {e : Nat}
    (hwait : s.waitState (.ep e) = some ts) (hts : ts.isRunnable = false) :
    (s.epQueue e).head ≠ 0 ∧ s.tcbEPPrev (s.epQueue e).head = 0 ∧
      s.tsType (s.epQueue e).head = ts ∧ (s.epQueue e).head ≠ s.ksCurThread ∧
        s.tcbQueued (s.epQueue e).head = false := by
  have hsome : s.waitState (.ep e) ≠ none := by
    rw [hwait]
    exact Option.some_ne_none _
  obtain ⟨h0, hmem, -⟩ := h.first hsome
  have hstate : s.tsType (s.epQueue e).head = ts :=
    Option.some.inj ((h.waiting.kind _ _ hmem).symm.trans hwait)
  exact ⟨h0, (h.waiting.queues.holds (.ep e)).prev_head h0, hstate,
    h.stopped hact (by rw [hstate, hts])⟩

/-- The current thread comes into a queue. -/
theorem acting_notWaiting (hact : Acting s) : (s.tsType s.ksCurThread).NotWaiting :=
  notWaiting_of_isRunnable hact.run

theorem acting_tcb (h : KInv cfg s q) (hact : Acting s) :
    IsTcb s.ksCurThread ∧ s.ksCurThread ≠ s.ksIdleThread ∧
      s.tsType s.ksCurThread ≠ .blockedOnReply ∧ s.tcbReply s.ksCurThread ≠ none := by
  have hrun := hact.run
  refine ⟨h.settled.isTcb hrun, h.settled.ne_idle hrun, ?_, h.replies.master _ ?_ ?_⟩ <;>
  · intro hts
    rw [isRunnable, hts] at hrun
    cases hrun

theorem afterTransfer (hs : Settled cfg s 0) (ht : Aside s t) (htcb : IsTcb t)
    (hidle : t ≠ s.ksIdleThread) (hw : ∀ ts : ThreadStateType, ts.NotWaiting →
      Waiting { s with tsType := update s.tsType t ts } q) (hr : s.Replies)
    (htype : s.tsType t ≠ .blockedOnReply) (hmaster : s.tcbReply t ≠ none) (receiver : Nat)
    (canGrant diminish : Bool) (hempty : s.replyCap (callerSlot receiver) = 0)
    (hrecv : ∀ z, s.tsType z = .blockedOnReceive → z ≠ t → callerSlot z ≠ callerSlot receiver) :
    ∃ s', afterTransfer cfg s t receiver canGrant diminish = .ok s' ∧ KInv cfg s' q := by
  rw [Kernel.afterTransfer]
  split_ifs
  · obtain ⟨s₂, hcall, hres, hs₂, -⟩ := hs.stop .blockedOnReply { s with
      tsType := update s.tsType t .blockedOnReply } ht htcb hidle rfl rfl rfl (by decide)
    have hreply : s₂.tcbReply = s.tcbReply := by
      unfold Rescheduled at hres
      rw [hres]
    have hcap : s₂.replyCap = s.replyCap := by
      unfold Rescheduled at hres
      rw [hres]
    obtain ⟨sl, hsl⟩ := Option.ne_none_iff_exists'.mp hmaster
    refine ⟨{ s₂ with
      tcbReply := update s₂.tcbReply t (some (callerSlot receiver))
      replyCap := update s₂.replyCap (callerSlot receiver) t }, ?_, hs₂.frame rfl rfl,
      ((hw .blockedOnReply (by decide)).congr hres.epPart).congr rfl, ?_⟩
    · rw [setupCallerCap, setThreadState, hcall]
      simp only [bind, Except.bind, hreply, hsl, hcap, hempty, ne_eq, not_true, if_false]
    · have hts : s₂.tsType = update s.tsType t .blockedOnReply := by
        unfold Rescheduled at hres
        rw [hres]
      rw [KState.Replies]
      dsimp only
      rw [hts, hreply, hcap]
      exact hr.setup _ (hr.noCap htype) (isTcb_ne_zero htcb) callerSlot_ne_zero hempty hrecv
  · obtain ⟨s₂, hcall, hres, hs₂, -⟩ := hs.stop .inactive { s with
      tsType := update s.tsType t .inactive } ht htcb hidle rfl rfl rfl (by decide)
    refine ⟨s₂, hcall, hs₂, (hw .inactive (by decide)).congr hres.epPart, hres.scheduled.replies ?_⟩
    exact hr.restate (hr.noCap htype) (fun heq => by cases heq) fun hin => absurd rfl hin

theorem block (h : KInv cfg s q) (hact : Acting s) (s₁ : KState μ) (e : Nat) (state : EPState)
    (hstate : state ≠ .idle) (hold : s.epState e = .idle ∨ s.epState e = state)
    (hempty : state = .recv → s.replyCap (callerSlot s.ksCurThread) = 0)
    (hsched : s₁.schedPart = s.schedPart) (hep : s₁.epPart = KState.epPart { s with
      tsType := update s.tsType s.ksCurThread state.blocked
      blockingIPCEndpoint := update s.blockingIPCEndpoint s.ksCurThread e })
    (hreply : s₁.tcbReply = s.tcbReply) (hcap : s₁.replyCap = s.replyCap) :
    ∃ s₂, scheduleTCB cfg s₁ s.ksCurThread = .ok s₂ ∧
      KInv cfg (epAppend s₂ e s.ksCurThread state)
        (update q (.ep e) (q (.ep e) ++ [s.ksCurThread])) := by
  obtain ⟨htcb, hidle, htype, hmaster⟩ := h.acting_tcb hact
  have hts : s₁.tsType = update s.tsType s.ksCurThread state.blocked := congrArg EpPart.tsType hep
  have hstop : state.blocked.isRunnable = false ∧ state.blocked ≠ .idleThreadState := by
    cases state <;> exact ⟨rfl, fun hc => by cases hc⟩
  obtain ⟨s₂, hcall, hres, hs₂, -⟩ :=
    h.settled.stop _ s₁ hact.aside htcb hidle hsched hts hstop.1 hstop.2
  have happend : (epAppend s₂ e s.ksCurThread state).schedPart = s₂.schedPart ∧
      (epAppend s₂ e s.ksCurThread state).tsType = s₂.tsType ∧
      (epAppend s₂ e s.ksCurThread state).tcbReply = s₂.tcbReply ∧
      (epAppend s₂ e s.ksCurThread state).replyCap = s₂.replyCap := by
    rw [epAppend, tcbEPAppend_eq]
    exact ⟨rfl, rfl, rfl, rfl⟩
  obtain ⟨ha1, ha2, ha3, ha4⟩ := happend
  refine ⟨s₂, hcall, hs₂.frame ha1 ha2, ?_, ?_⟩
  · exact h.waiting.blockEP (acting_notWaiting hact) (isTcb_ne_zero htcb) hstate hold
      (hres.epPart.trans hep)
  · rw [KState.Replies, ha2, ha3, ha4]
    refine hres.scheduled.replies ?_
    rw [KState.Replies, hts, hreply, hcap]
    refine h.replies.restate (h.replies.noCap htype) (fun heq => hempty ?_) fun _ _ => hmaster
    cases state with
    | idle => cases heq
    | send => cases heq
    | recv => rfl

theorem blockOnSend (h : KInv cfg s q) (hact : Acting s) {e badge : Nat} {canGrant doCall : Bool}
    (hold : s.epState e ≠ .recv) :
    ∃ s', blockOnSend cfg s s.ksCurThread e badge canGrant doCall = .ok s' ∧
      KInv cfg s' (update q (.ep e) (q (.ep e) ++ [s.ksCurThread])) := by
  obtain ⟨s₂, hcall, hinv⟩ := h.block hact { s with
      tsType := update s.tsType s.ksCurThread .blockedOnSend
      blockingIPCEndpoint := update s.blockingIPCEndpoint s.ksCurThread e
      blockingIPCBadge := update s.blockingIPCBadge s.ksCurThread badge
      blockingIPCCanGrant := update s.blockingIPCCanGrant s.ksCurThread canGrant
      blockingIPCIsCall := update s.blockingIPCIsCall s.ksCurThread doCall } e .send (by decide)
    (by
      cases hst : s.epState e with
      | idle => exact .inl rfl
      | send => exact .inr rfl
      | recv => exact absurd hst hold)
    (fun heq => by cases heq) rfl rfl rfl rfl
  refine ⟨_, ?_, hinv⟩
  rw [Kernel.blockOnSend, hcall]
  rfl

theorem blockOnReceive (h : KInv cfg s q) (hact : Acting s) {e : Nat} (diminish : Bool)
    (hold : s.epState e ≠ .send) (hempty : s.replyCap (callerSlot s.ksCurThread) = 0) :
    ∃ s', blockOnReceive cfg s s.ksCurThread e diminish = .ok s' ∧
      KInv cfg s' (update q (.ep e) (q (.ep e) ++ [s.ksCurThread])) := by
  obtain ⟨s₂, hcall, hinv⟩ := h.block hact { s with
      tsType := update s.tsType s.ksCurThread .blockedOnReceive
      blockingIPCEndpoint := update s.blockingIPCEndpoint s.ksCurThread e
      blockingIPCDiminishCaps := update s.blockingIPCDiminishCaps s.ksCurThread diminish }
    e .recv (by decide)
    (by
      cases hst : s.epState e with
      | idle => exact .inl rfl
      | send => exact absurd hst hold
      | recv => exact .inr rfl)
    (fun _ => hempty) rfl rfl rfl rfl
  refine ⟨_, ?_, hinv⟩
  rw [Kernel.blockOnReceive, hcall]
  rfl

/-- A message is sent. The thread that has waited longest gets it, or the sender waits. -/
theorem sendIPC (h : KInv cfg s q) (plat : Platform μ) (hact : Acting s)
    (blocking doCall : Bool) (badge : Nat) (canGrant : Bool) (e : Nat) :
    ∃ s' q', sendIPC cfg plat s blocking doCall badge canGrant s.ksCurThread e = .ok s' ∧
      KInv cfg s' q' ∧ q' = if s.epState e = .recv then update q (.ep e) (q (.ep e)).tail
        else if blocking then update q (.ep e) (q (.ep e) ++ [s.ksCurThread]) else q := by
  obtain ⟨htcb, hidle, htype, hmaster⟩ := h.acting_tcb hact
  have hblock : s.epState e ≠ .recv → ∃ s',
      (if blocking then Kernel.blockOnSend cfg s s.ksCurThread e badge canGrant doCall
        else .ok s) = .ok s' ∧ KInv cfg s' (if blocking then
          update q (.ep e) (q (.ep e) ++ [s.ksCurThread]) else q) := by
    intro hne
    split_ifs
    · exact h.blockOnSend hact hne
    · exact ⟨s, rfl, h⟩
  cases hstate : s.epState e with
  | idle =>
      obtain ⟨s', hcall, hinv⟩ := hblock (by rw [hstate]; decide)
      refine ⟨s', _, ?_, hinv, (if_neg (by decide)).symm⟩
      rw [Kernel.sendIPC, hstate]
      exact hcall
  | send =>
      obtain ⟨s', hcall, hinv⟩ := hblock (by rw [hstate]; decide)
      refine ⟨s', _, ?_, hinv, (if_neg (by decide)).symm⟩
      rw [Kernel.sendIPC, hstate]
      exact hcall
  | recv =>
      have hwait : s.waitState (.ep e) = some .blockedOnReceive := by
        rw [KState.waitState, hstate]
      obtain ⟨h0, -, hrecv, hne, -⟩ := h.firstWaits hact hwait rfl
      obtain ⟨-, hin, htail⟩ := h.first (i := .ep e) (by simp [hwait])
      change (s.epQueue e).head ∈ q (.ep e) at hin
      change (q (.ep e)).erase (s.epQueue e).head = _ at htail
      obtain ⟨dest, hdest⟩ : ∃ dest, dest = (s.epQueue e).head := ⟨_, rfl⟩
      rw [← hdest] at h0 hrecv hne hin htail
      obtain ⟨hblocked, -, -⟩ := h.queued hin
      obtain ⟨s₁, hs₁⟩ : ∃ s₁, s₁ = { epDequeue s e dest with
        context := doIPCTransfer plat (epDequeue s e dest).context
          ((epDequeue s e dest).tcbFault s.ksCurThread) s.ksCurThread e badge canGrant dest
          ((epDequeue s e dest).blockingIPCDiminishCaps dest) } := ⟨_, rfl⟩
      obtain ⟨s₂, hcall, hres, hinv, haside⟩ := h.wake hin true .running
        { s₁ with tsType := update s₁.tsType dest .running } rfl (by decide) (by rw [hs₁]; rfl)
      rw [htail] at hinv
      have hframe := leaveQueue_part (s := s) (t := dest) (i := .ep e)
      have hts₂ : s₂.tsType = update s.tsType dest .running := by
        unfold Rescheduled at hres
        rw [hres, hs₁]
        exact congrArg (update · dest _) hframe.2.1
      have hcap₂ : s₂.replyCap = s.replyCap := by
        unfold Rescheduled at hres
        rw [hres, hs₁]
        exact hframe.2.2.2
      have hreply₂ : s₂.tcbReply = s.tcbReply := by
        unfold Rescheduled at hres
        rw [hres, hs₁]
        exact hframe.2.2.1
      have hidle₂ : s₂.ksIdleThread = s.ksIdleThread := by
        unfold Rescheduled at hres
        rw [hres, hs₁]
        exact congrArg SchedPart.ksIdleThread hframe.1
      have hafter : ∀ canGrant diminish, ∃ s', Kernel.afterTransfer cfg s₂ s.ksCurThread dest
          canGrant diminish = .ok s' ∧ KInv cfg s' (update q (.ep e) (q (.ep e)).tail) := by
        intro canGrant diminish
        have hts : s₂.tsType s.ksCurThread = s.tsType s.ksCurThread := by
          rw [hts₂, update_of_ne hne.symm]
        refine afterTransfer hinv.settled (haside _ hne.symm hact.aside) htcb (hidle₂ ▸ hidle) ?_
          hinv.replies (hts ▸ htype) (hreply₂ ▸ hmaster) dest canGrant diminish ?_ ?_
        · exact fun ts hnot => hinv.waiting.restate (hts ▸ acting_notWaiting hact) hnot
        · rw [hcap₂]
          exact h.replies.receiver dest hrecv
        · intro z hz _ hslot
          have hzd : z = dest := callerSlot_inj
            (hinv.settled.threads.tcb z fun hin => by rw [hz] at hin; cases hin) hblocked.tcb hslot
          rw [hzd, hts₂, update_self] at hz
          cases hz
      have hgoal : ∀ r, (if doCall = true ∨ s₂.tcbFault s.ksCurThread ≠ .null then
          Kernel.afterTransfer cfg s₂ s.ksCurThread dest canGrant
            ((epDequeue s e dest).blockingIPCDiminishCaps dest) else .ok s₂) = r →
          Kernel.sendIPC cfg plat s blocking doCall badge canGrant s.ksCurThread e = r := by
        intro r hr
        rw [Kernel.sendIPC, hstate]
        simp only [← hdest, h0, if_false]
        rw [← hs₁, setThreadState_of_isRunnable rfl]
        simp only [bind, Except.bind]
        rw [attemptSwitchTo, hcall]
        exact hr
      rw [if_pos rfl]
      split_ifs at hgoal
      · obtain ⟨s', hcall', hinv'⟩ := hafter canGrant
          ((epDequeue s e dest).blockingIPCDiminishCaps dest)
        exact ⟨s', _, hgoal _ hcall', hinv', rfl⟩
      · exact ⟨s₂, _, hgoal _ rfl, hinv, rfl⟩

theorem aepChange (h : KInv cfg s q) (a : Nat) (state : AEPState) (hold : s.aepState a ≠ .waiting)
    (hnew : state ≠ .waiting) (hpart : s'.part = (setAEPState s a state).part) : KInv cfg s' q :=
  KInv.congr (s := setAEPState s a state)
    ⟨h.settled.frame rfl rfl, h.waiting.aepChange hold hnew, h.replies⟩ hpart

/-- A message is received, from the thread that has waited longest, or the receiver waits. A badge
that has come over the bound asynchronous endpoint is received first. -/
theorem receiveIPC (h : KInv cfg s q) (plat : Platform μ) (hact : Acting s) (e : Nat)
    (capCanSend : Bool)
    (hempty : s.replyCap (callerSlot s.ksCurThread) = 0) :
    ∃ s' q', receiveIPC cfg plat s s.ksCurThread e capCanSend = .ok s' ∧ KInv cfg s' q' ∧
      q' = if s.boundAsyncEndpoint s.ksCurThread ≠ 0 ∧
          s.aepState (s.boundAsyncEndpoint s.ksCurThread) = .active then q
        else if s.epState e = .send then update q (.ep e) (q (.ep e)).tail
        else update q (.ep e) (q (.ep e) ++ [s.ksCurThread]) := by
  obtain ⟨htcb, hidle, htype, hmaster⟩ := h.acting_tcb hact
  unfold Kernel.receiveIPC
  dsimp only
  by_cases hbound : s.boundAsyncEndpoint s.ksCurThread ≠ 0 ∧
      s.aepState (s.boundAsyncEndpoint s.ksCurThread) = .active
  · rw [if_pos hbound, if_pos hbound]
    refine ⟨KState.setRegister (setAEPState s (s.boundAsyncEndpoint s.ksCurThread) .idle)
        s.ksCurThread badgeRegister (s.aepMsgIdentifier (s.boundAsyncEndpoint s.ksCurThread)), q,
      ?_, h.aepChange (s.boundAsyncEndpoint s.ksCurThread) .idle
      (by rw [hbound.2]; decide) (by decide) rfl, rfl⟩
    exact if_pos ⟨isTcb_ne_zero htcb, hbound.2⟩
  rw [if_neg hbound, if_neg hbound]
  by_cases hsend : s.epState e = .send
  · rw [if_pos hsend]
    obtain ⟨h0, hin, htail⟩ := h.first (i := .ep e) (by simp [KState.waitState, hsend])
    change (s.epQueue e).head ≠ 0 at h0
    change (s.epQueue e).head ∈ q (.ep e) at hin
    change (q (.ep e)).erase (s.epQueue e).head = _ at htail
    obtain ⟨sender, hsender⟩ : ∃ sender, sender = (s.epQueue e).head := ⟨_, rfl⟩
    rw [← hsender] at h0 hin htail
    simp only [hsend, ← hsender, h0, if_false]
    obtain ⟨hblocked, hreply, hreply'⟩ := h.queued hin
    obtain ⟨hpart, hts, hmap, hcap⟩ := leaveQueue_part (s := s) (t := sender) (i := .ep e)
    obtain ⟨s₁, hs₁⟩ : ∃ s₁, s₁ = { epDequeue s e sender with
      context := doIPCTransfer plat (epDequeue s e sender).context
        ((epDequeue s e sender).tcbFault sender) sender e
        ((epDequeue s e sender).blockingIPCBadge sender)
        ((epDequeue s e sender).blockingIPCCanGrant sender) s.ksCurThread (!capCanSend) } :=
        ⟨_, rfl⟩
    have hpart₁ : s₁.part = (leaveQueue s sender (.ep e)).part := by
      rw [hs₁]
      rfl
    rw [← hs₁]
    split_ifs
    · obtain ⟨hp1, hp2, hp3, hp4, hp5⟩ := KState.part_inj hpart₁
      have hsched₁ : s₁.schedPart = s.schedPart := hp1.trans hpart
      have hts₁ : s₁.tsType = s.tsType := hp5.trans hts
      have hidle₁ : s₁.ksIdleThread = s.ksIdleThread := congrArg SchedPart.ksIdleThread hsched₁
      have hcap₁ : s₁.replyCap = s.replyCap := hp4.trans hcap
      have hmap₁ : s₁.tcbReply = s.tcbReply := hp3.trans hmap
      have hs : Settled cfg s₁ 0 := h.settled.frame hsched₁ hts₁
      have hstopped : isRunnable s₁ sender = false := by
        rw [isRunnable, hts₁]
        exact hblocked.stopped
      obtain ⟨s', hcall, hinv⟩ := afterTransfer (q := update q (.ep e) (q (.ep e)).tail)
        hs (hs.aside hstopped) hblocked.tcb (hidle₁ ▸ hblocked.idle)
        (fun ts hnot => htail ▸ h.waiting.wake hin ts hnot
          (by rw [hts₁]; exact KState.epPart_tsType hp2))
        (by rw [KState.Replies, hts₁, hmap₁, hcap₁]; exact h.replies) (hts₁ ▸ hreply)
        (hmap₁ ▸ hreply') s.ksCurThread ((epDequeue s e sender).blockingIPCCanGrant sender)
        (!capCanSend) (hcap₁ ▸ hempty) fun z hz _ hslot => by
          rw [hts₁] at hz
          have hzc : z = s.ksCurThread := callerSlot_inj
            (h.settled.threads.tcb z fun hin => by rw [hz] at hin; cases hin) htcb hslot
          have hrun := hact.run
          rw [← hzc, isRunnable, hz] at hrun
          cases hrun
      exact ⟨s', _, hcall, hinv, rfl⟩
    · obtain ⟨s₂, hcall, hres, hinv, -⟩ := h.wake hin false .running
        { s₁ with tsType := update s₁.tsType sender .running } rfl (by decide) (by rw [hs₁]; rfl)
      rw [htail] at hinv
      refine ⟨s₂, _, ?_, hinv, rfl⟩
      rw [setThreadState_of_isRunnable rfl]
      exact hcall
  · rw [if_neg hsend]
    obtain ⟨s', hcall, hinv⟩ := h.blockOnReceive hact (!capCanSend) hsend hempty
    refine ⟨s', _, ?_, hinv, rfl⟩
    cases hstate : s.epState e with
    | send => exact absurd hstate hsend
    | idle => exact hcall
    | recv => exact hcall

end KInv

end PartitionSeL4.Kernel
