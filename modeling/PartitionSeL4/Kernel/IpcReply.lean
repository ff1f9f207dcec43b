import PartitionSeL4.Kernel.Ipc

/-!
# Replies and cancelled IPC

* `KInv.doReplyTransfer`: a caller gets its reply, and the reply capability is used up.
* `KInv.ipcCancel`: a thread comes out of the queue where it waits, or gives up its reply.
* `KInv.suspend`, `KInv.restart`: a thread is stopped for good, or starts again.
* `KInv.epCancelAll`, `KInv.epCancelBadgedSends`: the threads at an endpoint start again.
-/

namespace PartitionSeL4.Kernel

open Lib Function

variable {μ : Type} {cfg : Config} {s s' s₁ : KState μ}
  {q : QueueId → List Nat} {i : QueueId} {t slot : Nat} {ts : ThreadStateType}

namespace KInv

/-! ## Replies -/

theorem deleteReplyCap (h : KInv cfg s q) (slot : Nat) :
    ∃ s', deleteReplyCap s slot = .ok s' ∧ KInv cfg s' q ∧
      s'.replyCap = update s.replyCap slot 0 ∧ (∀ t, s.tcbReply t ≠ none → s'.tcbReply t ≠ none) ∧
      s' = { s with tcbReply := s'.tcbReply, replyCap := s'.replyCap } := by
  unfold Kernel.deleteReplyCap
  dsimp only
  split_ifs with hcap
  · refine ⟨s, rfl, h, ?_, fun _ => id, rfl⟩
    rw [← hcap, update_eq_self]
  · obtain ⟨-, hreply, -⟩ := h.replies.cap slot _ rfl hcap
    rw [hreply]
    refine ⟨_, rfl, ⟨h.settled.frame rfl rfl, h.waiting.congr rfl, h.replies.drop rfl hcap⟩, rfl,
      fun t ht => ?_, rfl⟩
    show update s.tcbReply _ _ t ≠ none
    by_cases htc : t = s.replyCap slot
    · rw [htc, update_self]
      exact fun hc => by cases hc
    · rwa [update_of_ne htc]

/-- The caller goes on, and the capability to reply to it is used up. -/
theorem reply (h : KInv cfg s q) (hcap : s.replyCap slot = t) (h0 : t ≠ 0) (hts : ts.NotWaiting)
    (hsettled : Settled cfg s₁ 0) (hep : s₁.epPart = KState.epPart { s with
      tsType := update s.tsType t ts })
    (hreply : s₁.tcbReply = s.tcbReply) (hcap₁ : s₁.replyCap = s.replyCap)
    (hcur : s₁.ksCurThread = s.ksCurThread) (haside : ∀ z, z ≠ t → Aside s z → Aside s₁ z) :
    ∃ s', Kernel.deleteReplyCap s₁ slot = .ok s' ∧ KInv cfg s' q ∧ (Acting s → Acting s') := by
  obtain ⟨-, hmap, htype⟩ := h.replies.cap slot t hcap h0
  have htype₁ : s₁.tsType = update s.tsType t ts := congrArg EpPart.tsType hep
  refine ⟨{ s₁ with
    tcbReply := update s₁.tcbReply t (some 0)
    replyCap := update s₁.replyCap slot 0 }, ?_, ⟨hsettled.frame rfl rfl, ?_, ?_⟩, fun hact => ?_⟩
  · rw [Kernel.deleteReplyCap]
    simp only [hcap₁, hcap, h0, if_false, hreply, hmap]
  · exact Waiting.congr (h.waiting.restate (by rw [htype]; decide) hts) hep
  · rw [KState.Replies]
    dsimp only
    rw [htype₁, hreply, hcap₁]
    exact h.replies.free hcap h0 hts.2.1
  · have hne : s.ksCurThread ≠ t := fun heq => by
      have hrun := hact.run
      rw [heq, isRunnable, htype] at hrun
      cases hrun
    refine hact.keep hcur ?_ (haside _ hne)
    show s₁.tsType _ = _
    rw [htype₁, update_of_ne hne]

theorem caller (h : KInv cfg s q) (hcap : s.replyCap slot = t) (h0 : t ≠ 0) : Blocked s t := by
  obtain ⟨-, -, htype⟩ := h.replies.cap slot t hcap h0
  refine ⟨?_, h.settled.threads.tcb t (by rw [htype]; decide), fun hidle => ?_⟩
  · rw [isRunnable, htype]
    rfl
  · have := (h.settled.threads.idle t).mpr hidle
    rw [htype] at this
    cases this

/-- A caller gets its reply, and the reply capability is used up. -/
theorem doReplyTransfer (h : KInv cfg s q) (plat : Platform μ) (sender : Nat)
    (h0 : s.replyCap slot ≠ 0) :
    ∃ s', doReplyTransfer cfg plat s sender (s.replyCap slot) slot = .ok s' ∧ KInv cfg s' q ∧
      (Acting s → Acting s') := by
  obtain ⟨t, ht⟩ : ∃ t, t = s.replyCap slot := ⟨_, rfl⟩
  rw [← ht] at h0 ⊢
  obtain ⟨-, -, htype⟩ := h.replies.cap slot t ht.symm h0
  have hblocked := h.caller ht.symm h0
  -- the caller runs on
  have hrun : ∀ (s₁ : KState μ) (ts : ThreadStateType), s₁.part = s.part → ts.isRunnable = true →
      ts ≠ .runningVM → ts.NotWaiting → ∃ s₂ s', attemptSwitchTo cfg { s₁ with
        tsType := update s₁.tsType t ts } t = .ok s₂ ∧
          Kernel.deleteReplyCap s₂ slot = .ok s' ∧ KInv cfg s' q ∧ (Acting s → Acting s') := by
    intro s₁ ts hpart hts hvm hnot
    obtain ⟨hsched, hep, hmap, hcap, htype₁⟩ := KState.part_inj hpart
    obtain ⟨s₂, hcall, hres, hs₂, haside⟩ := h.settled.wake hblocked true
      { s₁ with tsType := update s₁.tsType t ts } hsched (by rw [htype₁]) hts hvm
    have hep₂ : s₂.epPart = KState.epPart { s with tsType := update s.tsType t ts } := by
      rw [hres.epPart, htype₁]
      exact KState.epPart_tsType hep
    unfold Rescheduled at hres
    obtain ⟨s', hcall', hinv⟩ := h.reply ht.symm h0 hnot hs₂ hep₂ (by rw [hres]; exact hmap)
      (by rw [hres]; exact hcap)
      (by rw [hres]; exact congrArg SchedPart.ksCurThread hsched) haside
    exact ⟨s₂, s', hcall, hcall', hinv⟩
  unfold Kernel.doReplyTransfer
  simp only [htype, ne_eq, not_true, if_false]
  split_ifs
  · obtain ⟨s₂, s', hcall, hcall', hinv⟩ := hrun { s with
      context := doIPCTransfer plat s.context (s.tcbFault sender) sender 0 0 true t false }
      .running rfl rfl (by decide) (by decide)
    refine ⟨s', ?_, hinv⟩
    simp only [bind, Except.bind]
    rw [setThreadState_of_isRunnable rfl]
    dsimp only
    rw [hcall]
    exact hcall'
  · -- the fault is over
    obtain ⟨s₂, s', hcall, hcall', hinv⟩ := hrun { s with
      context := (plat.handleFaultReply (s.tcbFault t) t sender s.context).1
      tcbFault := update s.tcbFault t .null } .restart rfl rfl (by decide) (by decide)
    refine ⟨s', ?_, hinv⟩
    simp only [bind, Except.bind]
    rw [setThreadState_of_isRunnable rfl]
    dsimp only
    rw [hcall]
    exact hcall'
  · obtain ⟨s₂, hcall, hres, hs₂, haside⟩ := h.settled.stop .inactive { s with
      tsType := update s.tsType t .inactive
      context := (plat.handleFaultReply (s.tcbFault t) t sender s.context).1
      tcbFault := update s.tcbFault t .null } (h.settled.aside hblocked.stopped)
      hblocked.tcb hblocked.idle rfl rfl rfl (by decide)
    have hep := hres.epPart
    unfold Rescheduled at hres
    obtain ⟨s', hcall', hinv⟩ := h.reply ht.symm h0
      (show ThreadStateType.NotWaiting .inactive by decide) hs₂ hep
      (by rw [hres]) (by rw [hres]) (by rw [hres]) fun z _ => haside z
    refine ⟨s', ?_, hinv⟩
    simp only [bind, Except.bind]
    rw [setThreadState, hcall]
    exact hcall'

theorem handleReply (h : KInv cfg s q) (plat : Platform μ) (hact : Acting s) :
    ∃ s', handleReply cfg plat s = .ok s' ∧ KInv cfg s' q ∧ Acting s' := by
  unfold Kernel.handleReply
  dsimp only
  split_ifs with hcap hself
  · exact ⟨s, rfl, h, hact⟩
  · have hrun := hact.run
    rw [isRunnable, (h.replies.cap _ _ hself (hself ▸ hcap)).2.2] at hrun
    cases hrun
  · obtain ⟨s', hcall, hinv, hkeep⟩ := h.doReplyTransfer plat s.ksCurThread hcap
    exact ⟨s', hcall, hinv, hkeep hact⟩

theorem handleWait (h : KInv cfg s q) (plat : Platform μ) (hact : Acting s) (e : Nat)
    (capCanSend : Bool) :
    ∃ s' q', handleWait cfg plat s e capCanSend = .ok s' ∧ KInv cfg s' q' ∧
      q' = if s.boundAsyncEndpoint s.ksCurThread ≠ 0 ∧
          s.aepState (s.boundAsyncEndpoint s.ksCurThread) = .active then q
        else if s.epState e = .send then update q (.ep e) (q (.ep e)).tail
        else update q (.ep e) (q (.ep e) ++ [s.ksCurThread]) := by
  obtain ⟨s₁, hcall₁, hinv₁, hcap, -, hframe⟩ := h.deleteReplyCap (callerSlot s.ksCurThread)
  have hcur : s₁.ksCurThread = s.ksCurThread := by rw [hframe]
  have hact₁ : Acting s₁ := hact.keep hcur (by rw [hframe]) fun ha => by
    rw [hframe]
    exact ha
  obtain ⟨s', q', hcall, hinv, hq⟩ := hinv₁.receiveIPC plat hact₁ e capCanSend
    (by rw [hcur, hcap, update_self])
  refine ⟨s', q', ?_, hinv, ?_⟩
  · rw [Kernel.handleWait, deleteCallerCap, hcall₁]
    exact hcall
  · rw [hq, hframe]

theorem handleFault (h : KInv cfg s q) (plat : Platform μ) (hact : Acting s) (fault : Fault)
    (handler : Option (Nat × Nat)) :
    ∃ s' q', handleFault cfg plat s fault handler = .ok s' ∧ KInv cfg s' q' ∧
      q' = match handler with
        | some (_, e) => if s.epState e = .recv then update q (.ep e) (q (.ep e)).tail
          else update q (.ep e) (q (.ep e) ++ [s.ksCurThread])
        | none => q := by
  cases handler with
  | some be =>
      obtain ⟨badge, e⟩ := be
      have h₁ : KInv cfg { s with tcbFault := update s.tcbFault s.ksCurThread fault } q :=
        h.congr rfl
      have hact₁ : Acting { s with tcbFault := update s.tcbFault s.ksCurThread fault } :=
        hact.keep rfl rfl id
      obtain ⟨s', q', hcall, hinv, hq⟩ := h₁.sendIPC plat hact₁ true false badge true e
      exact ⟨s', q', hcall, hinv, hq⟩
  | none =>
      obtain ⟨htcb, hidle, htype, -⟩ := h.acting_tcb hact
      obtain ⟨s₂, hcall, hres, hs₂, -⟩ := h.settled.stop .inactive { s with
        tsType := update s.tsType s.ksCurThread .inactive } hact.aside htcb hidle rfl rfl rfl
        (by decide)
      refine ⟨s₂, q, hcall, ⟨hs₂, ?_, hres.scheduled.replies ?_⟩, rfl⟩
      · exact (h.waiting.restate (acting_notWaiting hact) (by decide)).congr hres.epPart
      · exact h.replies.restate (h.replies.noCap htype) (fun heq => by cases heq)
          fun hin => absurd rfl hin

/-! ## Cancelled IPC -/

/-- What a thread is after its IPC is cancelled. -/
structure Cancelled (s s' : KState μ) (t : Nat) : Prop where
  run : isRunnable s' t = isRunnable s t
  same : isRunnable s t = true → s' = s
  waiting : (s'.tsType t).NotWaiting
  noCap : NoCap s'.replyCap t
  master : s.tcbReply t ≠ none → s'.tcbReply t ≠ none
  idle : s'.ksIdleThread = s.ksIdleThread
  cur : s'.ksCurThread = s.ksCurThread
  others : ∀ z, z ≠ t → s'.tsType z = s.tsType z

theorem cancelWait (h : KInv cfg s q) {i : QueueId} (hin : t ∈ q i) :
    ∃ s', setThreadState cfg (leaveQueue s t i) t .inactive = .ok s' ∧
      KInv cfg s' (update q i ((q i).erase t)) ∧ Cancelled s s' t := by
  obtain ⟨hblocked, hreply, -⟩ := h.queued hin
  obtain ⟨s', hcall, hres, hinv, -⟩ := h.stop hin (leaveQueue s t i) rfl
  obtain ⟨hpart, hts, hmap, hcap⟩ := leaveQueue_part (s := s) (t := t) (i := i)
  unfold Rescheduled at hres
  have hts' : s'.tsType = update s.tsType t .inactive := by
    rw [hres, hts]
  refine ⟨s', hcall, hinv, ?_, ?_, ?_, ?_, ?_, ?_, ?_, ?_⟩
  · rw [isRunnable, hts', update_self, hblocked.stopped]
    rfl
  · intro hrun
    rw [hblocked.stopped] at hrun
    cases hrun
  · rw [hts', update_self]
    decide
  · rw [hres]
    dsimp only
    rw [hcap]
    exact h.replies.noCap hreply
  · rw [hres]
    dsimp only
    rw [hmap]
    exact id
  · rw [hres]
    exact congrArg SchedPart.ksIdleThread hpart
  · rw [hres]
    exact congrArg SchedPart.ksCurThread hpart
  · intro z hz
    rw [hts', update_of_ne hz]

/-- A thread that waits for a reply gives it up: the capability to reply is deleted, if there is
one. -/
theorem cancelReply (h : KInv cfg s q) (hts : s.tsType t = .blockedOnReply) {slot : Nat}
    (hslot : s.tcbReply t = some slot) :
    ∃ s', (if slot ≠ 0 then Kernel.deleteReplyCap { s with
        tcbFault := update s.tcbFault t .null } slot else .ok { s with
        tcbFault := update s.tcbFault t .null }) = .ok s' ∧
      KInv cfg { s' with tcbReply := update s'.tcbReply t (some 0) } q ∧
      Cancelled s { s' with tcbReply := update s'.tcbReply t (some 0) } t := by
  have h₁ : KInv cfg { s with tcbFault := update s.tcbFault t .null } q := h.congr rfl
  have hdelete : ∃ s', (if slot ≠ 0 then Kernel.deleteReplyCap { s with
      tcbFault := update s.tcbFault t .null } slot else .ok { s with
      tcbFault := update s.tcbFault t .null }) = .ok s' ∧ KInv cfg s' q ∧
      NoCap s'.replyCap t ∧ s' = { s with
        tcbFault := s'.tcbFault, tcbReply := s'.tcbReply, replyCap := s'.replyCap } := by
    split_ifs with h0
    · obtain ⟨s', hcall, hinv, hcap, -, hframe⟩ := h₁.deleteReplyCap slot
      refine ⟨s', hcall, hinv, fun sl hsl => ?_, by rw [hframe]⟩
      rw [hcap] at hsl
      by_cases hs : sl = slot
      · rw [hs, update_self] at hsl
        exact hsl.symm
      · rw [update_of_ne hs] at hsl
        by_contra ht0
        have hmap := (h.replies.cap sl t hsl ht0).2.1
        rw [hslot] at hmap
        exact hs (Option.some.inj hmap).symm
    · refine ⟨_, rfl, h₁, fun sl hsl => ?_, rfl⟩
      by_contra ht0
      obtain ⟨hsl0, hmap, -⟩ := h.replies.cap sl t hsl ht0
      rw [hslot, not_not.mp h0] at hmap
      exact hsl0 (Option.some.inj hmap).symm
  obtain ⟨s', hcall, hinv, hnocap, hframe⟩ := hdelete
  have hts' : s'.tsType = s.tsType := by rw [hframe]
  refine ⟨s', hcall, ⟨hinv.settled.frame rfl rfl, hinv.waiting.congr rfl,
    hinv.replies.master_setup hnocap⟩, ?_, ?_, ?_, hnocap, ?_, ?_, ?_, ?_⟩
  · simp only [isRunnable, hts']
  · intro hrun
    rw [isRunnable, hts] at hrun
    cases hrun
  · show (s'.tsType t).NotWaiting
    rw [hts', hts]
    decide
  · intro _
    simp
  · rw [hframe]
  · rw [hframe]
  · intro z _
    show s'.tsType z = _
    rw [hts']

theorem ipcCancel (h : KInv cfg s q) (t : Nat) :
    ∃ s' q', ipcCancel cfg s t = .ok s' ∧ KInv cfg s' q' ∧ Cancelled s s' t ∧
      q' = match s.waitsOn t with
        | some i => update q i ((q i).erase t)
        | none => q := by
  -- nothing is to be cancelled
  have hnone : s.tsType t ≠ .blockedOnReply → (s.tsType t).NotWaiting →
      ∃ s' q', Except.ok (ε := KernelFault) s = .ok s' ∧ KInv cfg s' q' ∧ Cancelled s s' t ∧
        q' = match s.waitsOn t with
          | some i => update q i ((q i).erase t)
          | none => q := by
    intro hreply hnot
    refine ⟨s, q, rfl, h, ⟨rfl, fun _ => rfl, hnot, h.replies.noCap hreply, id, rfl, rfl,
      fun _ _ => rfl⟩, ?_⟩
    rw [waitsOn_eq_none hnot]
  unfold Kernel.ipcCancel
  cases hts : s.tsType t with
  | inactive | running | restart | runningVM | idleThreadState =>
      exact hnone (by rw [hts]; decide) (by rw [hts]; decide)
  | blockedOnSend | blockedOnReceive =>
      have hw : s.waitsOn t = some (.ep (s.blockingIPCEndpoint t)) := by
        rw [KState.waitsOn, hts]
      have hin := (h.waiting.mem t _).mpr hw
      have hstate : s.epState (s.blockingIPCEndpoint t) ≠ .idle := fun hidle => by
        have := h.waiting.kind _ t hin
        simp only [KState.waitState, hidle] at this
        cases this
      obtain ⟨s', hcall, hinv, hcan⟩ := h.cancelWait hin
      simp only [hstate, if_false]
      exact ⟨s', _, hcall, hinv, hcan, by rw [hw]⟩
  | blockedOnAsyncEvent =>
      have hw : s.waitsOn t = some (.aep (s.blockingIPCEndpoint t)) := by
        rw [KState.waitsOn, hts]
      have hin := (h.waiting.mem t _).mpr hw
      have hstate : s.aepState (s.blockingIPCEndpoint t) = .waiting := by
        have := h.waiting.kind _ t hin
        simp only [KState.waitState] at this
        cases ha : s.aepState (s.blockingIPCEndpoint t) with
        | waiting => rfl
        | idle =>
            rw [ha] at this
            cases this
        | active =>
            rw [ha] at this
            cases this
      obtain ⟨s', hcall, hinv, hcan⟩ := h.cancelWait hin
      simp only [asyncIPCCancel, hstate, ne_eq, not_true, if_false]
      exact ⟨s', _, hcall, hinv, hcan, by rw [hw]⟩
  | blockedOnReply =>
      have hw : s.waitsOn t = none := waitsOn_eq_none (by rw [hts]; decide)
      obtain ⟨slot, hslot⟩ := Option.ne_none_iff_exists'.mp
        (h.replies.master t (by rw [hts]; decide) (by rw [hts]; decide))
      simp only [hslot]
      obtain ⟨s₂, hcall, hinv, hcan⟩ := h.cancelReply hts hslot
      refine ⟨_, q, ?_, hinv, hcan, by rw [hw]⟩
      simp only [bind, Except.bind]
      rw [hcall]

theorem suspend (h : KInv cfg s q) (htcb : IsTcb t) (hidle : t ≠ s.ksIdleThread)
    (ht : s.ksSchedulerAction ≠ .switchToThread t) :
    ∃ s' q', suspend cfg s t = .ok s' ∧ KInv cfg s' q' ∧ s'.tsType t = .inactive ∧
      q' = match s.waitsOn t with
        | some i => update q i ((q i).erase t)
        | none => q := by
  obtain ⟨s₁, q', hcall₁, hinv₁, hcan, hq⟩ := h.ipcCancel t
  obtain ⟨s₂, hcall₂, hinv₂, hcap, -, hframe⟩ := hinv₁.deleteReplyCap (callerSlot t)
  have hts₂ : s₂.tsType = s₁.tsType := by rw [hframe]
  have hidle₂ : s₂.ksIdleThread = s.ksIdleThread := by
    rw [hframe]
    exact hcan.idle
  have htarget : s₂.ksSchedulerAction ≠ .switchToThread t := by
    by_cases hrun : isRunnable s t = true
    · rw [hframe, hcan.same hrun]
      exact ht
    · refine (hinv₂.settled.aside ?_).2
      rw [isRunnable, hts₂]
      exact hcan.run.trans (Bool.eq_false_iff.mpr hrun)
  obtain ⟨s₃, s', hcall₃, hcall₄, hres, hs'⟩ := hinv₂.settled.park .inactive htarget htcb
    (hidle₂ ▸ hidle) rfl (by decide)
  refine ⟨s', q', ?_, ⟨hs', ?_, hres.scheduled.replies ?_⟩, ?_, hq⟩
  · rw [Kernel.suspend, hcall₁]
    simp only [bind, Except.bind, deleteCallerCap]
    rw [hcall₂]
    dsimp only
    rw [hcall₃]
    exact hcall₄
  · exact (hinv₂.waiting.restate (hts₂ ▸ hcan.waiting) (by decide)).congr hres.epPart
  · refine hinv₂.replies.restate ?_ (fun heq => by cases heq) fun hin => absurd rfl hin
    rw [hcap]
    exact hcan.noCap.delete _
  · unfold Rescheduled at hres
    rw [hres]
    exact update_self ..

/-- A thread gets its master reply capability, unless it has it. -/
theorem setupMaster (h : KInv cfg s q) (hcap : NoCap s.replyCap t) :
    KInv cfg (setupReplyMaster s t) q ∧ (setupReplyMaster s t).tcbReply t ≠ none ∧
      setupReplyMaster s t = { s with tcbReply := (setupReplyMaster s t).tcbReply } := by
  rw [setupReplyMaster]
  cases hmap : s.tcbReply t with
  | none =>
      refine ⟨⟨h.settled.frame rfl rfl, h.waiting.congr rfl, h.replies.master_setup hcap⟩, ?_,
        rfl⟩
      simp
  | some sl =>
      refine ⟨h, ?_, rfl⟩
      rw [hmap]
      exact Option.some_ne_none _

theorem restart (h : KInv cfg s q) (htcb : IsTcb t) (hidle : t ≠ s.ksIdleThread) :
    ∃ s' q', restart cfg s t = .ok s' ∧ KInv cfg s' q' ∧
      q' = match s.waitsOn t with
        | some i => update q i ((q i).erase t)
        | none => q := by
  unfold Kernel.restart
  split_ifs with hblocked
  · have hstopped : isRunnable s t = false := by
      rw [isBlocked] at hblocked
      rw [isRunnable]
      cases hts : s.tsType t <;> rw [hts] at hblocked <;> first | rfl | cases hblocked
    obtain ⟨s₁, q', hcall₁, hinv₁, hcan, hq⟩ := h.ipcCancel t
    obtain ⟨s₂, hs₂⟩ : ∃ s₂, s₂ = setupReplyMaster s₁ t := ⟨_, rfl⟩
    obtain ⟨hinv₂, hmaster, hframe⟩ := hs₂ ▸ hinv₁.setupMaster hcan.noCap
    have hts₂ : s₂.tsType = s₁.tsType := by rw [hframe]
    have hidle₂ : t ≠ s₂.ksIdleThread := by
      rw [hframe, hcan.idle]
      exact hidle
    have hblocked₂ : Blocked s₂ t := by
      refine ⟨?_, htcb, hidle₂⟩
      rw [isRunnable, hts₂]
      exact hcan.run.trans hstopped
    obtain ⟨s₃, s₄, s₅, hcall₃, hcall₄, hcall₅, hres, hs₅⟩ :=
      hinv₂.settled.restartThread hblocked₂
    refine ⟨s₅, q', ?_, ⟨hs₅, Waiting.congr ?_ hres.epPart, hres.scheduled.replies ?_⟩, hq⟩
    · simp only [bind, Except.bind]
      rw [hcall₁]
      dsimp only
      rw [← hs₂, hcall₃]
      dsimp only
      rw [hcall₄]
      exact hcall₅
    · exact hinv₂.waiting.restate (hts₂ ▸ hcan.waiting) (by decide)
    · refine hinv₂.replies.restate ?_ (fun heq => by cases heq) fun _ _ => hmaster
      rw [hframe]
      exact hcan.noCap
  · refine ⟨s, q, rfl, h, ?_⟩
    have hw : s.waitsOn t = none := by
      refine waitsOn_eq_none ⟨?_, ?_, ?_⟩ <;>
      · intro hts
        refine hblocked ?_
        rw [isBlocked, hts]
        rfl
    rw [hw]

/-! ## Asynchronous messages -/

/-- The badge of an asynchronous message reaches the thread that has waited longest, or the thread
that is bound to the endpoint, or it is kept. -/
theorem sendAsyncIPC (h : KInv cfg s q) (a badge : Nat) :
    ∃ s' q', sendAsyncIPC cfg s a badge = .ok s' ∧ KInv cfg s' q' ∧
      q' = match s.aepState a with
        | .waiting => update q (.aep a) (q (.aep a)).tail
        | .idle =>
            if s.aepBoundTCB a ≠ 0 ∧ s.tsType (s.aepBoundTCB a) = .blockedOnReceive then
              update q (.ep (s.blockingIPCEndpoint (s.aepBoundTCB a)))
                ((q (.ep (s.blockingIPCEndpoint (s.aepBoundTCB a)))).erase (s.aepBoundTCB a))
            else q
        | .active => q := by
  unfold Kernel.sendAsyncIPC
  cases hstate : s.aepState a with
  | active => exact ⟨_, q, rfl, h.congr rfl, rfl⟩
  | waiting =>
      obtain ⟨h0, hin, htail⟩ := h.first (i := .aep a) (by simp [KState.waitState, hstate])
      change (s.aepQueue a).head ≠ 0 at h0
      change (s.aepQueue a).head ∈ q (.aep a) at hin
      change (q (.aep a)).erase (s.aepQueue a).head = _ at htail
      obtain ⟨dest, hdest⟩ : ∃ dest, dest = (s.aepQueue a).head := ⟨_, rfl⟩
      rw [← hdest] at h0 hin htail
      simp only [← hdest, h0, if_false]
      obtain ⟨s₂, hcall, hres, hinv, -⟩ := h.wake hin false .running
        (KState.setRegister { aepDequeue s a dest with
          tsType := update (aepDequeue s a dest).tsType dest .running } dest badgeRegister badge)
        rfl (by decide) rfl
      rw [htail] at hinv
      refine ⟨s₂, _, ?_, hinv, rfl⟩
      rw [setThreadState_of_isRunnable rfl]
      exact hcall
  | idle =>
      have hactive : KInv cfg (aepSetActive s a badge) q :=
        h.aepChange a .active (by rw [hstate]; decide) (by decide) rfl
      dsimp only
      obtain ⟨t, ht⟩ : ∃ t, t = s.aepBoundTCB a := ⟨_, rfl⟩
      rw [← ht]
      split_ifs with h0 hrecv hrecv
      · -- the bound thread comes out of the queue where it waits to receive
        obtain ⟨-, htype⟩ := hrecv
        obtain ⟨s₁, q', hcall₁, hinv₁, hcan, hq⟩ := h.ipcCancel t
        have hw : s.waitsOn t = some (.ep (s.blockingIPCEndpoint t)) := by
          rw [KState.waitsOn, htype]
        rw [hw] at hq
        have hblocked₁ : Blocked s₁ t := by
          refine ⟨?_, h.settled.threads.tcb t (by rw [htype]; decide), fun hidle => ?_⟩
          · rw [hcan.run, isRunnable, htype]
            rfl
          · rw [hcan.idle] at hidle
            have := (h.settled.threads.idle t).mpr hidle
            rw [htype] at this
            cases this
        obtain ⟨s₂, hcall₂, hres, hs₂, -⟩ := hinv₁.settled.wake hblocked₁ true
          (KState.setRegister { s₁ with tsType := update s₁.tsType t .running } t badgeRegister
            badge) rfl rfl rfl (by decide)
        have hmaster := hcan.master (h.replies.master t (by rw [htype]; decide)
          (by rw [htype]; decide))
        refine ⟨s₂, q', ?_, ⟨hs₂, ?_, hres.scheduled.replies ?_⟩, hq⟩
        · rw [htype]
          simp only [bind, Except.bind]
          rw [hcall₁]
          dsimp only
          rw [setThreadState_of_isRunnable rfl]
          exact hcall₂
        · exact (hinv₁.waiting.restate hcan.waiting (by decide)).congr hres.epPart
        · exact hinv₁.replies.restate hcan.noCap (fun heq => by cases heq) fun _ _ => hmaster
      · cases hts : s.tsType t with
        | blockedOnReceive => exact absurd ⟨h0, hts⟩ hrecv
        | runningVM => exact absurd hts (h.settled.threads.noVM t)
        | _ => exact ⟨_, q, rfl, hactive, rfl⟩
      · exact absurd hrecv.1 h0
      · exact ⟨_, q, rfl, hactive, rfl⟩

theorem receiveAsyncIPC (h : KInv cfg s q) (hact : Acting s) (a : Nat) (isBlocking : Bool) :
    ∃ s' q', receiveAsyncIPC cfg s s.ksCurThread a isBlocking = .ok s' ∧ KInv cfg s' q' ∧
      q' = if s.aepState a ≠ .active ∧ isBlocking = true then
          update q (.aep a) (q (.aep a) ++ [s.ksCurThread])
        else q := by
  obtain ⟨htcb, hidle, htype, hmaster⟩ := h.acting_tcb hact
  have hblock : ∃ s', blockOnAsyncEvent cfg s s.ksCurThread a = .ok s' ∧
      KInv cfg s' (update q (.aep a) (q (.aep a) ++ [s.ksCurThread])) := by
    obtain ⟨s₂, hcall, hres, hs₂, -⟩ := h.settled.stop .blockedOnAsyncEvent { s with
      tsType := update s.tsType s.ksCurThread .blockedOnAsyncEvent
      blockingIPCEndpoint := update s.blockingIPCEndpoint s.ksCurThread a } hact.aside htcb hidle
      rfl rfl rfl (by decide)
    have happend : (aepAppend s₂ a s.ksCurThread).schedPart = s₂.schedPart ∧
        (aepAppend s₂ a s.ksCurThread).tsType = s₂.tsType ∧
        (aepAppend s₂ a s.ksCurThread).tcbReply = s₂.tcbReply ∧
        (aepAppend s₂ a s.ksCurThread).replyCap = s₂.replyCap := by
      rw [aepAppend, tcbEPAppend_eq]
      exact ⟨rfl, rfl, rfl, rfl⟩
    obtain ⟨ha1, ha2, ha3, ha4⟩ := happend
    refine ⟨_, ?_, hs₂.frame ha1 ha2, ?_, ?_⟩
    · rw [blockOnAsyncEvent, hcall]
      rfl
    · exact h.waiting.blockAEP (acting_notWaiting hact) (isTcb_ne_zero htcb) hres.epPart
    · rw [KState.Replies, ha2, ha3, ha4]
      refine hres.scheduled.replies ?_
      exact h.replies.restate (h.replies.noCap htype) (fun heq => by cases heq) fun _ _ => hmaster
  obtain ⟨s', hcall, hinv⟩ := hblock
  have hkeep : KInv cfg (s.setRegister s.ksCurThread badgeRegister 0) q := h.congr rfl
  unfold Kernel.receiveAsyncIPC
  cases hstate : s.aepState a with
  | active =>
      refine ⟨_, q, rfl, h.aepChange a .idle (by rw [hstate]; decide) (by decide)
        ?_, ?_⟩
      · rfl
      · rw [if_neg fun hc => hc.1 rfl]
  | idle | waiting =>
      cases isBlocking with
      | true => exact ⟨s', _, hcall, hinv, (if_pos ⟨by decide, rfl⟩).symm⟩
      | false => exact ⟨_, q, rfl, hkeep, (if_neg fun hc => by cases hc.2).symm⟩

/-! ## An endpoint goes away -/

theorem length_le (h : KInv cfg s q) (i : QueueId) : (q i).length ≤ maxThreads := by
  refine (h.waiting.queues.holds i).length_le (· / 2 ^ 9) (fun x hx y hy hxy => ?_)
    fun x hx => ?_
  · have hxt := (h.queued hx).1.tcb
    have hyt := (h.queued hy).1.tcb
    simp only [IsTcb] at hxt hyt hxy
    omega
  · have hxt := (h.queued hx).1.tcb
    simp only [IsTcb, maxThreads] at hxt ⊢
    omega

theorem cancelAll (h : KInv cfg s q) (i : QueueId) :
    ∃ s', restartAll cfg (emptyQueue s i) (s.queueOf i).head = .ok s' ∧
      KInv cfg s' (update q i []) ∧
        s'.tsType = fun z => if z ∈ q i then .restart else s.tsType z := by
  have hholds := h.waiting.queues.holds i
  obtain ⟨s₀, hs₀⟩ : ∃ s₀, s₀ = emptyQueue s i := ⟨_, rfl⟩
  have hparts : s₀.schedPart = s.schedPart ∧ s₀.tsType = s.tsType ∧ s₀.epLinks = s.epLinks ∧
      s₀.tcbReply = s.tcbReply ∧ s₀.replyCap = s.replyCap := by
    rw [hs₀]
    cases i <;> exact ⟨rfl, rfl, rfl, rfl, rfl⟩
  obtain ⟨hsched, hts, hlinks, hmap, hcap⟩ := hparts
  obtain ⟨s₁, hcall₁, hs₁, hres₁⟩ := cancelAllLoop_ok (h.settled.toSched.frame hsched hts)
    (hlinks ▸ hholds.seg) hholds.nodup
    (fun z hz => by
      obtain ⟨hrun, htcb, hidle⟩ := (h.queued hz).1
      refine ⟨?_, htcb, ?_⟩
      · rw [isRunnable, hts]
        exact hrun
      · exact fun heq => hidle (heq.trans (congrArg SchedPart.ksIdleThread hsched)))
    (h.length_le i)
  obtain ⟨s', hcall', hres', hs', -⟩ := hs₁.reschedule
  have hres := hres₁.trans hres'
  have htype : s'.tsType = fun z => if z ∈ q i then .restart else s.tsType z := by
    have := congrArg EpPart.tsType hres.epPart
    exact this.trans (by simp only [KState.epPart, hts])
  refine ⟨s', ?_, ⟨hs', ?_, hres.scheduled.replies ?_⟩, htype⟩
  · rw [restartAll, ← hs₀, hholds.head, hcall₁]
    exact hcall'
  · refine h.waiting.clear i .restart (by decide) (hres.epPart.trans ?_)
    rw [hts, hs₀]
  · rw [KState.Replies, hts]
    dsimp only
    rw [hmap, hcap]
    refine h.replies.retype fun z hz => ?_
    by_cases hzi : z ∈ q i
    · obtain ⟨-, hreply, hmaster⟩ := h.queued hzi
      refine ⟨h.replies.noCap hreply, ?_, fun _ _ => hmaster⟩
      rw [if_pos hzi]
      exact fun heq => by cases heq
    · exact absurd (if_neg hzi) hz

theorem epCancelAll (h : KInv cfg s q) (e : Nat) :
    ∃ s', epCancelAll cfg s e = .ok s' ∧ KInv cfg s' (update q (.ep e) []) ∧
      s'.tsType = fun z => if z ∈ q (.ep e) then .restart else s.tsType z := by
  obtain ⟨s', hcall, hinv, htype⟩ := h.cancelAll (.ep e)
  unfold Kernel.epCancelAll
  cases hstate : s.epState e with
  | idle =>
      have hnil : q (.ep e) = [] := (h.waiting.state _).mp (by simp [KState.waitState, hstate])
      refine ⟨s, rfl, ?_, ?_⟩
      · rwa [← hnil, update_eq_self]
      · simp only [hnil, List.not_mem_nil, if_false]
  | send | recv => exact ⟨s', hcall, hinv, htype⟩

theorem aepCancelAll (h : KInv cfg s q) (a : Nat) :
    ∃ s', aepCancelAll cfg s a = .ok s' ∧ KInv cfg s' (update q (.aep a) []) := by
  obtain ⟨s', hcall, hinv, -⟩ := h.cancelAll (.aep a)
  unfold Kernel.aepCancelAll
  cases hstate : s.aepState a with
  | waiting => exact ⟨s', hcall, hinv⟩
  | idle | active =>
      have hnil : q (.aep a) = [] := (h.waiting.state _).mp (by simp [KState.waitState, hstate])
      refine ⟨s, rfl, ?_⟩
      rwa [← hnil, update_eq_self]

/-- The senders with the badge start again, and the others wait on in their order. -/
theorem epCancelBadgedSends (h : KInv cfg s q) (e badge : Nat) :
    ∃ s', epCancelBadgedSends cfg s e badge = .ok s' ∧
      KInv cfg s' (if s.epState e = .send then
        update q (.ep e) ((q (.ep e)).filter fun z => s.blockingIPCBadge z ≠ badge) else q) ∧
      s'.tsType = fun z => if s.epState e = .send ∧ z ∈ q (.ep e) ∧ s.blockingIPCBadge z = badge
        then .restart else s.tsType z := by
  unfold Kernel.epCancelBadgedSends
  cases hstate : s.epState e with
  | idle | recv =>
      refine ⟨s, rfl, ?_, ?_⟩
      · rwa [if_neg (by decide)]
      · simp
  | send =>
      have hholds := h.waiting.queues.holds (.ep e)
      obtain ⟨s₀, hs₀⟩ : ∃ s₀, s₀ = setEPQueue (setEPState s e .idle) e .empty := ⟨_, rfl⟩
      have hsched₀ : Sched cfg s₀ 0 :=
        h.settled.toSched.frame (by rw [hs₀]; rfl) (by rw [hs₀]; rfl)
      have hholds₀ : Holds s₀.epLinks (s.epQueue e) ([] ++ q (.ep e)) := by
        rw [hs₀]
        exact hholds
      have hblocked₀ : ∀ z ∈ q (.ep e), Blocked s₀ z := by
        intro z hz
        obtain ⟨hrun, htcb, hidle⟩ := (h.queued hz).1
        rw [hs₀]
        exact ⟨hrun, htcb, hidle⟩
      obtain ⟨s₁, queue, hcall₁, hs₁, hholds₁, hframe₁, hres₁⟩ :=
        cancelBadgedLoop_ok hsched₀ badge [] hholds₀ hblocked₀ (h.length_le _)
      rw [List.nil_append] at hholds₁ hframe₁
      have hhead : (q (.ep e)).headD 0 = (s.epQueue e).head := hholds.head.symm
      rw [hhead] at hcall₁
      have hbadge : s₀.blockingIPCBadge = s.blockingIPCBadge := by rw [hs₀]; rfl
      have hts₀ : s₀.tsType = s.tsType := by rw [hs₀]; rfl
      have hlinks₀ : s₀.epLinks = s.epLinks := by rw [hs₀]; rfl
      rw [hbadge, hts₀] at hres₁
      rw [hbadge] at hholds₁
      rw [hlinks₀] at hframe₁
      -- the queue is put back
      obtain ⟨s₂, hs₂⟩ : ∃ s₂, s₂ = (if queue.head ≠ 0 then
        setEPState (setEPQueue s₁ e queue) e .send else setEPQueue s₁ e queue) := ⟨_, rfl⟩
      have hsched₂ : Sched cfg s₂ 0 := by
        refine hs₁.frame ?_ ?_ <;> rw [hs₂] <;> split_ifs <;> rfl
      obtain ⟨s', hcall', hres', hs', -⟩ := hsched₂.reschedule
      have hts₁ : s₁.tsType = fun z => if z ∈ q (.ep e) ∧ s.blockingIPCBadge z = badge then
          .restart else s.tsType z := congrArg EpPart.tsType hres₁.epPart
      have hts₂ : s₂.tsType = s₁.tsType := by rw [hs₂]; split_ifs <;> rfl
      have hlinks₂ : s₂.epLinks = s₁.epLinks := by rw [hs₂]; split_ifs <;> rfl
      have hpart₂ : s₂.epPart = KState.epPart { s with
          tsType := fun z => if z ∈ q (.ep e) ∧ s.blockingIPCBadge z = badge then .restart
            else s.tsType z
          tcbEPNext := s₂.tcbEPNext
          tcbEPPrev := s₂.tcbEPPrev
          epQueue := update s.epQueue e queue
          epState := update s.epState e (if queue.head = 0 then .idle else .send) } := by
        have hpart₁ := hres₁.epPart
        injection hpart₁ with h1 h2 h3 h4 h5 h6 h7 h8
        simp only [hs₀, setEPQueue, setEPState] at h2 h5 h6 h7 h8
        rw [KState.epPart, hts₂, hts₁, hs₂]
        by_cases hnil : queue.head = 0
        · simp only [hnil, ne_eq, not_true, if_true, if_false, setEPQueue, h2, h5, h6, h7, h8,
            update_idem, KState.epPart]
        · simp only [hnil, ne_eq, not_false_eq_true, if_true, if_false, setEPQueue, setEPState, h2,
            h5, h6, h7, h8, update_idem, KState.epPart]
      have hwaiting₂ := h.waiting.keepBadges hstate (hlinks₂ ▸ hholds₁) (hlinks₂ ▸ hframe₁) hpart₂
      have htype' : s'.tsType = s₂.tsType := congrArg EpPart.tsType hres'.epPart
      refine ⟨s', ?_, ⟨hs', ?_, ?_⟩, ?_⟩
      · simp only [bind, Except.bind]
        rw [← hs₀, hcall₁]
        dsimp only
        rw [← hcall', hs₂]
      · rw [if_pos rfl]
        exact hwaiting₂.congr hres'.epPart
      · refine hres'.scheduled.replies ?_
        have hmap₂ : s₂.tcbReply = s.tcbReply ∧ s₂.replyCap = s.replyCap := by
          unfold Rescheduled at hres₁
          rw [hs₂]
          split_ifs <;> rw [hres₁, hs₀] <;> exact ⟨rfl, rfl⟩
        rw [KState.Replies, hts₂, hts₁, hmap₂.1, hmap₂.2]
        refine h.replies.retype fun z hz => ?_
        by_cases hzi : z ∈ q (.ep e) ∧ s.blockingIPCBadge z = badge
        · obtain ⟨-, hreply, hmaster⟩ := h.queued hzi.1
          refine ⟨h.replies.noCap hreply, ?_, fun _ _ => hmaster⟩
          rw [if_pos hzi]
          exact fun heq => by cases heq
        · exact absurd (if_neg hzi) hz
      · rw [htype', hts₂, hts₁]
        simp

end KInv

end PartitionSeL4.Kernel
