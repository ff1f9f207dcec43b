import PartitionSeL4.Kernel.KernelRun
import PartitionSeL4.Kernel.Lookup

/-!
# The fast paths

Most system calls are those of a client that calls a server, and of the server that replies and
waits for the next call. The kernel has a fast path for each. It first checks that there is nothing
to do but to pass a short message, and then switches to the thread that gets it, with no scheduling
in between.

* `fastpathCall`, `fastpathReplyWait`: the fast paths. They give nothing where they go over to the
  slow path.
* `callEntry`, `replyWaitEntry`: what the slow path does for the same address.
* `fastpathCall_slowpath`, `fastpathReplyWait_slowpath`: with one domain, where the slow path's
  lookup does not fault, a fast path leaves the state that the slow path leaves, but for what is not
  in use.
-/

namespace PartitionSeL4.Kernel

open Lib Function

/-- What the fast paths use of the memory management. -/
structure FastPlatform (μ : Type) where
  isValidVTableRoot : μ → (thread : Nat) → Bool
  /-- `pde_pde_invalid_get_stored_asid_valid` of the thread's page directory. -/
  storedASIDValid : μ → (thread : Nat) → Bool
  /-- `armv_contextSwitch_HWASID`, and the thread's IPC buffer becomes the current one. -/
  switchToThread : μ → (thread : Nat) → μ

/-- The slow path switches in the same way to a thread that passes the checks. -/
def FastPlatform.Agrees {μ : Type} (fp : FastPlatform μ) (plat : Platform μ) : Prop :=
  ∀ m t, fp.isValidVTableRoot m t = true → fp.storedASIDValid m t = true →
    fp.switchToThread m t = plat.archSwitchToThread m t

section Fastpath

variable {μ : Type} (cfg : Config) (fp : FastPlatform μ)

/-- `fastpath_copy_mrs`: the loop of `copyMRs`, unrolled. -/
def fastpathCopyMrs (c : Context μ) (length src dest : Nat) : Context μ :=
  let c := if 1 ≤ length then c.setRegister dest 2 (c.getRegister src 2) else c
  let c := if 2 ≤ length then c.setRegister dest 3 (c.getRegister src 3) else c
  let c := if 3 ≤ length then c.setRegister dest 4 (c.getRegister src 4) else c
  if 4 ≤ length then c.setRegister dest 5 (c.getRegister src 5) else c

/-- `fastpath_restore`: the thread goes on with the tag and the badge in its registers. -/
def fastpathRestore (c : Context μ) (badge msgInfo curThread : Nat) : Context μ :=
  (c.setRegister curThread msgInfoRegister msgInfo).setRegister curThread badgeRegister badge

/-- `thread_state_ptr_mset_blockingIPCEndpoint_tsType`: the endpoint and the thread's state are in
one word. -/
def msetBlockingIPCEndpointTsType (s : KState μ) (tcb epRef : Nat) (tsType : ThreadStateType) :
    KState μ :=
  { s with
    tsType := update s.tsType tcb tsType
    blockingIPCEndpoint := update s.blockingIPCEndpoint tcb epRef }

/-- `thread_state_ptr_set_tsType_np`: the endpoint is overwritten. -/
def setTsTypeNp (s : KState μ) (tcb : Nat) (tsType : ThreadStateType) : KState μ :=
  msetBlockingIPCEndpointTsType s tcb 0 tsType

/-- `thread_state_ptr_set_blockingIPCDiminish_np`: the rest of the word is overwritten. -/
def setBlockingIPCDiminishNp (s : KState μ) (tcb : Nat) (dim : Bool) : KState μ :=
  { s with
    blockingIPCBadge := update s.blockingIPCBadge tcb 0
    blockingIPCCanGrant := update s.blockingIPCCanGrant tcb false
    blockingIPCIsCall := update s.blockingIPCIsCall tcb false
    blockingIPCDiminishCaps := update s.blockingIPCDiminishCaps tcb dim }

/-- The first thread comes out of an endpoint's queue. -/
def fastpathDequeue (s : KState μ) (epptr dest : Nat) : KState μ :=
  let next := s.tcbEPNext dest
  let s := setEPQueue s epptr ⟨next, (s.epQueue epptr).tail⟩
  if next ≠ 0 then { s with tcbEPPrev := update s.tcbEPPrev next 0 }
  else setEPState (setEPQueue s epptr ⟨(s.epQueue epptr).head, 0⟩) epptr .idle

/-- The thread comes last in an endpoint's queue. -/
def fastpathEnqueue (s : KState μ) (epptr tcb : Nat) : KState μ :=
  let endpointTail := (s.epQueue epptr).tail
  let s :=
    if endpointTail = 0 then
      setEPQueue { s with tcbEPPrev := update s.tcbEPPrev tcb 0 } epptr ⟨tcb, endpointTail⟩
    else { s with
      tcbEPNext := update s.tcbEPNext endpointTail tcb
      tcbEPPrev := update s.tcbEPPrev tcb endpointTail }
  let s := setEPState (setEPQueue s epptr ⟨(s.epQueue epptr).head, tcb⟩) epptr .recv
  { s with tcbEPNext := update s.tcbEPNext tcb 0 }

/-- The end of both fast paths: the message is copied, and `dest` runs without having been in a
ready queue. -/
def fastpathSwitch (s : KState μ) (badge dest : Nat) : KState μ :=
  let cur := s.ksCurThread
  let info := { messageInfoFromWordRaw (s.context.getRegister cur msgInfoRegister) with
    msgCapsUnwrapped := 0 }
  let s := { s with context := fastpathCopyMrs s.context info.msgLength cur dest }
  let s := setTsTypeNp s dest .running
  let s := { s with
    context.mem := fp.switchToThread s.context.mem dest
    ksCurThread := dest }
  { s with context := fastpathRestore s.context badge (wordFromMessageInfo info) dest }

/-- `fastpath_call`, where the capability is one for the endpoint `epptr`. The order of the checks,
and of the lookup among them, does not matter: they change nothing. -/
def fastpathCallEndpoint (s : KState μ) (badge : Nat) (capCanSend capCanGrant : Bool)
    (epptr : Nat) : Option (KState μ) :=
  let cur := s.ksCurThread
  let aepptr := s.boundAsyncEndpoint cur
  let dest := (s.epQueue epptr).head
  if fastpathMiCheck (s.context.getRegister cur msgInfoRegister) ∨ s.tcbFault cur ≠ .null then none
  else if aepptr ≠ 0 ∧ s.aepState aepptr = .active then none
  else if capCanSend = false then none
  else if s.epState epptr ≠ .recv then none
  else if fp.isValidVTableRoot s.context.mem dest = false then none
  else if s.tcbPriority dest < s.tcbPriority cur then none
  else if capCanGrant = false ∨ s.blockingIPCDiminishCaps dest = true then none
  else if fp.storedASIDValid s.context.mem dest = false then none
  else if 1 < cfg.numDomains ∧ s.tcbDomain dest ≠ s.ksCurDomain then none
  else
    let s := fastpathDequeue s epptr dest
    let s := setTsTypeNp s cur .blockedOnReply
    let slot := callerSlot dest
    let s := { s with
      replyCap := update s.replyCap slot cur
      tcbReply := update s.tcbReply cur (some slot) }
    some (fastpathSwitch fp s badge dest)

/-- `fastpath_reply_wait`, where the capability is one for the endpoint `epptr`. -/
def fastpathReplyWaitEndpoint (s : KState μ) (capCanSend capCanReceive : Bool) (epptr : Nat) :
    Option (KState μ) :=
  let cur := s.ksCurThread
  let aepptr := s.boundAsyncEndpoint cur
  let slot := callerSlot cur
  let caller := s.replyCap slot
  if fastpathMiCheck (s.context.getRegister cur msgInfoRegister) ∨ s.tcbFault cur ≠ .null then none
  else if capCanReceive = false then none
  else if aepptr ≠ 0 ∧ s.aepState aepptr = .active then none
  else if s.epState epptr = .send then none
  else if caller = 0 then none
  else if s.tcbFault caller ≠ .null then none
  else if fp.isValidVTableRoot s.context.mem caller = false then none
  else if s.tcbPriority caller < s.tcbPriority cur then none
  else if fp.storedASIDValid s.context.mem caller = false then none
  else if 1 < cfg.numDomains ∧ s.tcbDomain caller ≠ s.ksCurDomain then none
  else
    let s := msetBlockingIPCEndpointTsType s cur epptr .blockedOnReceive
    let s := setBlockingIPCDiminishNp s cur (!capCanSend)
    let s := fastpathEnqueue s epptr cur
    let s := { s with
      tcbReply := update s.tcbReply caller (some 0)
      replyCap := update s.replyCap slot 0 }
    some (fastpathSwitch fp s 0 caller)

/-- `fastpath_call`. The current thread's root is `root`, and `slots` is what the CNodes hold. -/
def fastpathCall (s : KState μ) (slots : Nat → SlotCap) (root : SlotCap) (cptr : Nat) :
    Option (KState μ) :=
  match lookupFp slots cptr root with
  | .endpoint badge capCanSend _ capCanGrant epptr =>
      fastpathCallEndpoint cfg fp s badge capCanSend capCanGrant epptr
  | _ => none

/-- `fastpath_reply_wait`. -/
def fastpathReplyWait (s : KState μ) (slots : Nat → SlotCap) (root : SlotCap) (cptr : Nat) :
    Option (KState μ) :=
  match lookupFp slots cptr root with
  | .endpoint _ capCanSend capCanReceive _ epptr =>
      fastpathReplyWaitEndpoint cfg fp s capCanSend capCanReceive epptr
  | _ => none

end Fastpath

/-- What a call of an endpoint enters the kernel for, on the slow path. -/
def callEntry (slots : Nat → SlotCap) (root : SlotCap) (cptr : Nat) : Option KernelEntry :=
  match lookupCap slots cptr root with
  | .ok (.endpoint badge true _ capCanGrant epptr) =>
      some (.invocation true true (.endpoint badge capCanGrant epptr))
  | _ => none

/-- What a reply and a wait at an endpoint enter the kernel for. The reply changes no CNode. -/
def replyWaitEntry (slots : Nat → SlotCap) (root : SlotCap) (cptr : Nat) : Option KernelEntry :=
  match lookupCap slots cptr root with
  | .ok (.endpoint _ capCanSend true _ epptr) => some (.replyWait (.endpoint epptr capCanSend))
  | _ => none

variable {μ : Type} {cfg : Config} {plat : Platform μ} {fp : FastPlatform μ} {s s' : KState μ}
  {q : QueueId → List Nat} {t : Nat}

/-! ## What is not in use -/

/-- Two states that differ only in what nobody uses: the endpoint of a thread that waits at none,
and what a thread that does not wait to send would send. -/
structure AsUsed (s s' : KState μ) : Prop where
  rest : s' = { s with
    blockingIPCEndpoint := s'.blockingIPCEndpoint
    blockingIPCBadge := s'.blockingIPCBadge
    blockingIPCCanGrant := s'.blockingIPCCanGrant
    blockingIPCIsCall := s'.blockingIPCIsCall }
  endpoint : ∀ t, ¬ (s.tsType t).NotWaiting → s'.blockingIPCEndpoint t = s.blockingIPCEndpoint t
  sender : ∀ t, s.tsType t = .blockedOnSend →
    s'.blockingIPCBadge t = s.blockingIPCBadge t ∧
      s'.blockingIPCCanGrant t = s.blockingIPCCanGrant t ∧
      s'.blockingIPCIsCall t = s.blockingIPCIsCall t

namespace AsUsed

theorem waitsOn (h : AsUsed s s') : s'.waitsOn = s.waitsOn := by
  funext t
  have hts : s'.tsType t = s.tsType t := by rw [h.rest]
  by_cases hw : (s.tsType t).NotWaiting
  · rw [waitsOn_eq_none hw, waitsOn_eq_none (hts ▸ hw)]
  · exact waitsOn_congr hts (h.endpoint t hw)

theorem inv (h : AsUsed s s') (hinv : KInv cfg s q) : KInv cfg s' q := by
  have hwaits := h.waitsOn
  obtain ⟨hsettled, ⟨hqueues, hmem, hstate, hkind⟩, hreplies⟩ := hinv
  rw [h.rest] at hwaits ⊢
  refine ⟨hsettled.frame rfl rfl, ⟨hqueues, fun t i => ?_, hstate, hkind⟩, hreplies⟩
  rw [hwaits]
  exact hmem t i

end AsUsed

/-! ## The parts of the fast paths -/

theorem fastpathCopyMrs_eq (c : Context μ) {length src dest : Nat} (h : length ≤ nMsgRegisters) :
    fastpathCopyMrs c length src dest = copyInlineWords c src dest length := by
  obtain rfl | rfl | rfl | rfl | rfl : length = 0 ∨ length = 1 ∨ length = 2 ∨ length = 3 ∨
      length = 4 := by
    rw [nMsgRegisters] at h
    omega
  all_goals rfl

theorem doIPCTransfer_short {c : Context μ} {w : Nat} {sender endpoint badge receiver : Nat}
    {grant diminish : Bool} (hw : c.getRegister sender msgInfoRegister = w)
    (hshort : ¬ fastpathMiCheck w) :
    doIPCTransfer plat c .null sender endpoint badge grant receiver diminish =
      fastpathRestore (fastpathCopyMrs c (messageInfoFromWordRaw w).msgLength sender receiver) badge
        (wordFromMessageInfo { messageInfoFromWordRaw w with msgCapsUnwrapped := 0 }) receiver := by
  rw [fastpathCopyMrs_eq c (messageInfoFromWord_short hshort).2.2]
  exact doNormalTransfer_short hw hshort

theorem fastpathCopyMrs_mem (c : Context μ) (length src dest : Nat) :
    (fastpathCopyMrs c length src dest).mem = c.mem := by
  simp only [fastpathCopyMrs]
  split_ifs <;> rfl

theorem fastpathSwitch_context (endpoint badge : Nat) (grant diminish : Bool) {c : Context μ}
    {sender receiver : Nat} (hfp : fp.Agrees plat)
    (hvalid : fp.isValidVTableRoot c.mem receiver = true)
    (hasid : fp.storedASIDValid c.mem receiver = true)
    (hshort : ¬ fastpathMiCheck (c.getRegister sender msgInfoRegister)) (s : KState μ)
    (hcontext : s.context = c) (hcur : s.ksCurThread = sender) :
    (fastpathSwitch fp s badge receiver).context =
      { doIPCTransfer plat c .null sender endpoint badge grant receiver diminish with
        mem := plat.archSwitchToThread
          (doIPCTransfer plat c .null sender endpoint badge grant receiver diminish).mem
          receiver } := by
  subst hcontext hcur
  have hmem := fastpathCopyMrs_mem s.context (messageInfoFromWordRaw
    (s.context.getRegister s.ksCurThread msgInfoRegister)).msgLength s.ksCurThread receiver
  rw [doIPCTransfer_short rfl hshort]
  simp only [fastpathSwitch, setTsTypeNp, msetBlockingIPCEndpointTsType, fastpathRestore,
    Context.setRegister, hmem, hfp _ _ hvalid hasid]

theorem fastpathSwitch_eq (s : KState μ) (badge dest : Nat) :
    fastpathSwitch fp s badge dest = { s with
      tsType := update s.tsType dest .running
      blockingIPCEndpoint := update s.blockingIPCEndpoint dest 0
      ksCurThread := dest
      context := (fastpathSwitch fp s badge dest).context } := rfl

theorem fastpathDequeue_eq {e : Nat} (h : s.tcbEPPrev t = 0) :
    fastpathDequeue s e t = epDequeue s e t := by
  rw [epDequeue_eq h, fastpathDequeue]
  by_cases hnext : s.tcbEPNext t = 0
  · simp only [setEPQueue, setEPState, update_idem, update_self, hnext, ne_eq, not_true, if_true,
      if_false]
  · simp only [setEPQueue, hnext, ne_eq, not_false_eq_true, if_true, if_false]

theorem epAppend_eq (s : KState μ) (e t : Nat) (state : EPState) :
    epAppend s e t state = { s with
      tcbEPNext := update (if (s.epQueue e).head = 0 then s.tcbEPNext
        else update s.tcbEPNext (s.epQueue e).tail t) t 0
      tcbEPPrev := update s.tcbEPPrev t (s.epQueue e).tail
      epQueue := update s.epQueue e
        ⟨if (s.epQueue e).head = 0 then t else (s.epQueue e).head, t⟩
      epState := update s.epState e state } := by
  simp only [epAppend, tcbEPAppend, setEPQueue, setEPState]
  split_ifs <;> rfl

theorem fastpathEnqueue_eq {e : Nat} (h : (s.epQueue e).head = 0 ↔ (s.epQueue e).tail = 0) :
    fastpathEnqueue s e t = epAppend s e t .recv := by
  simp only [fastpathEnqueue, epAppend, tcbEPAppend, h]
  split_ifs with htail
  · simp only [setEPQueue, setEPState, update_idem, update_self, htail]
  · simp only [setEPQueue, setEPState]

/-! ## A call -/

/-- When the fast path of a call is taken. -/
theorem fastpathCallEndpoint_cases {badge e : Nat} {capCanSend capCanGrant : Bool}
    (h : fastpathCallEndpoint cfg fp s badge capCanSend capCanGrant e = some s') :
    (¬ fastpathMiCheck (s.context.getRegister s.ksCurThread msgInfoRegister) ∧
      s.tcbFault s.ksCurThread = .null) ∧ s.epState e = .recv ∧
      (fp.isValidVTableRoot s.context.mem (s.epQueue e).head = true ∧
        fp.storedASIDValid s.context.mem (s.epQueue e).head = true) ∧
      s.tcbPriority s.ksCurThread ≤ s.tcbPriority (s.epQueue e).head ∧
      (capCanGrant = true ∧ s.blockingIPCDiminishCaps (s.epQueue e).head = false) ∧
      ∃ s₁ d, s₁ = fastpathDequeue s e (s.epQueue e).head ∧
        s' = fastpathSwitch fp d badge (s.epQueue e).head ∧
        d = { setTsTypeNp s₁ s.ksCurThread .blockedOnReply with
          replyCap := update s₁.replyCap (callerSlot (s.epQueue e).head) s.ksCurThread
          tcbReply := update s₁.tcbReply s.ksCurThread
            (some (callerSlot (s.epQueue e).head)) } := by
  simp only [fastpathCallEndpoint, Option.ite_none_left_eq_some] at h
  obtain ⟨h1, h2, h3, h4, h5, h6, h7, h8, h9, h⟩ := h
  obtain ⟨hshort, hfault⟩ := not_or.mp h1
  obtain ⟨hgrant, hdim⟩ := not_or.mp h7
  exact ⟨⟨hshort, not_not.mp hfault⟩, not_not.mp h4, ⟨by simpa using h5, by simpa using h8⟩,
    not_lt.mp h6, ⟨by simpa using hgrant, by simpa using hdim⟩, _, _,
    rfl, (Option.some.inj h).symm, rfl⟩

theorem fastpathCallEndpoint_send {badge e : Nat} {capCanSend capCanGrant : Bool}
    (h : fastpathCallEndpoint cfg fp s badge capCanSend capCanGrant e = some s') :
    capCanSend = true := by
  simp only [fastpathCallEndpoint, Option.ite_none_left_eq_some] at h
  simpa using h.2.2.1

theorem sendIPC_call {e badge : Nat} (hone : cfg.numDomains = 1) (hstate : s.epState e = .recv)
    (h0 : (s.epQueue e).head ≠ 0) (hprev : s.tcbEPPrev (s.epQueue e).head = 0)
    (hne : (s.epQueue e).head ≠ s.ksCurThread)
    (hresume : s.ksSchedulerAction = .resumeCurrentThread)
    (hprio : s.tcbPriority s.ksCurThread ≤ s.tcbPriority (s.epQueue e).head)
    (hdim : s.blockingIPCDiminishCaps (s.epQueue e).head = false)
    (hslot : s.replyCap (callerSlot (s.epQueue e).head) = 0)
    (hmaster : s.tcbReply s.ksCurThread ≠ none) :
    sendIPC cfg plat s true true badge true s.ksCurThread e =
      .ok { epDequeue s e (s.epQueue e).head with
        context := doIPCTransfer plat s.context (s.tcbFault s.ksCurThread) s.ksCurThread e badge
          true (s.epQueue e).head false
        tsType := update (update s.tsType (s.epQueue e).head .running) s.ksCurThread .blockedOnReply
        ksSchedulerAction := .switchToThread (s.epQueue e).head
        tcbReply := update s.tcbReply s.ksCurThread (some (callerSlot (s.epQueue e).head))
        replyCap := update s.replyCap (callerSlot (s.epQueue e).head) s.ksCurThread } := by
  obtain ⟨m, hm⟩ := Option.ne_none_iff_exists'.mp hmaster
  have hmany : ¬ 1 < cfg.numDomains := by omega
  have hswitch : s.tcbPriority s.ksCurThread < s.tcbPriority (s.epQueue e).head ∨
      s.tcbPriority (s.epQueue e).head = s.tcbPriority s.ksCurThread := by omega
  simp only [sendIPC, hstate, h0, if_false, epDequeue_eq hprev, bind, Except.bind, hne,
    attemptSwitchTo, possibleSwitchTo, hmany, hswitch, hresume, hdim, true_and, and_true, if_true,
    true_or, afterTransfer, setupCallerCap, setThreadState, scheduleTCB, hm, hslot, ne_eq, not_true,
    reduceCtorEq, and_false, false_and]

theorem call_run (h : KInv cfg s q) (hresume : s.ksSchedulerAction = .resumeCurrentThread)
    (hidle : s.ksCurThread ≠ s.ksIdleThread) (hone : cfg.numDomains = 1) {badge e : Nat}
    (hstate : s.epState e = .recv)
    (hprio : s.tcbPriority s.ksCurThread ≤ s.tcbPriority (s.epQueue e).head)
    (hdim : s.blockingIPCDiminishCaps (s.epQueue e).head = false) {c : Context μ}
    (hc : c = doIPCTransfer plat s.context (s.tcbFault s.ksCurThread) s.ksCurThread e badge true
      (s.epQueue e).head false) :
    KernelEvent.run cfg plat s (.entry (.invocation true true (.endpoint badge true e))) =
      .ok { epDequeue s e (s.epQueue e).head with
        context := { c with mem := plat.archSwitchToThread c.mem (s.epQueue e).head }
        tsType := update (update (update s.tsType s.ksCurThread .restart) (s.epQueue e).head
          .running) s.ksCurThread .blockedOnReply
        tcbReply := update s.tcbReply s.ksCurThread (some (callerSlot (s.epQueue e).head))
        replyCap := update s.replyCap (callerSlot (s.epQueue e).head) s.ksCurThread
        ksCurThread := (s.epQueue e).head
        ksSchedulerAction := .resumeCurrentThread } := by
  have hact := h.settled.acting hresume hidle
  obtain ⟨-, -, -, hmaster⟩ := h.acting_tcb hact
  have hwait : s.waitState (.ep e) = some .blockedOnReceive := by rw [KState.waitState, hstate]
  obtain ⟨h0, hprev, hts, hne, hq⟩ := h.firstWaits hact hwait rfl
  have hsend : sendIPC cfg plat { s with tsType := update s.tsType s.ksCurThread .restart } true
      true badge true s.ksCurThread e = _ :=
    sendIPC_call hone hstate h0 hprev hne hresume hprio hdim (h.replies.receiver _ hts) hmaster
  have hdeq : epDequeue { s with tsType := update s.tsType s.ksCurThread .restart } e
    (s.epQueue e).head = _ := epDequeue_eq hprev
  rw [hdeq] at hsend
  rw [KernelEvent.run, KernelEntry.handle, handleInvocation]
  simp only [bind, Except.bind]
  rw [setThreadState_of_isRunnable rfl]
  simp only [Invocation.perform, hsend, epDequeue_eq hprev, ← hc]
  simp only [update_self, reduceCtorEq, if_false, schedule, enqueueRunnable, isRunnable,
    ThreadStateType.isRunnable, bind, Except.bind, switchToThread, tcbSchedDequeue, hq,
    Bool.false_eq_true, activateThread, update_of_ne hne]

theorem fastpathCallEndpoint_refines (h : KInv cfg s q)
    (hresume : s.ksSchedulerAction = .resumeCurrentThread) (hidle : s.ksCurThread ≠ s.ksIdleThread)
    (hone : cfg.numDomains = 1) (hfp : fp.Agrees plat) {badge e : Nat}
    {capCanSend capCanGrant : Bool}
    (hfast : fastpathCallEndpoint cfg fp s badge capCanSend capCanGrant e = some s') :
    ∃ s'', KernelEvent.run cfg plat s
        (.entry (.invocation true true (.endpoint badge capCanGrant e))) = .ok s'' ∧
      AsUsed s'' s' := by
  obtain ⟨⟨hshort, hfault⟩, hstate, ⟨hvalid, hasid⟩, hprio, ⟨rfl, hdim⟩, s₁, d, hs₁, rfl, hd⟩ :=
    fastpathCallEndpoint_cases hfast
  refine ⟨_, call_run h hresume hidle hone hstate hprio hdim rfl, ?_⟩
  have hwait : s.waitState (.ep e) = some .blockedOnReceive := by rw [KState.waitState, hstate]
  obtain ⟨-, hprev, -, hne, -⟩ := h.firstWaits (h.settled.acting hresume hidle) hwait rfl
  rw [hs₁, fastpathDequeue_eq hprev, epDequeue_eq hprev] at hd
  have hcontext := fastpathSwitch_context e badge true false hfp hvalid hasid hshort d
    (by rw [hd]; rfl) (by rw [hd]; rfl)
  have htype : update (update (update s.tsType s.ksCurThread .restart) (s.epQueue e).head
      .running) s.ksCurThread .blockedOnReply = update (update s.tsType s.ksCurThread
        .blockedOnReply) (s.epQueue e).head .running := by
    rw [update_comm hne.symm, update_idem, update_comm hne]
  rw [htype, epDequeue_eq hprev, fastpathSwitch_eq, hcontext, hfault, hd]
  refine ⟨?_, fun t ht => ?_, fun t _ => ⟨rfl, rfl, rfl⟩⟩
  · simp only [setTsTypeNp, msetBlockingIPCEndpointTsType, hresume]
  · have htd : t ≠ (s.epQueue e).head := by
      intro heq
      exact ht (by simp only [heq, update_self]; decide)
    have htc : t ≠ s.ksCurThread := by
      intro heq
      exact ht (by simp only [heq, update_of_ne hne.symm, update_self]; decide)
    simp only [setTsTypeNp, msetBlockingIPCEndpointTsType, update_of_ne htd, update_of_ne htc]

/-! ## A reply -/

/-- When the fast path of a reply is taken. -/
theorem fastpathReplyWaitEndpoint_cases {e : Nat} {capCanSend capCanReceive : Bool}
    (h : fastpathReplyWaitEndpoint cfg fp s capCanSend capCanReceive e = some s') :
    (¬ fastpathMiCheck (s.context.getRegister s.ksCurThread msgInfoRegister) ∧
      s.tcbFault s.ksCurThread = .null) ∧
      (¬ (s.boundAsyncEndpoint s.ksCurThread ≠ 0 ∧
        s.aepState (s.boundAsyncEndpoint s.ksCurThread) = .active) ∧ s.epState e ≠ .send) ∧
      (s.replyCap (callerSlot s.ksCurThread) ≠ 0 ∧
        s.tcbFault (s.replyCap (callerSlot s.ksCurThread)) = .null) ∧
      (fp.isValidVTableRoot s.context.mem (s.replyCap (callerSlot s.ksCurThread)) = true ∧
        fp.storedASIDValid s.context.mem (s.replyCap (callerSlot s.ksCurThread)) = true) ∧
      s.tcbPriority s.ksCurThread ≤ s.tcbPriority (s.replyCap (callerSlot s.ksCurThread)) ∧
      ∃ s₁ d, s₁ = fastpathEnqueue (setBlockingIPCDiminishNp
          (msetBlockingIPCEndpointTsType s s.ksCurThread e .blockedOnReceive) s.ksCurThread
            (!capCanSend)) e s.ksCurThread ∧
        s' = fastpathSwitch fp d 0 (s.replyCap (callerSlot s.ksCurThread)) ∧
        d = { s₁ with
          tcbReply := update s₁.tcbReply (s.replyCap (callerSlot s.ksCurThread)) (some 0)
          replyCap := update s₁.replyCap (callerSlot s.ksCurThread) 0 } := by
  simp only [fastpathReplyWaitEndpoint, Option.ite_none_left_eq_some] at h
  obtain ⟨h1, h2, h3, h4, h5, h6, h7, h8, h9, h10, h⟩ := h
  obtain ⟨hshort, hfault⟩ := not_or.mp h1
  exact ⟨⟨hshort, not_not.mp hfault⟩, ⟨h3, h4⟩, ⟨h5, not_not.mp h6⟩,
    ⟨by simpa using h7, by simpa using h9⟩, not_lt.mp h8, _, _, rfl, (Option.some.inj h).symm, rfl⟩

theorem fastpathReplyWaitEndpoint_receive {e : Nat} {capCanSend capCanReceive : Bool}
    (h : fastpathReplyWaitEndpoint cfg fp s capCanSend capCanReceive e = some s') :
    capCanReceive = true := by
  simp only [fastpathReplyWaitEndpoint, Option.ite_none_left_eq_some] at h
  simpa using h.2.1

theorem handleReply_eq {caller : Nat} (hone : cfg.numDomains = 1)
    (hcaller : s.replyCap (callerSlot s.ksCurThread) = caller) (h0 : caller ≠ 0)
    (hne : caller ≠ s.ksCurThread) (hts : s.tsType caller = .blockedOnReply)
    (hfault : s.tcbFault caller = .null) (hresume : s.ksSchedulerAction = .resumeCurrentThread)
    (hprio : s.tcbPriority s.ksCurThread ≤ s.tcbPriority caller)
    (hmaster : s.tcbReply caller ≠ none) :
    handleReply cfg plat s = .ok { s with
      context := doIPCTransfer plat s.context (s.tcbFault s.ksCurThread) s.ksCurThread 0 0 true
        caller false
      tsType := update s.tsType caller .running
      ksSchedulerAction := .switchToThread caller
      tcbReply := update s.tcbReply caller (some 0)
      replyCap := update s.replyCap (callerSlot s.ksCurThread) 0 } := by
  obtain ⟨m, hm⟩ := Option.ne_none_iff_exists'.mp hmaster
  have hmany : ¬ 1 < cfg.numDomains := by omega
  have hswitch : s.tcbPriority s.ksCurThread < s.tcbPriority caller ∨
      s.tcbPriority caller = s.tcbPriority s.ksCurThread := by omega
  simp only [handleReply, hcaller, h0, hne, if_false, doReplyTransfer, hts, ne_eq, not_true, hfault,
    if_true, setThreadState, scheduleTCB, false_and, attemptSwitchTo, possibleSwitchTo, hmany,
    hswitch, hresume, and_true, true_and, deleteReplyCap, hm, bind, Except.bind]

theorem handleWait_eq {e : Nat} {capCanSend : Bool}
    (hslot : s.replyCap (callerSlot s.ksCurThread) = 0)
    (haep : ¬ (s.boundAsyncEndpoint s.ksCurThread ≠ 0 ∧
      s.aepState (s.boundAsyncEndpoint s.ksCurThread) = .active))
    (hstate : s.epState e ≠ .send) (hact : s.ksSchedulerAction ≠ .resumeCurrentThread) :
    handleWait cfg plat s e capCanSend = .ok (epAppend { s with
      tsType := update s.tsType s.ksCurThread .blockedOnReceive
      blockingIPCEndpoint := update s.blockingIPCEndpoint s.ksCurThread e
      blockingIPCDiminishCaps := update s.blockingIPCDiminishCaps s.ksCurThread (!capCanSend) } e
        s.ksCurThread .recv) := by
  rw [handleWait, deleteCallerCap, deleteReplyCap, if_pos hslot]
  simp only [bind, Except.bind, receiveIPC, haep, if_false]
  cases hep : s.epState e with
  | send => exact absurd hep hstate
  | idle | recv =>
      simp only [blockOnReceive, scheduleTCB, hact, false_and, and_false, if_false, bind,
        Except.bind]

theorem replyWait_run (h : KInv cfg s q) (hresume : s.ksSchedulerAction = .resumeCurrentThread)
    (hidle : s.ksCurThread ≠ s.ksIdleThread) (hone : cfg.numDomains = 1) {e caller : Nat}
    {capCanSend : Bool} (haep : ¬ (s.boundAsyncEndpoint s.ksCurThread ≠ 0 ∧
      s.aepState (s.boundAsyncEndpoint s.ksCurThread) = .active)) (hstate : s.epState e ≠ .send)
    (hcaller : s.replyCap (callerSlot s.ksCurThread) = caller) (h0 : caller ≠ 0)
    (hnull : s.tcbFault caller = .null)
    (hprio : s.tcbPriority s.ksCurThread ≤ s.tcbPriority caller) {c : Context μ}
    (hc : c = doIPCTransfer plat s.context (s.tcbFault s.ksCurThread) s.ksCurThread 0 0 true caller
      false) :
    KernelEvent.run cfg plat s (.entry (.replyWait (.endpoint e capCanSend))) =
      .ok { epAppend s e s.ksCurThread .recv with
        context := { c with mem := plat.archSwitchToThread c.mem caller }
        tsType := update (update s.tsType caller .running) s.ksCurThread .blockedOnReceive
        blockingIPCEndpoint := update s.blockingIPCEndpoint s.ksCurThread e
        blockingIPCDiminishCaps := update s.blockingIPCDiminishCaps s.ksCurThread (!capCanSend)
        tcbReply := update s.tcbReply caller (some 0)
        replyCap := update s.replyCap (callerSlot s.ksCurThread) 0
        ksCurThread := caller
        ksSchedulerAction := .resumeCurrentThread } := by
  obtain ⟨-, hmaster, hts⟩ := h.replies.cap _ _ hcaller h0
  obtain ⟨hne, hq⟩ := h.stopped (h.settled.acting hresume hidle) (by rw [hts]; rfl)
  have hreply : handleReply cfg plat s = _ :=
    handleReply_eq hone hcaller h0 hne hts hnull hresume hprio
      (by rw [hmaster]; exact Option.some_ne_none _)
  rw [← hc] at hreply
  obtain ⟨s₁, hs₁⟩ : ∃ s₁, s₁ = { s with
    context := c
    tsType := update s.tsType caller .running
    ksSchedulerAction := .switchToThread caller
    tcbReply := update s.tcbReply caller (some 0)
    replyCap := update s.replyCap (callerSlot s.ksCurThread) 0 } := ⟨_, rfl⟩
  have hwait : handleWait cfg plat s₁ e capCanSend = _ :=
    handleWait_eq (by rw [hs₁]; exact update_self ..) (by rw [hs₁]; exact haep)
      (by rw [hs₁]; exact hstate) (by rw [hs₁]; exact fun hc => by cases hc)
  rw [KernelEvent.run, KernelEntry.handle, hreply, ← hs₁]
  simp only [bind, Except.bind, WaitFor.perform, hwait]
  simp only [hs₁, epAppend_eq, update_self, if_false, schedule, enqueueRunnable, isRunnable,
    ThreadStateType.isRunnable, bind, Except.bind, switchToThread, tcbSchedDequeue, hq,
    Bool.false_eq_true, activateThread, update_of_ne hne]

theorem fastpathReplyWaitEndpoint_refines (h : KInv cfg s q)
    (hresume : s.ksSchedulerAction = .resumeCurrentThread) (hidle : s.ksCurThread ≠ s.ksIdleThread)
    (hone : cfg.numDomains = 1) (hfp : fp.Agrees plat) {e : Nat} {capCanSend capCanReceive : Bool}
    (hfast : fastpathReplyWaitEndpoint cfg fp s capCanSend capCanReceive e = some s') :
    ∃ s'', KernelEvent.run cfg plat s (.entry (.replyWait (.endpoint e capCanSend))) = .ok s'' ∧
      AsUsed s'' s' := by
  obtain ⟨⟨hshort, hfault⟩, ⟨haep, hstate⟩, ⟨h0, hnull⟩, ⟨hvalid, hasid⟩, hprio, s₁, d, hs₁, rfl,
    hd⟩ := fastpathReplyWaitEndpoint_cases hfast
  obtain ⟨caller, hcaller⟩ : ∃ caller, s.replyCap (callerSlot s.ksCurThread) = caller := ⟨_, rfl⟩
  rw [hcaller] at h0 hnull hvalid hasid hprio hd ⊢
  refine ⟨_, replyWait_run h hresume hidle hone haep hstate hcaller h0 hnull hprio rfl, ?_⟩
  have hts := (h.replies.cap _ _ hcaller h0).2.2
  have hne := (h.stopped (h.settled.acting hresume hidle) (by rw [hts]; rfl)).1
  have hholds := h.waiting.queues.holds (.ep e)
  have hends : (s.epQueue e).head = 0 ↔ (s.epQueue e).tail = 0 :=
    hholds.head_eq_zero_iff.trans hholds.tail_eq_zero_iff.symm
  rw [hs₁.trans (fastpathEnqueue_eq hends), epAppend_eq] at hd
  have hcontext := fastpathSwitch_context 0 0 true false hfp hvalid hasid hshort d
    (by rw [hd]; rfl) (by rw [hd]; rfl)
  rw [fastpathSwitch_eq, hcontext, hfault, hd, epAppend_eq, update_comm hne]
  refine ⟨?_, fun t ht => ?_, fun t ht => ?_⟩
  · simp only [setBlockingIPCDiminishNp, msetBlockingIPCEndpointTsType, hresume]
  · have htc : t ≠ caller := by
      intro heq
      exact ht (by simp only [heq, update_self]; decide)
    simp only [setBlockingIPCDiminishNp, msetBlockingIPCEndpointTsType, update_of_ne htc]
  · have htc : t ≠ s.ksCurThread := by
      intro heq
      simp only [heq, update_of_ne hne.symm, update_self, reduceCtorEq] at ht
    simp only [setBlockingIPCDiminishNp, msetBlockingIPCEndpointTsType, update_of_ne htc,
      true_and]

/-! ## Runs -/

theorem AsUsed.event {e : KernelEvent μ} {s'' : KState μ} (hused : AsUsed s'' s')
    (hone : cfg.numDomains = 1) (h : KernelReached cfg plat s)
    (hcall : e.run cfg plat s = .ok s'') (hok : e.Ok cfg s) : KInv cfg s' s'.waiters := by
  have hcfg : cfg.Ok := fun hmany => absurd hone (by omega)
  have hinv := hused.inv ((h.next hok hcall).inv hcfg).1
  exact hinv.waiters_eq ▸ hinv

/-- With one domain, and where the slow path finds a capability too, a call on the fast path leaves
the state that it leaves on the slow path, but for what is not in use, and the invariants hold. -/
theorem fastpathCall_slowpath (hone : cfg.numDomains = 1) (hfp : fp.Agrees plat)
    (h : KernelReached cfg plat s) (hidle : s.ksCurThread ≠ s.ksIdleThread)
    {slots : Nat → SlotCap} {root found : SlotCap} {cptr : Nat}
    (hlookup : lookupCap slots cptr root = .ok found)
    (hfast : fastpathCall cfg fp s slots root cptr = some s') :
    KInv cfg s' s'.waiters ∧ ∃ e s'', callEntry slots root cptr = some e ∧
      KernelEvent.run cfg plat s (.entry e) = .ok s'' ∧ AsUsed s'' s' := by
  obtain ⟨hinv, hresume⟩ := h.inv fun hmany => absurd hone (by omega)
  rw [fastpathCall, (lookupFp_lookupCap slots cptr root).1 found hlookup] at hfast
  cases found with
  | null | cnode | other => cases hfast
  | endpoint badge capCanSend capCanReceive capCanGrant e =>
      obtain ⟨s'', hcall, hused⟩ := fastpathCallEndpoint_refines hinv hresume hidle hone hfp hfast
      obtain rfl : capCanSend = true := fastpathCallEndpoint_send hfast
      refine ⟨hused.event hone h hcall ⟨hidle, trivial⟩, _, s'', ?_, hcall, hused⟩
      rw [callEntry, hlookup]

/-- So does a reply, after which the server waits. -/
theorem fastpathReplyWait_slowpath (hone : cfg.numDomains = 1) (hfp : fp.Agrees plat)
    (h : KernelReached cfg plat s) (hidle : s.ksCurThread ≠ s.ksIdleThread)
    {slots : Nat → SlotCap} {root found : SlotCap} {cptr : Nat}
    (hlookup : lookupCap slots cptr root = .ok found)
    (hfast : fastpathReplyWait cfg fp s slots root cptr = some s') :
    KInv cfg s' s'.waiters ∧ ∃ e s'', replyWaitEntry slots root cptr = some e ∧
      KernelEvent.run cfg plat s (.entry e) = .ok s'' ∧ AsUsed s'' s' := by
  obtain ⟨hinv, hresume⟩ := h.inv fun hmany => absurd hone (by omega)
  rw [fastpathReplyWait, (lookupFp_lookupCap slots cptr root).1 found hlookup] at hfast
  cases found with
  | null | cnode | other => cases hfast
  | endpoint badge capCanSend capCanReceive capCanGrant e =>
      obtain ⟨s'', hcall, hused⟩ :=
        fastpathReplyWaitEndpoint_refines hinv hresume hidle hone hfp hfast
      obtain rfl : capCanReceive = true := fastpathReplyWaitEndpoint_receive hfast
      refine ⟨hused.event hone h hcall hidle, _, s'', ?_, hcall, hused⟩
      rw [replyWaitEntry, hlookup]

/-! ## Example runs -/

/-- All threads share one address space. -/
def bareFastPlatform : FastPlatform Unit where
  isValidVTableRoot _ _ := true
  storedASIDValid _ _ := true
  switchToThread m _ := m

theorem bareFastPlatform_agrees : bareFastPlatform.Agrees barePlatform := fun _ _ _ _ => rfl

/-- A root that takes the whole address: its first slot is for an endpoint, with the badge 7. -/
def endpointRoot : CNodeCap := ⟨24, 8, 0xE0010000, by decide, by decide, by decide⟩

def endpointSlots (slot : Nat) : SlotCap :=
  if slot = 0xE0010000 then .endpoint 7 true true true 0x40 else .null

theorem lookupCap_endpoint :
    lookupCap endpointSlots 0 (.cnode endpointRoot) = .ok (.endpoint 7 true true true 0x40) := by
  simp [lookupCap, resolveAddressBits, resolveLevels, endpointRoot, CNodeCap.slot, wordBits,
    endpointSlots]

theorem lookupFp_endpoint :
    lookupFp endpointSlots 0 (.cnode endpointRoot) = .endpoint 7 true true true 0x40 := by
  simp [lookupFp, lookupFpLevels, endpointRoot, CNodeCap.slot, wordBits, endpointSlots]

/-- The started thread calls the initial one, which waits. -/
theorem fastpathCall_slowpath_called : ∃ s s' s'' : KState Unit,
    fastpathCall oneDomain bareFastPlatform s endpointSlots (.cnode endpointRoot) 0 = some s' ∧
      KernelEvent.run oneDomain barePlatform s
        (.entry (.invocation true true (.endpoint 7 true 0x40))) = .ok s'' ∧
      AsUsed s'' s' ∧ s'.ksCurThread = 0xE0000300 := by
  obtain ⟨s', hfast, hcur⟩ : ∃ s', fastpathCall oneDomain bareFastPlatform receiversState
      endpointSlots (.cnode endpointRoot) 0 = some s' ∧ s'.ksCurThread = 0xE0000300 := by
    rw [fastpathCall, lookupFp_endpoint]
    exact ⟨_, rfl, rfl⟩
  obtain ⟨-, e, s'', he, hcall, hused⟩ := fastpathCall_slowpath rfl bareFastPlatform_agrees
    reached_receivers (show (_ : Nat) ≠ _ by decide) lookupCap_endpoint hfast
  rw [callEntry, lookupCap_endpoint] at he
  exact ⟨_, s', s'', hfast, Option.some.inj he ▸ hcall, hused, hcur⟩

set_option maxRecDepth 4000 in
/-- And the initial thread replies to it. -/
theorem fastpathReplyWait_slowpath_called : ∃ s s' s'' : KState Unit,
    fastpathReplyWait oneDomain bareFastPlatform s endpointSlots (.cnode endpointRoot) 0 =
        some s' ∧
      KernelEvent.run oneDomain barePlatform s
        (.entry (.replyWait (.endpoint 0x40 true))) = .ok s'' ∧
      AsUsed s'' s' ∧ s'.ksCurThread = 0xE0000500 := by
  obtain ⟨s', hfast, hcur⟩ : ∃ s', fastpathReplyWait oneDomain bareFastPlatform calledState
      endpointSlots (.cnode endpointRoot) 0 = some s' ∧ s'.ksCurThread = 0xE0000500 := by
    rw [fastpathReplyWait, lookupFp_endpoint]
    exact ⟨_, rfl, rfl⟩
  obtain ⟨-, e, s'', he, hcall, hused⟩ := fastpathReplyWait_slowpath rfl bareFastPlatform_agrees
    reached_called (show (_ : Nat) ≠ _ by decide) lookupCap_endpoint hfast
  rw [replyWaitEntry, lookupCap_endpoint] at he
  exact ⟨_, s', s'', hfast, Option.some.inj he ▸ hcall, hused, hcur⟩

end PartitionSeL4.Kernel
