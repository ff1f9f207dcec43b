import PartitionSeL4.Kernel.IpcReply
import PartitionSeL4.Lib.Run

/-!
# The kernel's runs

The kernel is entered by a system call, a fault or an interrupt. Before it leaves, it chooses a
thread and activates it.

* `Invocation`, `KernelEntry`: what the kernel is entered for, once capabilities are looked up and
  arguments are decoded.
* `boot`: the first state, in which the initial thread runs.
* `kernel_run`: no order of entries makes an assertion fail, and the invariants hold after each.
  One entry is not among them, the deletion of a reply capability: it does fail.
* `kernel_run_highest`: with one domain no thread that can run is lost, and none has a higher
  priority than the current thread.
* `waits_in_turn`: a thread that waits at an endpoint is overtaken by nobody.
-/

namespace PartitionSeL4.Kernel

open Lib Function

/-! ## Entries -/

/-- What an invocation performs. A thread or an endpoint goes away with the last capability for
it. -/
inductive Invocation where
  | endpoint (badge : Nat) (canGrant : Bool) (epptr : Nat)
  | asyncEndpoint (aepptr badge : Nat)
  | reply (slot : Nat)
  | suspend (target : Nat)
  | resume (target : Nat)
  | setPriority (target prio : Nat)
  | setDomain (target dom : Nat)
  | bindAsyncEndpoint (target aepptr : Nat)
  | unbindAsyncEndpoint (target : Nat)
  | finaliseThread (target : Nat)
  | finaliseEndpoint (epptr : Nat)
  | finaliseAsyncEndpoint (aepptr : Nat)
  | recycleEndpoint (isFinal : Bool) (epptr badge : Nat)
  | saveCaller (destSlot : Nat)
  | moveReply (srcSlot destSlot : Nat)
  | deleteReply (slot : Nat)
  deriving DecidableEq, Repr

/-- What a thread that waits does, after the capability that it names is looked up. -/
inductive WaitFor where
  | endpoint (epptr : Nat) (capCanSend : Bool)
  | asyncEndpoint (aepptr : Nat) (isBlocking : Bool)
  | fault (fault : Fault) (handler : Option (Nat × Nat))
  deriving DecidableEq, Repr

inductive KernelEntry where
  | invocation (isCall isBlocking : Bool) (inv : Invocation)
  | reply
  | wait (w : WaitFor)
  | replyWait (w : WaitFor)
  | yield
  | fault (fault : Fault) (handler : Option (Nat × Nat))
  | timerTick
  | interrupt (aepptr badge : Nat)
  deriving DecidableEq, Repr

/-- Between entries user code changes its registers and memory, and so does a system call that is
refused. -/
inductive KernelEvent (μ : Type) where
  | user (context : Context μ)
  | entry (e : KernelEntry)

section Entries

variable {μ : Type} (cfg : Config) (plat : Platform μ)

/-- `finaliseCap` of the last capability for a thread. -/
def finaliseThread (s : KState μ) (tcb : Nat) : Except KernelFault (KState μ) := do
  let s ← suspend cfg (unbindAsyncEndpoint s tcb) tcb
  .ok { s with tcbReply := update s.tcbReply tcb none }

/-- `finaliseCap` of the last capability for an asynchronous endpoint. -/
def finaliseAsyncEndpoint (s : KState μ) (aepptr : Nat) : Except KernelFault (KState μ) :=
  let boundTCB := s.aepBoundTCB aepptr
  aepCancelAll cfg (if boundTCB ≠ 0 then unbindAsyncEndpoint s boundTCB else s) aepptr

/-- `cteRecycle` of a capability for an endpoint, after those derived from it are revoked. The last
one first cancels what the endpoint's threads wait for. -/
def recycleEndpoint (s : KState μ) (isFinal : Bool) (epptr badge : Nat) :
    Except KernelFault (KState μ) := do
  let s ← (if isFinal then epCancelAll cfg s epptr else .ok s)
  if badge ≠ 0 then epCancelBadgedSends cfg s epptr badge else .ok s

/-- `cteDelete` of a slot that holds a reply capability or is empty. A reply capability has no place
in the derivation tree, but `cdtIsFinal` looks for its neighbours there, and `cap_get_capSpaceType`
does not know its type. -/
def cteDeleteReply (s : KState μ) (slot : Nat) : Except KernelFault (KState μ) :=
  if s.replyCap slot ≠ 0 then .error .assertFail else .ok s

def Invocation.perform (s : KState μ) (isBlocking isCall : Bool) :
    Invocation → Except KernelFault (KState μ)
  | endpoint badge canGrant epptr =>
      sendIPC cfg plat s isBlocking isCall badge canGrant s.ksCurThread epptr
  | asyncEndpoint aepptr badge => sendAsyncIPC cfg s aepptr badge
  | reply slot => doReplyTransfer cfg plat s s.ksCurThread (s.replyCap slot) slot
  | suspend target => Kernel.suspend cfg s target
  | resume target => restart cfg s target
  | setPriority target prio => Kernel.setPriority cfg s target prio
  | setDomain target dom => Kernel.setDomain cfg s target dom
  | bindAsyncEndpoint target aepptr => .ok (Kernel.bindAsyncEndpoint s target aepptr)
  | unbindAsyncEndpoint target => .ok (Kernel.unbindAsyncEndpoint s target)
  | finaliseThread target => Kernel.finaliseThread cfg s target
  | finaliseEndpoint epptr => epCancelAll cfg s epptr
  | finaliseAsyncEndpoint aepptr => Kernel.finaliseAsyncEndpoint cfg s aepptr
  | recycleEndpoint isFinal epptr badge => Kernel.recycleEndpoint cfg s isFinal epptr badge
  | saveCaller destSlot => invokeCNodeSaveCaller s destSlot
  | moveReply srcSlot destSlot => moveReplyCap s srcSlot destSlot
  | deleteReply slot => cteDeleteReply s slot

def replyFromKernel_success_empty (s : KState μ) (thread : Nat) : KState μ :=
  (s.setRegister thread badgeRegister 0).setRegister thread msgInfoRegister
    (wordFromMessageInfo ⟨0, 0, 0, 0⟩)

/-- `handleInvocation`, from where the arguments are decoded. -/
def handleInvocation (s : KState μ) (isCall isBlocking : Bool) (inv : Invocation) :
    Except KernelFault (KState μ) := do
  let thread := s.ksCurThread
  let s ← setThreadState cfg s thread .restart
  let s ← inv.perform cfg plat s isBlocking isCall
  if s.tsType thread = .restart then
    let s := if isCall then replyFromKernel_success_empty s thread else s
    setThreadState cfg s thread .running
  else .ok s

def WaitFor.perform (s : KState μ) : WaitFor → Except KernelFault (KState μ)
  | endpoint epptr capCanSend => handleWait cfg plat s epptr capCanSend
  | asyncEndpoint aepptr isBlocking => receiveAsyncIPC cfg s s.ksCurThread aepptr isBlocking
  | fault f handler => handleFault cfg plat s f handler

def KernelEntry.handle (s : KState μ) : KernelEntry → Except KernelFault (KState μ)
  | invocation isCall isBlocking inv => handleInvocation cfg plat s isCall isBlocking inv
  | reply => handleReply cfg plat s
  | wait w => w.perform cfg plat s
  | replyWait w => handleReply cfg plat s >>= fun s => w.perform cfg plat s
  | yield => handleYield cfg s
  | fault f handler => handleFault cfg plat s f handler
  | timerTick => Kernel.timerTick cfg s
  | interrupt aepptr badge => sendAsyncIPC cfg s aepptr badge

def KernelEvent.run (s : KState μ) : KernelEvent μ → Except KernelFault (KState μ)
  | user context => .ok { s with context := context }
  | entry e => do
      let s ← e.handle cfg plat s
      let s ← schedule cfg plat s
      activateThread cfg plat s

/-! ## What the capabilities and the decoding ensure -/

/-- A slot of a CNode, and not one of a thread. -/
def IsCNodeSlot (slot : Nat) : Prop := slot ≠ 0 ∧ ∀ tcb, IsTcb tcb → callerSlot tcb ≠ slot

/-- There is no capability for the idle thread. A priority is at most the current thread's. A reply
capability is moved to an empty slot, and it is not deleted, though the decoding allows it. -/
def Invocation.Ok (s : KState μ) : Invocation → Prop
  | reply slot => s.replyCap slot ≠ 0
  | suspend target | resume target | finaliseThread target => IsTcb target ∧ target ≠ s.ksIdleThread
  | setPriority _ prio => prio ≤ s.tcbPriority s.ksCurThread
  | setDomain _ dom => dom < cfg.numDomains
  | saveCaller destSlot => s.replyCap destSlot = 0 ∧ IsCNodeSlot destSlot
  | moveReply srcSlot destSlot =>
      s.replyCap srcSlot ≠ 0 ∧ s.replyCap destSlot = 0 ∧ IsCNodeSlot destSlot
  | deleteReply slot => s.replyCap slot = 0
  | _ => True

/-- The idle thread makes no system calls and has no faults. -/
def KernelEntry.Ok (s : KState μ) : KernelEntry → Prop
  | timerTick | interrupt _ _ => True
  | invocation _ _ inv => s.ksCurThread ≠ s.ksIdleThread ∧ inv.Ok cfg s
  | _ => s.ksCurThread ≠ s.ksIdleThread

def KernelEvent.Ok (s : KState μ) : KernelEvent μ → Prop
  | user _ => True
  | entry e => e.Ok cfg s

/-! ## Boot -/

/-- The kernel's zeroed data. -/
def KState.zero (context : Context μ) : KState μ where
  tsType _ := .inactive
  tcbQueued _ := false
  blockingIPCEndpoint _ := 0
  blockingIPCBadge _ := 0
  blockingIPCCanGrant _ := false
  blockingIPCIsCall _ := false
  blockingIPCDiminishCaps _ := false
  boundAsyncEndpoint _ := 0
  tcbFault _ := .null
  tcbDomain _ := 0
  tcbPriority _ := 0
  tcbTimeSlice _ := 0
  tcbSchedNext _ := 0
  tcbSchedPrev _ := 0
  tcbEPNext _ := 0
  tcbEPPrev _ := 0
  tcbReply _ := none
  epState _ := .idle
  epQueue _ := .empty
  aepState _ := .idle
  aepQueue _ := .empty
  aepBoundTCB _ := 0
  aepMsgIdentifier _ := 0
  replyCap _ := 0
  ksReadyQueues _ := .empty
  ksReadyQueuesL1Bitmap _ := 0
  ksReadyQueuesL2Bitmap _ _ := 0
  ksCurThread := 0
  ksIdleThread := 0
  ksSchedulerAction := .resumeCurrentThread
  ksCurDomain := 0
  ksDomainTime := 0
  ksDomScheduleIdx := 0
  context := context

def seL4_MaxPrio : Nat := 255

def createIdleThread (s : KState μ) (tcb : Nat) : Except KernelFault (KState μ) :=
  setThreadState cfg { s with ksIdleThread := tcb } tcb .idleThreadState

def createInitialThread (s : KState μ) (tcb : Nat) : Except KernelFault (KState μ) := do
  let s := { s with
    tcbTimeSlice := update s.tcbTimeSlice tcb cfg.timeSlice
    tcbPriority := update s.tcbPriority tcb seL4_MaxPrio }
  let s ← setThreadState cfg (setupReplyMaster s tcb) tcb .running
  let s := { s with
    ksSchedulerAction := .resumeCurrentThread
    ksCurThread := s.ksIdleThread }
  match cfg.ksDomSchedule[s.ksDomScheduleIdx]? with
  | none => .error .nullPointer
  | some (domain, length) =>
      if domain < cfg.numDomains ∧ 0 < length then
        switchToThread cfg plat { s with ksCurDomain := domain, ksDomainTime := length } tcb
      else .error .assertFail

def boot (context : Context μ) (idle tcb : Nat) : Except KernelFault (KState μ) := do
  let s ← createIdleThread cfg (.zero context) idle
  createInitialThread cfg plat s tcb

end Entries

variable {μ : Type} {cfg : Config} {plat : Platform μ} {s s' s₀ : KState μ}
  {q q' : QueueId → List Nat} {i : QueueId} {t : Nat} {ts : ThreadStateType}

/-! ## Queues in turn -/

/-- The threads before `t` in a queue that some have left. -/
theorem takeWhile_sublist {xs ys : List Nat} (h : ys.Sublist xs) (hy : t ∈ ys) (hn : xs.Nodup) :
    (ys.takeWhile (· ≠ t)).Sublist (xs.takeWhile (· ≠ t)) := by
  induction h with
  | slnil => exact .slnil
  | cons a h ih =>
      obtain ⟨ha, hn⟩ := List.nodup_cons.mp hn
      have hat : a ≠ t := fun hat => ha (hat ▸ h.subset hy)
      rw [List.takeWhile_cons_of_pos (by simpa using hat)]
      exact (ih hy hn).cons a
  | cons_cons a h ih =>
      by_cases hat : a = t
      · simp [hat]
      · rw [List.takeWhile_cons_of_pos (by simpa using hat),
          List.takeWhile_cons_of_pos (by simpa using hat)]
        exact (ih ((List.mem_cons.mp hy).resolve_left (Ne.symm hat)) hn.of_cons).cons_cons a

theorem takeWhile_append_of_mem {xs ys : List Nat} (h : t ∈ xs) :
    (xs ++ ys).takeWhile (· ≠ t) = xs.takeWhile (· ≠ t) := by
  induction xs with
  | nil => cases h
  | cons a xs ih =>
      by_cases hat : a = t
      · simp [hat]
      · rw [List.cons_append, List.takeWhile_cons_of_pos (by simpa using hat),
          List.takeWhile_cons_of_pos (by simpa using hat),
          ih ((List.mem_cons.mp h).resolve_left (Ne.symm hat))]

theorem update_sublist {xs : List Nat} (h : xs.Sublist (q i)) (j : QueueId) :
    (update q i xs j).Sublist (q j) := by
  by_cases hj : j = i
  · rw [hj, update_self]
    exact h
  · rw [update_of_ne hj]

/-- Some leave a queue, and at most one thread comes, to its end. -/
def Follows (xs ys : List Nat) : Prop :=
  ∃ l, l.Sublist xs ∧ (ys = l ∨ ∃ t, t ∉ xs ∧ ys = l ++ [t])

namespace Follows

variable {xs ys : List Nat}

theorem of_sublist (h : ys.Sublist xs) : Follows xs ys := ⟨ys, h, .inl rfl⟩

theorem refl (xs : List Nat) : Follows xs xs := of_sublist (.refl xs)

theorem append (h : t ∉ xs) : Follows xs (xs ++ [t]) := ⟨xs, .refl xs, .inr ⟨t, h, rfl⟩⟩

theorem change (h : Follows (q i) ys) (j : QueueId) : Follows (q j) (update q i ys j) := by
  by_cases hj : j = i
  · rw [hj, update_self]
    exact h
  · rw [update_of_ne hj]
    exact refl _

theorem cancelled (hsome : ∀ i, s.waitsOn t = some i → q' = update q i ((q i).erase t))
    (hnone : s.waitsOn t = none → q' = q) (j : QueueId) : Follows (q j) (q' j) := by
  cases hw : s.waitsOn t with
  | none =>
      rw [hnone hw]
      exact refl _
  | some i =>
      rw [hsome i hw]
      exact (of_sublist List.erase_sublist).change j

/-- Nobody comes before a thread that goes on waiting. -/
theorem before (h : Follows xs ys) (hx : t ∈ xs) (hy : t ∈ ys) (hn : xs.Nodup) :
    (ys.takeWhile (· ≠ t)).Sublist (xs.takeWhile (· ≠ t)) := by
  obtain ⟨l, hl, rfl | ⟨u, hu, rfl⟩⟩ := h
  · exact takeWhile_sublist hl hy hn
  · have hyl : t ∈ l := by
      refine (List.mem_append.mp hy).resolve_right fun htu => ?_
      exact hu (List.mem_singleton.mp htu ▸ hx)
    rw [takeWhile_append_of_mem hyl]
    exact takeWhile_sublist hl hyl hn

end Follows

/-! ## Steps of the kernel -/

namespace KInv

/-- A thread that can run goes on in another state in which it can. -/
theorem goOn (h : KInv cfg s q) (hrun : isRunnable s t = true) (hts : ts.isRunnable = true)
    (hvm : ts ≠ .runningVM) : KInv cfg { s with tsType := update s.tsType t ts } q := by
  have hnot : ts.NotWaiting := by
    refine ⟨?_, ?_, ?_⟩ <;>
    · rintro rfl
      cases hts
  have hstate : s.tsType t ≠ .blockedOnReply ∧ s.tsType t ≠ .inactive ∧
      s.tsType t ≠ .idleThreadState := by
    refine ⟨?_, ?_, ?_⟩ <;>
    · intro heq
      rw [isRunnable, heq] at hrun
      cases hrun
  have hthreads : Threads cfg { s with tsType := update s.tsType t ts } := by
    refine h.settled.threads.restate rfl rfl rfl (h.settled.isTcb hrun) (h.settled.ne_idle hrun)
      ⟨?_, hvm⟩
    rintro rfl
    cases hts
  refine ⟨h.settled.congr rfl hthreads fun z => ?_,
    h.waiting.restate (notWaiting_of_isRunnable hrun) hnot,
    h.replies.restate (h.replies.noCap hstate.1) (fun heq => absurd heq hnot.2.1)
      fun _ _ => h.replies.master t hstate.2.1 hstate.2.2⟩
  rw [isRunnable]
  by_cases hz : z = t
  · rw [hz, hrun]
    simpa using hts
  · dsimp only
    rw [update_of_ne hz]
    rfl

theorem leave (h : KInv cfg s q) (plat : Platform μ) (hcfg : cfg.Ok) :
    ∃ s', (do
      let s ← schedule cfg plat s
      activateThread cfg plat s) = .ok s' ∧ KInv cfg s' q ∧
        s'.ksSchedulerAction = .resumeCurrentThread := by
  obtain ⟨s₁, hcall₁, hsched, hs₁, hact₁, -⟩ := h.settled.schedule plat hcfg
  have h₁ := h.scheduled hsched hs₁
  obtain ⟨s', hcall, -, hact, hs'⟩ := hs₁.activateThread plat hact₁
  refine ⟨s', ?_, ?_, hact⟩
  · rw [hcall₁]
    exact hcall
  · rcases hs' with rfl | ⟨hts, hs'⟩
    · exact h₁
    · have hrun : isRunnable s₁ s₁.ksCurThread = true := by
        rw [isRunnable, hts]
        rfl
      rw [hs']
      have hon : KInv cfg
          { s₁ with tsType := update s₁.tsType s₁.ksCurThread .running } q :=
        h₁.goOn hrun rfl (by decide)
      exact hon.congr rfl

theorem current_not_mem (h : KInv cfg s q) (hact : Acting s) (j : QueueId) :
    s.ksCurThread ∉ q j :=
  h.waiting.not_mem (waitsOn_eq_none (acting_notWaiting hact)) j

theorem moveReplyCap (h : KInv cfg s q) {src dest : Nat} (h0 : s.replyCap src ≠ 0)
    (hempty : s.replyCap dest = 0) (hdest : IsCNodeSlot dest) :
    ∃ s', moveReplyCap s src dest = .ok s' ∧ KInv cfg s' q := by
  obtain ⟨-, hmap, -⟩ := h.replies.cap src _ rfl h0
  refine ⟨{ s with
    tcbReply := update s.tcbReply (s.replyCap src) (some dest)
    replyCap := update (update s.replyCap dest (s.replyCap src)) src 0 }, ?_,
    h.settled.frame rfl rfl, h.waiting.congr rfl, h.replies.move rfl h0 hdest.1 hempty
      fun z hz => hdest.2 z (h.settled.threads.tcb z (by rw [hz]; decide))⟩
  rw [Kernel.moveReplyCap]
  simp only [hempty, hmap, ne_eq, not_true, if_false]

theorem unbindAsyncEndpoint (h : KInv cfg s q) (t : Nat) :
    KInv cfg (unbindAsyncEndpoint s t) q := by
  rw [Kernel.unbindAsyncEndpoint]
  split_ifs
  · exact h.congr rfl
  · exact h

theorem finaliseThread (h : KInv cfg s q) (htcb : IsTcb t) (hidle : t ≠ s.ksIdleThread)
    (ht : s.ksSchedulerAction ≠ .switchToThread t) :
    ∃ s' q', finaliseThread cfg s t = .ok s' ∧ KInv cfg s' q' ∧ ∀ j, Follows (q j) (q' j) := by
  obtain ⟨s₁, hs₁⟩ : ∃ s₁, s₁ = Kernel.unbindAsyncEndpoint s t := ⟨_, rfl⟩
  have h₁ : KInv cfg s₁ q := hs₁ ▸ h.unbindAsyncEndpoint t
  have hkept : s₁.ksIdleThread = s.ksIdleThread ∧
      s₁.ksSchedulerAction = s.ksSchedulerAction := by
    rw [hs₁, Kernel.unbindAsyncEndpoint]
    split_ifs <;> exact ⟨rfl, rfl⟩
  obtain ⟨hidle₁, hact₁⟩ := hkept
  obtain ⟨s₂, q', hcall, hinv, htype, hq⟩ := h₁.suspend htcb (hidle₁ ▸ hidle) (hact₁ ▸ ht)
  refine ⟨{ s₂ with tcbReply := update s₂.tcbReply t none }, q', ?_,
    ⟨hinv.settled.frame rfl rfl, hinv.waiting.congr rfl, hinv.replies.master_clear htype⟩,
    Follows.cancelled (fun i hi => by rw [hq, hi]) fun hn => by rw [hq, hn]⟩
  rw [Kernel.finaliseThread, ← hs₁, hcall]
  rfl

theorem finaliseAsyncEndpoint (h : KInv cfg s q) (a : Nat) :
    ∃ s', finaliseAsyncEndpoint cfg s a = .ok s' ∧ KInv cfg s' (update q (.aep a) []) := by
  rw [Kernel.finaliseAsyncEndpoint]
  refine KInv.aepCancelAll ?_ a
  split_ifs
  · exact h.unbindAsyncEndpoint _
  · exact h

/-- Recycling only takes threads out of the endpoint's queue. -/
theorem recycleEndpoint (h : KInv cfg s q) (isFinal : Bool) (e badge : Nat) :
    ∃ s' q', recycleEndpoint cfg s isFinal e badge = .ok s' ∧ KInv cfg s' q' ∧
      ∀ j, (q' j).Sublist (q j) := by
  have hfinal : ∃ s₁ q₁, (if isFinal = true then Kernel.epCancelAll cfg s e else .ok s) = .ok s₁ ∧
      KInv cfg s₁ q₁ ∧ ∀ j, (q₁ j).Sublist (q j) := by
    split_ifs
    · obtain ⟨s₁, hcall, hinv, -⟩ := h.epCancelAll e
      exact ⟨s₁, _, hcall, hinv, update_sublist (List.nil_sublist _)⟩
    · exact ⟨s, q, rfl, h, fun _ => .refl _⟩
  obtain ⟨s₁, q₁, hcall₁, hinv₁, hsub₁⟩ := hfinal
  rw [Kernel.recycleEndpoint, hcall₁]
  simp only [bind, Except.bind]
  split_ifs
  swap
  · exact ⟨s₁, q₁, rfl, hinv₁, hsub₁⟩
  obtain ⟨s', hcall, hinv, -⟩ := hinv₁.epCancelBadgedSends e badge
  refine ⟨s', _, hcall, hinv, fun j => .trans ?_ (hsub₁ j)⟩
  split_ifs
  · exact update_sublist List.filter_sublist j
  · exact .refl _

theorem perform (h : KInv cfg s q) (hact : Acting s)
    (hresume : s.ksSchedulerAction = .resumeCurrentThread) (plat : Platform μ)
    (isBlocking isCall : Bool) (inv : Invocation) (hok : inv.Ok cfg s) :
    ∃ s' q', inv.perform cfg plat s isBlocking isCall = .ok s' ∧ KInv cfg s' q' ∧
      ∀ j, Follows (q j) (q' j) := by
  have hnot := h.current_not_mem hact
  have htarget : ∀ t, s.ksSchedulerAction ≠ .switchToThread t := by
    intro t
    rw [hresume]
    exact fun hc => by cases hc
  cases inv with
  | endpoint badge canGrant e =>
      obtain ⟨s', q', hcall, hinv, hq⟩ := h.sendIPC plat hact isBlocking isCall badge canGrant e
      refine ⟨s', q', hcall, hinv, fun j => ?_⟩
      rw [hq]
      split_ifs
      · exact (Follows.of_sublist (List.tail_sublist _)).change j
      · exact (Follows.append (hnot _)).change j
      · exact .refl _
  | asyncEndpoint a badge =>
      obtain ⟨s', q', hcall, hinv, hq⟩ := h.sendAsyncIPC a badge
      refine ⟨s', q', hcall, hinv, fun j => ?_⟩
      rw [hq]
      cases s.aepState a with
      | active => exact .refl _
      | waiting => exact (Follows.of_sublist (List.tail_sublist _)).change j
      | idle =>
          dsimp only
          split_ifs
          · exact (Follows.of_sublist List.erase_sublist).change j
          · exact .refl _
  | reply slot =>
      obtain ⟨s', hcall, hinv, -⟩ := h.doReplyTransfer plat s.ksCurThread hok
      exact ⟨s', q, hcall, hinv, fun _ => .refl _⟩
  | suspend t =>
      obtain ⟨s', q', hcall, hinv, -, hq⟩ := h.suspend hok.1 hok.2 (htarget t)
      exact ⟨s', q', hcall, hinv,
        Follows.cancelled (fun i hi => by rw [hq, hi]) fun hn => by rw [hq, hn]⟩
  | resume t =>
      obtain ⟨s', q', hcall, hinv, hq⟩ := h.restart hok.1 hok.2
      exact ⟨s', q', hcall, hinv,
        Follows.cancelled (fun i hi => by rw [hq, hi]) fun hn => by rw [hq, hn]⟩
  | setPriority t prio =>
      obtain ⟨rq, hready⟩ := h.settled.ready
      obtain ⟨s', hcall, hsched, hs'⟩ := h.settled.setPriority (htarget t)
        (Nat.lt_of_le_of_lt hok (hready.priority _)) hok
      exact ⟨s', q, hcall, h.scheduled hsched hs', fun _ => .refl _⟩
  | setDomain t dom =>
      obtain ⟨s', hcall, hsched, hs'⟩ := h.settled.setDomain (htarget t) hok
      exact ⟨s', q, hcall, h.scheduled hsched hs', fun _ => .refl _⟩
  | bindAsyncEndpoint t a => exact ⟨_, q, rfl, h.congr rfl, fun _ => .refl _⟩
  | unbindAsyncEndpoint t =>
      exact ⟨_, q, rfl, h.unbindAsyncEndpoint t, fun _ => .refl _⟩
  | finaliseThread t => exact h.finaliseThread hok.1 hok.2 (htarget t)
  | finaliseEndpoint e =>
      obtain ⟨s', hcall, hinv, -⟩ := h.epCancelAll e
      exact ⟨s', _, hcall, hinv, (Follows.of_sublist (List.nil_sublist _)).change⟩
  | finaliseAsyncEndpoint a =>
      obtain ⟨s', hcall, hinv⟩ := h.finaliseAsyncEndpoint a
      exact ⟨s', _, hcall, hinv, (Follows.of_sublist (List.nil_sublist _)).change⟩
  | recycleEndpoint isFinal e badge =>
      obtain ⟨s', q', hcall, hinv, hsub⟩ := h.recycleEndpoint isFinal e badge
      exact ⟨s', q', hcall, hinv, fun j => .of_sublist (hsub j)⟩
  | saveCaller dest =>
      rw [Invocation.perform, invokeCNodeSaveCaller]
      split_ifs with hcap
      · exact ⟨s, q, rfl, h, fun _ => .refl _⟩
      · obtain ⟨s', hcall, hinv⟩ := h.moveReplyCap hcap hok.1 hok.2
        exact ⟨s', q, hcall, hinv, fun _ => .refl _⟩
  | moveReply src dest =>
      obtain ⟨s', hcall, hinv⟩ := h.moveReplyCap hok.1 hok.2.1 hok.2.2
      exact ⟨s', q, hcall, hinv, fun _ => .refl _⟩
  | deleteReply slot =>
      exact ⟨s, q, if_neg (not_not.mpr hok), h, fun _ => .refl _⟩

theorem handleInvocation (h : KInv cfg s q) (hact : Acting s)
    (hresume : s.ksSchedulerAction = .resumeCurrentThread) (plat : Platform μ)
    (isCall isBlocking : Bool) (inv : Invocation) (hok : inv.Ok cfg s) :
    ∃ s' q', handleInvocation cfg plat s isCall isBlocking inv = .ok s' ∧ KInv cfg s' q' ∧
      ∀ j, Follows (q j) (q' j) := by
  obtain ⟨s₁, hs₁⟩ : ∃ s₁, s₁ = { s with
    tsType := update s.tsType s.ksCurThread .restart } := ⟨_, rfl⟩
  have h₁ : KInv cfg s₁ q := by
    rw [hs₁]
    exact h.goOn hact.run rfl (by decide)
  have hact₁ : Acting s₁ := by
    rw [hs₁]
    refine ⟨?_, hact.aside⟩
    simp [isRunnable, ThreadStateType.isRunnable]
  have hok₁ : inv.Ok cfg s₁ := by
    rw [hs₁]
    cases inv <;> exact hok
  obtain ⟨s₂, q', hcall, hinv, hturn⟩ :=
    h₁.perform hact₁ (by rw [hs₁]; exact hresume) plat isBlocking isCall inv hok₁
  rw [Kernel.handleInvocation]
  simp only [bind, Except.bind]
  rw [setThreadState_of_isRunnable rfl]
  dsimp only
  rw [← hs₁, hcall]
  dsimp only
  obtain ⟨s₃, hs₃⟩ : ∃ s₃, s₃ = (if isCall = true then
    replyFromKernel_success_empty s₂ s.ksCurThread else s₂) := ⟨_, rfl⟩
  have hpart : s₃.part = s₂.part := by
    rw [hs₃]
    split_ifs <;> rfl
  have h₃ := hinv.congr hpart
  rw [← hs₃]
  split_ifs with hrestart
  · refine ⟨_, q', setThreadState_of_isRunnable rfl, h₃.goOn ?_ rfl (by decide), hturn⟩
    rw [isRunnable, (KState.part_inj hpart).2.2.2.2, hrestart]
    rfl
  · exact ⟨s₂, q', rfl, hinv, hturn⟩

theorem wait (h : KInv cfg s q) (hact : Acting s) (plat : Platform μ) (w : WaitFor) :
    ∃ s' q', w.perform cfg plat s = .ok s' ∧ KInv cfg s' q' ∧ ∀ j, Follows (q j) (q' j) := by
  have hnot := h.current_not_mem hact
  cases w with
  | endpoint e capCanSend =>
      obtain ⟨s', q', hcall, hinv, hq⟩ := h.handleWait plat hact e capCanSend
      refine ⟨s', q', hcall, hinv, fun j => ?_⟩
      rw [hq]
      split_ifs
      · exact .refl _
      · exact (Follows.of_sublist (List.tail_sublist _)).change j
      · exact (Follows.append (hnot _)).change j
  | asyncEndpoint a isBlocking =>
      obtain ⟨s', q', hcall, hinv, hq⟩ := h.receiveAsyncIPC hact a isBlocking
      refine ⟨s', q', hcall, hinv, fun j => ?_⟩
      rw [hq]
      split_ifs
      · exact (Follows.append (hnot _)).change j
      · exact .refl _
  | fault f handler =>
      obtain ⟨s', q', hcall, hinv, hq⟩ := h.handleFault plat hact f handler
      refine ⟨s', q', hcall, hinv, fun j => ?_⟩
      rw [hq]
      cases handler with
      | none => exact .refl _
      | some be =>
          dsimp only
          split_ifs
          · exact (Follows.of_sublist (List.tail_sublist _)).change j
          · exact (Follows.append (hnot _)).change j

theorem handle (h : KInv cfg s q) (hresume : s.ksSchedulerAction = .resumeCurrentThread)
    (plat : Platform μ) (e : KernelEntry) (hok : e.Ok cfg s) :
    ∃ s' q', e.handle cfg plat s = .ok s' ∧ KInv cfg s' q' ∧ ∀ j, Follows (q j) (q' j) := by
  cases e with
  | invocation isCall isBlocking inv =>
      exact h.handleInvocation (h.settled.acting hresume hok.1) hresume plat isCall isBlocking inv
        hok.2
  | reply =>
      obtain ⟨s', hcall, hinv, -⟩ := h.handleReply plat (h.settled.acting hresume hok)
      exact ⟨s', q, hcall, hinv, fun _ => .refl _⟩
  | wait w => exact h.wait (h.settled.acting hresume hok) plat w
  | replyWait w =>
      obtain ⟨s₁, hcall₁, hinv₁, hact₁⟩ := h.handleReply plat (h.settled.acting hresume hok)
      obtain ⟨s', q', hcall, hinv, hturn⟩ := hinv₁.wait hact₁ plat w
      refine ⟨s', q', ?_, hinv, hturn⟩
      rw [KernelEntry.handle, hcall₁]
      exact hcall
  | yield =>
      have hact := h.settled.acting hresume hok
      obtain ⟨s', hcall, hsched, hs', -⟩ := h.settled.handleYield hact.run hact.aside.2
      exact ⟨s', q, hcall, h.scheduled hsched hs', fun _ => .refl _⟩
  | fault f handler => exact h.wait (h.settled.acting hresume hok) plat (.fault f handler)
  | timerTick =>
      obtain ⟨s', hcall, hsched, hs', -⟩ := h.settled.timerTick
      exact ⟨s', q, hcall, h.scheduled hsched hs', fun _ => .refl _⟩
  | interrupt a badge =>
      obtain ⟨s', q', hcall, hinv, hq⟩ := h.sendAsyncIPC a badge
      refine ⟨s', q', hcall, hinv, fun j => ?_⟩
      rw [hq]
      cases s.aepState a with
      | active => exact .refl _
      | waiting => exact (Follows.of_sublist (List.tail_sublist _)).change j
      | idle =>
          dsimp only
          split_ifs
          · exact (Follows.of_sublist List.erase_sublist).change j
          · exact .refl _

theorem event (h : KInv cfg s q) (hresume : s.ksSchedulerAction = .resumeCurrentThread)
    (hcfg : cfg.Ok) (plat : Platform μ) (e : KernelEvent μ) (hok : e.Ok cfg s) :
    ∃ s' q', e.run cfg plat s = .ok s' ∧ KInv cfg s' q' ∧
      s'.ksSchedulerAction = .resumeCurrentThread ∧ ∀ j, Follows (q j) (q' j) := by
  cases e with
  | user context => exact ⟨_, q, rfl, h.congr rfl, hresume, fun _ => .refl _⟩
  | entry e =>
      obtain ⟨s₁, q', hcall₁, hinv₁, hturn⟩ := h.handle hresume plat e hok
      obtain ⟨s', hcall, hinv, hact⟩ := hinv₁.leave plat hcfg
      refine ⟨s', q', ?_, hinv, hact, hturn⟩
      rw [KernelEvent.run, hcall₁]
      exact hcall

end KInv

/-! ## Runs -/

/-- The threads that wait at an endpoint, as its queue in memory lists them. -/
def KState.waiters (s : KState μ) (i : QueueId) : List Nat :=
  s.epLinks.walk maxThreads (s.queueOf i).head

theorem KInv.waiters_eq (h : KInv cfg s q) : s.waiters = q := by
  funext i
  have hholds := h.waiting.queues.holds i
  rw [KState.waiters, hholds.head]
  exact hholds.seg.walk (h.length_le i)

variable {context : Context μ} {idle tcb : Nat}

/-- The state that the kernel boots to: the initial thread runs. -/
def KState.booted (cfg : Config) (plat : Platform μ) (context : Context μ)
    (idle tcb domain length : Nat) : KState μ :=
  { KState.zero { context with mem := plat.archSwitchToThread context.mem tcb } with
    tsType := update (update (fun _ => .inactive) idle .idleThreadState) tcb .running
    tcbTimeSlice := update (fun _ => 0) tcb cfg.timeSlice
    tcbPriority := update (fun _ => 0) tcb seL4_MaxPrio
    tcbReply := update (fun _ => none) tcb (some 0)
    ksCurThread := tcb
    ksIdleThread := idle
    ksCurDomain := domain
    ksDomainTime := length }

theorem boot_eq (hidle : idle ≠ 0) {domain length : Nat}
    (hhead : cfg.ksDomSchedule[0]? = some (domain, length)) :
    boot cfg plat context idle tcb = if domain < cfg.numDomains ∧ 0 < length then
      .ok (.booted cfg plat context idle tcb domain length) else .error .assertFail := by
  rw [boot, createIdleThread, setThreadState, scheduleTCB, if_neg fun hc => hidle hc.1]
  simp only [bind, Except.bind, createInitialThread]
  rw [setThreadState_of_isRunnable rfl]
  dsimp only
  simp only [setupReplyMaster, KState.zero, hhead, switchToThread, tcbSchedDequeue,
    Bool.false_eq_true, if_false, bind, Except.bind]
  rfl

theorem boot_cases (hidle : idle ≠ 0) (h : boot cfg plat context idle tcb = .ok s) :
    ∃ domain length, domain < cfg.numDomains ∧
      s = .booted cfg plat context idle tcb domain length := by
  cases hhead : cfg.ksDomSchedule[0]? with
  | none =>
      rw [boot, createIdleThread, setThreadState, scheduleTCB, if_neg fun hc => hidle hc.1] at h
      simp only [bind, Except.bind, createInitialThread] at h
      rw [setThreadState_of_isRunnable rfl] at h
      simp only [setupReplyMaster, KState.zero, hhead] at h
      cases h
  | some head =>
      obtain ⟨domain, length⟩ := head
      rw [boot_eq hidle hhead] at h
      split_ifs at h with hdom
      exact ⟨domain, length, hdom.1, (Except.ok.inj h).symm⟩

namespace KState

variable {domain length : Nat}

theorem booted_tsType (t : Nat) :
    (booted cfg plat context idle tcb domain length).tsType t =
      if t = tcb then .running else if t = idle then .idleThreadState else .inactive := by
  simp only [booted, update_apply]

theorem booted_isRunnable (t : Nat) :
    isRunnable (booted cfg plat context idle tcb domain length) t = true ↔ t = tcb := by
  rw [isRunnable, booted_tsType]
  split_ifs <;> simp_all [ThreadStateType.isRunnable]

theorem booted_threads (hidle : IsTcb idle) (htcb : IsTcb tcb) (hne : tcb ≠ idle)
    (hdom : domain < cfg.numDomains) :
    Threads cfg (booted cfg plat context idle tcb domain length) := by
  refine ⟨fun t => ?_, fun t ht => ?_, fun t => ?_, hdom⟩
  · show _ ↔ t = idle
    rw [booted_tsType]
    split_ifs <;> simp_all
  · rw [booted_tsType] at ht
    split_ifs at ht <;> simp_all
  · rw [booted_tsType]
    split_ifs <;> decide

theorem booted_ready (hdom : domain < cfg.numDomains) :
    Ready cfg (booted cfg plat context idle tcb domain length) (fun _ => []) := by
  refine ⟨.empty, fun t i => ?_, fun t => Nat.zero_lt_of_lt hdom, fun t => ?_,
    fun dom l b _ _ => ?_, fun dom l _ => ?_⟩
  · exact iff_of_false (fun hc => by cases hc) fun hc => by cases hc.1
  · simp only [booted, update_apply]
    split_ifs <;> decide
  · simp [booted, zero]
  · simp [booted, zero]

theorem booted_settled (hidle : IsTcb idle) (htcb : IsTcb tcb) (hne : tcb ≠ idle)
    (hdom : domain < cfg.numDomains) :
    Settled cfg (booted cfg plat context idle tcb domain length) 0 := by
  refine ⟨⟨booted_threads hidle htcb hne hdom, ⟨_, booted_ready hdom⟩, ?_, rfl, ?_, ?_⟩, ?_, ?_, ?_⟩
  · exact fun t ht => by cases ht
  · exact fun _ t ht _ => .inr (.inl ((booted_isRunnable t).mp ht))
  · exact fun t ht => by cases ht
  · exact fun _ => ⟨.inl ((booted_isRunnable _).mpr rfl), rfl⟩
  · exact fun _ _ t ht => by cases ht
  · exact fun _ t ht => by cases ht

theorem booted_waiting :
    Waiting (booted cfg plat context idle tcb domain length) (fun _ => []) := by
  refine ⟨?_, fun t i => ?_, fun i => ?_, fun i t ht => by cases ht⟩
  · have hqueue : (booted cfg plat context idle tcb domain length).queueOf = fun _ => .empty := by
      funext i
      cases i <;> rfl
    rw [hqueue]
    exact .empty
  · rw [waitsOn_eq_none]
    · simp
    · rw [booted_tsType]
      split_ifs <;> decide
  · cases i <;> exact iff_of_true rfl rfl

theorem booted_replies : (booted cfg plat context idle tcb domain length).Replies := by
  refine ⟨fun slot t ht h0 => absurd ht.symm h0, fun t slot ht h0 => ?_, fun _ _ => rfl,
    fun t ht hi => ?_⟩
  · simp only [booted, update_apply] at ht
    split_ifs at ht
    exact absurd (Option.some.inj ht).symm h0
  · rw [booted_tsType] at ht hi
    simp only [booted, update_apply]
    split_ifs at ht hi ⊢ <;> simp_all

end KState

theorem boot_inv (hidle : IsTcb idle) (htcb : IsTcb tcb) (hne : tcb ≠ idle)
    (h : boot cfg plat context idle tcb = .ok s) :
    KInv cfg s (fun _ => []) ∧ s.ksSchedulerAction = .resumeCurrentThread := by
  obtain ⟨domain, length, hdom, rfl⟩ := boot_cases (isTcb_ne_zero hidle) h
  exact ⟨⟨KState.booted_settled hidle htcb hne hdom, KState.booted_waiting,
    KState.booted_replies⟩, rfl⟩

/-- The states that the kernel reaches from boot, by any events. -/
def KernelReached (cfg : Config) (plat : Platform μ) (s : KState μ) : Prop :=
  ∃ context idle tcb s₀ evs, IsTcb idle ∧ IsTcb tcb ∧ tcb ≠ idle ∧
    boot cfg plat context idle tcb = .ok s₀ ∧
    Run (KernelEvent.run cfg plat) (KernelEvent.Ok cfg) s₀ evs s

theorem KernelReached.next {e : KernelEvent μ} (h : KernelReached cfg plat s) (hok : e.Ok cfg s)
    (hcall : e.run cfg plat s = .ok s') : KernelReached cfg plat s' := by
  obtain ⟨context, idle, tcb, s₀, evs, hidle, htcb, hne, hboot, hrun⟩ := h
  exact ⟨context, idle, tcb, s₀, _, hidle, htcb, hne, hboot, hrun.trans (.single hok hcall)⟩

theorem KInv.run {ok : KState μ → KernelEvent μ → Prop} {evs : List (KernelEvent μ)}
    (h : KInv cfg s s.waiters) (hresume : s.ksSchedulerAction = .resumeCurrentThread)
    (hcfg : cfg.Ok) (hok : ∀ s e, ok s e → KernelEvent.Ok cfg s e)
    (hrun : Run (KernelEvent.run cfg plat) ok s evs s') :
    KInv cfg s' s'.waiters ∧ s'.ksSchedulerAction = .resumeCurrentThread := by
  refine hrun.invariant (I := fun s => KInv cfg s s.waiters ∧
    s.ksSchedulerAction = .resumeCurrentThread) ⟨h, hresume⟩ fun s e s' hs he hcall => ?_
  obtain ⟨s₁, q, hcall₁, hinv, hact, -⟩ := hs.1.event hs.2 hcfg plat e (hok s e he)
  rw [hcall] at hcall₁
  rw [Except.ok.inj hcall₁]
  exact ⟨hinv.waiters_eq ▸ hinv, hact⟩

theorem KernelReached.inv (h : KernelReached cfg plat s) (hcfg : cfg.Ok) :
    KInv cfg s s.waiters ∧ s.ksSchedulerAction = .resumeCurrentThread := by
  obtain ⟨context, idle, tcb, s₀, evs, hidle, htcb, hne, hboot, hrun⟩ := h
  obtain ⟨hinv, hresume⟩ := boot_inv hidle htcb hne hboot
  exact KInv.run (hinv.waiters_eq ▸ hinv) hresume hcfg (fun _ _ => id) hrun

/-- A thread that deletes a reply capability stops the kernel. -/
theorem deleteReply_stops {slot : Nat} (h0 : s.replyCap slot ≠ 0) (isCall isBlocking : Bool) :
    KernelEvent.run cfg plat s (.entry (.invocation isCall isBlocking (.deleteReply slot))) =
      .error .assertFail := by
  rw [KernelEvent.run, KernelEntry.handle, handleInvocation]
  simp only [bind, Except.bind]
  rw [setThreadState_of_isRunnable rfl]
  simp only [Invocation.perform, cteDeleteReply, if_pos h0]

/-- With one domain, a thread that can run is the current one or in a ready queue, with no higher
priority than the current thread's. And the current thread can run, or is the idle thread while
no thread has a higher priority than that. -/
theorem kernel_run_highest (hcfg : cfg.Ok) (hone : cfg.numDomains = 1)
    (h : KernelReached cfg plat s) :
    (isRunnable s s.ksCurThread = true ∨ s.ksCurThread = s.ksIdleThread) ∧
      ∀ t, isRunnable s t = true → t ≠ s.ksCurThread →
        s.tcbQueued t = true ∧ s.tcbPriority t ≤ s.tcbPriority s.ksCurThread := by
  obtain ⟨hinv, hresume⟩ := h.inv hcfg
  refine ⟨(hinv.settled.current hresume).1, fun t ht htc => ?_⟩
  have hq : s.tcbQueued t = true := by
    refine (hinv.settled.kept hone t ht (isTcb_ne_zero (hinv.settled.isTcb ht))).resolve_right ?_
    rintro (hc | hact)
    · exact htc hc
    · rw [hresume] at hact
      cases hact
  exact ⟨hq, hinv.settled.highest hone hresume t hq⟩

/-- While a thread waits at an endpoint, nobody comes before it in the queue: the threads that are
before it in the end have been so from the start, in the same order. -/
theorem waits_in_turn {evs : List (KernelEvent μ)} (hcfg : cfg.Ok) (h : KernelReached cfg plat s)
    (ht : t ∈ s.waiters i) (hrun : Run (KernelEvent.run cfg plat) (fun s e =>
      KernelEvent.Ok cfg s e ∧ ∀ s', e.run cfg plat s = .ok s' → t ∈ s'.waiters i) s evs s') :
    ((s'.waiters i).takeWhile (· ≠ t)).Sublist ((s.waiters i).takeWhile (· ≠ t)) := by
  obtain ⟨hinv, hresume⟩ := h.inv hcfg
  have hfinal := hrun.invariant (I := fun s' => KInv cfg s' s'.waiters ∧
      s'.ksSchedulerAction = .resumeCurrentThread ∧ t ∈ s'.waiters i ∧
      ((s'.waiters i).takeWhile (· ≠ t)).Sublist ((s.waiters i).takeWhile (· ≠ t)))
    ⟨hinv, hresume, ht, .refl _⟩ fun s₁ e s₂ hs₁ he hcall => by
      obtain ⟨hinv₁, hact₁, ht₁, hsub⟩ := hs₁
      obtain ⟨s₃, q, hcall₃, hinv₃, hact₃, hturn⟩ := hinv₁.event hact₁ hcfg plat e he.1
      rw [hcall] at hcall₃
      obtain rfl := Except.ok.inj hcall₃
      obtain rfl := hinv₃.waiters_eq
      have ht₂ := he.2 _ hcall
      have hnodup := (hinv₁.waiting.queues.holds i).nodup
      exact ⟨hinv₃, hact₃, ht₂, ((hturn i).before ht₁ ht₂ hnodup).trans hsub⟩
  exact hfinal.2.2.2

/-- There is at most one capability to reply to a thread, that thread waits for the reply, and a
thread that waits to receive has no reply capability that its next caller's would overwrite. -/
theorem kernel_run_replies (hcfg : cfg.Ok) (h : KernelReached cfg plat s) :
    (∀ slot slot', s.replyCap slot ≠ 0 → s.replyCap slot' = s.replyCap slot → slot' = slot) ∧
      (∀ slot, s.replyCap slot ≠ 0 → s.tsType (s.replyCap slot) = .blockedOnReply) ∧
      ∀ t, s.tsType t = .blockedOnReceive → s.replyCap (callerSlot t) = 0 := by
  have hr := (h.inv hcfg).1.replies
  refine ⟨fun slot slot' h0 heq => ?_, fun slot h0 => (hr.cap slot _ rfl h0).2.2, hr.receiver⟩
  obtain ⟨-, hslot, -⟩ := hr.cap slot _ rfl h0
  obtain ⟨-, hslot', -⟩ := hr.cap slot' _ heq h0
  exact Option.some.inj (hslot'.symm.trans hslot)

/-- A machine whose threads have no IPC buffers. -/
def barePlatform : Platform Unit where
  lookupIPCBuffer _ _ _ := 0
  copyBufferWord m _ _ _ := m
  lookupExtraCap _ _ _ _ := none
  transferExtraCaps m _ _ _ _ _ := (m, 0, 0)
  setMRsFault _ _ _ _ c := (c, 0)
  handleFaultReply _ _ _ c := (c, true)
  faultType _ := 0
  getRestartPC _ _ := 0
  setNextPC c _ _ := c
  archSwitchToThread m _ := m
  archSwitchToIdleThread m := m

def oneDomain : Config := ⟨1, [(0, 1)], 5⟩

theorem oneDomain_ok : oneDomain.Ok := fun h => absurd h (by decide)

/-- The initial thread is at 0xE0000300, the idle thread before it. -/
def bootedState : KState Unit := { KState.zero ⟨fun _ _ => 0, ()⟩ with
  tsType := update (update (fun _ => .inactive) 0xE0000100 .idleThreadState) 0xE0000300 .running
  tcbTimeSlice := update (fun _ => 0) 0xE0000300 5
  tcbPriority := update (fun _ => 0) 0xE0000300 seL4_MaxPrio
  tcbReply := update (fun _ => none) 0xE0000300 (some 0)
  ksCurThread := 0xE0000300
  ksIdleThread := 0xE0000100
  ksDomainTime := 1 }

theorem boot_booted : boot oneDomain barePlatform ⟨fun _ _ => 0, ()⟩ 0xE0000100 0xE0000300 =
    .ok bootedState :=
  (boot_eq (by decide) rfl).trans (if_pos (by decide))

theorem reached_booted : KernelReached oneDomain barePlatform bootedState :=
  ⟨_, _, _, _, _, by decide, by decide, by decide, boot_booted, .nil⟩

/-- A state after an entry that is admitted. -/
def enter (s : KState Unit) (e : KernelEntry) : KState Unit :=
  match KernelEvent.run oneDomain barePlatform s (.entry e) with
  | .ok s' => s'
  | .error _ => s

theorem KernelReached.run_enter {s : KState Unit} (h : KernelReached oneDomain barePlatform s)
    {e : KernelEntry} (hok : e.Ok oneDomain s) :
    KernelEvent.run oneDomain barePlatform s (.entry e) = .ok (enter s e) := by
  obtain ⟨hinv, hresume⟩ := h.inv oneDomain_ok
  obtain ⟨s', -, hcall, -⟩ := hinv.event hresume oneDomain_ok barePlatform (.entry e) hok
  rw [Kernel.enter, hcall]

theorem KernelReached.enter {s : KState Unit} (h : KernelReached oneDomain barePlatform s)
    {e : KernelEntry} (hok : e.Ok oneDomain s) :
    KernelReached oneDomain barePlatform (enter s e) :=
  h.next (e := .entry e) hok (h.run_enter hok)

/-- The initial thread starts two others at its own priority. -/
def startedState : KState Unit :=
  enter (enter (enter (enter bootedState
    (.invocation false true (.setPriority 0xE0000500 255)))
    (.invocation false true (.setPriority 0xE0000700 255)))
    (.invocation false true (.resume 0xE0000500)))
    (.invocation false true (.resume 0xE0000700))

theorem reached_started : KernelReached oneDomain barePlatform startedState := by
  unfold startedState
  refine .enter (.enter (.enter (.enter reached_booted ?_) ?_) ?_) ?_
  · exact ⟨show (_ : Nat) ≠ _ by decide, show (_ : Nat) ≤ _ by decide⟩
  · exact ⟨show (_ : Nat) ≠ _ by decide, show (_ : Nat) ≤ _ by decide⟩
  · exact ⟨show (_ : Nat) ≠ _ by decide, by decide, show (_ : Nat) ≠ _ by decide⟩
  · exact ⟨show (_ : Nat) ≠ _ by decide, by decide, show (_ : Nat) ≠ _ by decide⟩

/-- It waits to receive, and so does the last one that it started. -/
def receiversState : KState Unit :=
  enter (enter startedState (.wait (.endpoint 0x40 true))) (.wait (.endpoint 0x40 true))

theorem reached_receivers : KernelReached oneDomain barePlatform receiversState := by
  unfold receiversState
  refine .enter (.enter reached_started ?_) ?_
  · exact show (_ : Nat) ≠ _ by decide
  · exact show (_ : Nat) ≠ _ by decide

/-- The other one calls it. -/
def calledState : KState Unit :=
  enter receiversState (.invocation true true (.endpoint 7 true 0x40))

theorem reached_called : KernelReached oneDomain barePlatform calledState :=
  .enter reached_receivers ⟨show (_ : Nat) ≠ _ by decide, trivial⟩

/-- Two threads send, with two badges. -/
def sendersState : KState Unit :=
  enter (enter startedState (.invocation false true (.endpoint 7 false 0x40)))
    (.invocation false true (.endpoint 9 false 0x40))

theorem reached_senders : KernelReached oneDomain barePlatform sendersState := by
  unfold sendersState
  refine .enter (.enter reached_started ?_) ?_
  · exact ⟨show (_ : Nat) ≠ _ by decide, trivial⟩
  · exact ⟨show (_ : Nat) ≠ _ by decide, trivial⟩

theorem kernel_run_highest_booted : ∃ s : KState Unit, s.ksCurThread = 0xE0000300 ∧
    s.tcbQueued 0xE0000500 = true ∧ s.tcbPriority 0xE0000500 ≤ s.tcbPriority 0xE0000300 :=
  ⟨startedState, rfl,
    (kernel_run_highest oneDomain_ok rfl reached_started).2 0xE0000500 rfl (by decide)⟩

/-- An entry in which a thread waits on. -/
theorem waits_enter {s : KState Unit} (h : KernelReached oneDomain barePlatform s) {e : KernelEntry}
    (hok : e.Ok oneDomain s) (ht : t ∈ (enter s e).waiters i) :
    Run (KernelEvent.run oneDomain barePlatform) (fun s e => KernelEvent.Ok oneDomain s e ∧
      ∀ s', e.run oneDomain barePlatform s = .ok s' → t ∈ s'.waiters i) s [.entry e]
        (enter s e) := by
  have hcall := h.run_enter hok
  refine .single ⟨hok, fun s' hs' => ?_⟩ hcall
  exact Except.ok.inj (hcall.symm.trans hs') ▸ ht

/-- A message takes the first receiver out of the queue, and it comes back as the last. -/
theorem waits_in_turn_waiting : ∃ s s' : KState Unit,
    s.waiters (.ep 0x40) = [0xE0000300, 0xE0000700] ∧
    s'.waiters (.ep 0x40) = [0xE0000700, 0xE0000300] ∧
    ((s'.waiters (.ep 0x40)).takeWhile (· ≠ 0xE0000700)).Sublist
      ((s.waiters (.ep 0x40)).takeWhile (· ≠ 0xE0000700)) := by
  have hfirst : receiversState.waiters (.ep 0x40) = [0xE0000300, 0xE0000700] := rfl
  have hsend : KernelEntry.Ok oneDomain receiversState
      (.invocation false true (.endpoint 7 false 0x40)) := ⟨show (_ : Nat) ≠ _ by decide, trivial⟩
  have hsent : (enter receiversState (.invocation false true (.endpoint 7 false 0x40))).waiters
      (.ep 0x40) = [0xE0000700] := rfl
  have hwait : KernelEntry.Ok oneDomain (enter receiversState
      (.invocation false true (.endpoint 7 false 0x40))) (.wait (.endpoint 0x40 true)) :=
    show (_ : Nat) ≠ _ by decide
  have hlast : (enter (enter receiversState (.invocation false true (.endpoint 7 false 0x40)))
      (.wait (.endpoint 0x40 true))).waiters (.ep 0x40) = [0xE0000700, 0xE0000300] := rfl
  have hstays := waits_enter (t := 0xE0000700) (i := .ep 0x40) reached_receivers hsend
    (by simp [hsent])
  have hrun := hstays.trans (waits_enter (reached_receivers.enter hsend) hwait (by simp [hlast]))
  exact ⟨_, _, hfirst, hlast,
    waits_in_turn oneDomain_ok reached_receivers (by simp [hfirst]) hrun⟩

set_option maxRecDepth 4000 in
theorem kernel_run_replies_waiting : ∃ s : KState Unit,
    s.replyCap (callerSlot 0xE0000300) = 0xE0000500 ∧ s.tsType 0xE0000500 = .blockedOnReply ∧
      s.replyCap (callerSlot 0xE0000700) = 0 := by
  obtain ⟨-, hwaits, hreceives⟩ := kernel_run_replies oneDomain_ok reached_called
  exact ⟨calledState, rfl, hwaits (callerSlot 0xE0000300) (by decide), hreceives _ rfl⟩

end PartitionSeL4.Kernel
