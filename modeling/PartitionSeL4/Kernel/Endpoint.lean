import PartitionSeL4.Kernel.Thread

/-!
# Endpoints

Threads pass messages over endpoints: a sender and a receiver that meet there exchange the message
at once, and the one that comes first waits in the endpoint's queue. Asynchronous endpoints collect
badges instead. A caller waits for the reply, which its reply capability allows once.

* `sendIPC`, `receiveIPC`, `sendAsyncIPC`, `receiveAsyncIPC`: a thread sends or receives.
* `doReplyTransfer`: a caller gets its reply.
* `ipcCancel`, `epCancelAll`, `epCancelBadgedSends`: waiting threads are taken out of the queues.
-/

namespace PartitionSeL4.Kernel

open Lib Function

/-- `TCB_PTR_CTE_PTR`: the capability slots of a thread lie before it, in a block of 512 bytes. -/
def tcbPtrCtePtr (p i : Nat) : Nat := p / 2 ^ 9 * 2 ^ 9 + i * 2 ^ 4

/-- The slot `tcbCaller`. -/
def callerSlot (tcb : Nat) : Nat := tcbPtrCtePtr tcb 3

/-- A thread's block has 512 bytes, of which the thread fills the upper half. -/
def IsTcb (tcb : Nat) : Prop := tcb < 2 ^ 32 ∧ tcb % 2 ^ 9 = 2 ^ 8

instance : DecidablePred IsTcb := fun _ => by unfold IsTcb; infer_instance

/-- The number of blocks in memory bounds the length of every queue. -/
def maxThreads : Nat := 2 ^ 23

section Queues

variable {μ : Type}

/-- The thread comes last in the queue. -/
def tcbEPAppend (s : KState μ) (tcb : Nat) (queue : Queue) : KState μ × Queue :=
  let s :=
    if queue.head = 0 then s
    else { s with tcbEPNext := update s.tcbEPNext queue.tail tcb }
  let s := { s with tcbEPPrev := update s.tcbEPPrev tcb queue.tail }
  let s := { s with tcbEPNext := update s.tcbEPNext tcb 0 }
  (s, ⟨if queue.head = 0 then tcb else queue.head, tcb⟩)

/-- The thread comes out of the queue. -/
def tcbEPDequeue (s : KState μ) (tcb : Nat) (queue : Queue) : KState μ × Queue :=
  let prev := s.tcbEPPrev tcb
  let (s, head) :=
    if prev = 0 then (s, s.tcbEPNext tcb)
    else ({ s with tcbEPNext := update s.tcbEPNext prev (s.tcbEPNext tcb) }, queue.head)
  let next := s.tcbEPNext tcb
  let (s, tail) :=
    if next = 0 then (s, s.tcbEPPrev tcb)
    else ({ s with tcbEPPrev := update s.tcbEPPrev next (s.tcbEPPrev tcb) }, queue.tail)
  (s, ⟨head, tail⟩)

def setEPQueue (s : KState μ) (epptr : Nat) (queue : Queue) : KState μ :=
  { s with epQueue := update s.epQueue epptr queue }

def setEPState (s : KState μ) (epptr : Nat) (state : EPState) : KState μ :=
  { s with epState := update s.epState epptr state }

def setAEPQueue (s : KState μ) (aepptr : Nat) (queue : Queue) : KState μ :=
  { s with aepQueue := update s.aepQueue aepptr queue }

def setAEPState (s : KState μ) (aepptr : Nat) (state : AEPState) : KState μ :=
  { s with aepState := update s.aepState aepptr state }

/-- A thread comes last in an endpoint's queue, which is then one of senders or of receivers. -/
def epAppend (s : KState μ) (epptr tcb : Nat) (state : EPState) : KState μ :=
  let (s, queue) := tcbEPAppend s tcb (s.epQueue epptr)
  setEPQueue (setEPState s epptr state) epptr queue

/-- The same for an asynchronous endpoint. -/
def aepAppend (s : KState μ) (aepptr tcb : Nat) : KState μ :=
  let (s, queue) := tcbEPAppend s tcb (s.aepQueue aepptr)
  setAEPQueue (setAEPState s aepptr .waiting) aepptr queue

/-- A thread comes out of an endpoint's queue, and the endpoint is idle if it was the last one. -/
def epDequeue (s : KState μ) (epptr tcb : Nat) : KState μ :=
  let (s, queue) := tcbEPDequeue s tcb (s.epQueue epptr)
  let s := setEPQueue s epptr queue
  if queue.head = 0 then setEPState s epptr .idle else s

/-- The same for an asynchronous endpoint. -/
def aepDequeue (s : KState μ) (aepptr tcb : Nat) : KState μ :=
  let (s, queue) := tcbEPDequeue s tcb (s.aepQueue aepptr)
  let s := setAEPQueue s aepptr queue
  if queue.head = 0 then setAEPState s aepptr .idle else s

end Queues

section Replies

variable {μ : Type} (cfg : Config)

/-- `finaliseCap` of the reply capability in a slot, and the slot is emptied. -/
def deleteReplyCap (s : KState μ) (slot : Nat) : Except KernelFault (KState μ) :=
  let callee := s.replyCap slot
  if callee = 0 then .ok s
  else
    match s.tcbReply callee with
    | none => .error .assertFail
    | some _ => .ok { s with
        tcbReply := update s.tcbReply callee (some 0)
        replyCap := update s.replyCap slot 0 }

def deleteCallerCap (s : KState μ) (receiver : Nat) : Except KernelFault (KState μ) :=
  deleteReplyCap s (callerSlot receiver)

/-- The receiver gets the capability to reply to the sender. -/
def setupCallerCap (s : KState μ) (sender receiver : Nat) : Except KernelFault (KState μ) := do
  let s ← setThreadState cfg s sender .blockedOnReply
  let slot := callerSlot receiver
  match s.tcbReply sender with
  | none => .error .assertFail
  | some _ =>
      let s := { s with tcbReply := update s.tcbReply sender (some slot) }
      if s.replyCap slot ≠ 0 then .error .assertFail
      else .ok { s with replyCap := update s.replyCap slot sender }

def setupReplyMaster (s : KState μ) (thread : Nat) : KState μ :=
  match s.tcbReply thread with
  | none => { s with tcbReply := update s.tcbReply thread (some 0) }
  | some _ => s

/-- `cteMove` of a reply capability. -/
def moveReplyCap (s : KState μ) (srcSlot destSlot : Nat) : Except KernelFault (KState μ) :=
  let replyTCB := s.replyCap srcSlot
  if s.replyCap destSlot ≠ 0 then .error .assertFail
  else
    match s.tcbReply replyTCB with
    | none => .error .assertFail
    | some _ => .ok { s with
        tcbReply := update s.tcbReply replyTCB (some destSlot)
        replyCap := update (update s.replyCap destSlot replyTCB) srcSlot 0 }

def invokeCNodeSaveCaller (s : KState μ) (destSlot : Nat) : Except KernelFault (KState μ) :=
  let srcSlot := callerSlot s.ksCurThread
  if s.replyCap srcSlot = 0 then .ok s else moveReplyCap s srcSlot destSlot

end Replies

section Endpoints

variable {μ : Type} (cfg : Config) (plat : Platform μ)

/-- What becomes of a sender once its message is passed: a caller, or a thread with a fault, waits
for a reply if its capability grants it. -/
def afterTransfer (s : KState μ) (sender receiver : Nat) (canGrant diminish : Bool) :
    Except KernelFault (KState μ) :=
  if canGrant = true ∧ diminish = false then setupCallerCap cfg s sender receiver
  else setThreadState cfg s sender .inactive

/-- The thread waits to send. -/
def blockOnSend (s : KState μ) (thread epptr badge : Nat) (canGrant doCall : Bool) :
    Except KernelFault (KState μ) := do
  let s := { s with
    tsType := update s.tsType thread .blockedOnSend
    blockingIPCEndpoint := update s.blockingIPCEndpoint thread epptr
    blockingIPCBadge := update s.blockingIPCBadge thread badge
    blockingIPCCanGrant := update s.blockingIPCCanGrant thread canGrant
    blockingIPCIsCall := update s.blockingIPCIsCall thread doCall }
  let s ← scheduleTCB cfg s thread
  .ok (epAppend s epptr thread .send)

/-- The thread waits to receive. -/
def blockOnReceive (s : KState μ) (thread epptr : Nat) (diminish : Bool) :
    Except KernelFault (KState μ) := do
  let s := { s with
    tsType := update s.tsType thread .blockedOnReceive
    blockingIPCEndpoint := update s.blockingIPCEndpoint thread epptr
    blockingIPCDiminishCaps := update s.blockingIPCDiminishCaps thread diminish }
  let s ← scheduleTCB cfg s thread
  .ok (epAppend s epptr thread .recv)

/-- The thread waits for an asynchronous message. -/
def blockOnAsyncEvent (s : KState μ) (thread aepptr : Nat) : Except KernelFault (KState μ) := do
  let s := { s with
    tsType := update s.tsType thread .blockedOnAsyncEvent
    blockingIPCEndpoint := update s.blockingIPCEndpoint thread aepptr }
  let s ← scheduleTCB cfg s thread
  .ok (aepAppend s aepptr thread)

def sendIPC (s : KState μ) (blocking doCall : Bool) (badge : Nat) (canGrant : Bool)
    (thread epptr : Nat) : Except KernelFault (KState μ) :=
  match s.epState epptr with
  | .idle | .send =>
      if blocking then blockOnSend cfg s thread epptr badge canGrant doCall else .ok s
  | .recv => do
      let dest := (s.epQueue epptr).head
      if dest = 0 then .error .assertFail
      else
        let s := epDequeue s epptr dest
        let diminish := s.blockingIPCDiminishCaps dest
        let s := { s with
          context := doIPCTransfer plat s.context (s.tcbFault thread) thread epptr badge canGrant
            dest diminish }
        let s ← setThreadState cfg s dest .running
        let s ← attemptSwitchTo cfg s dest
        if doCall = true ∨ s.tcbFault thread ≠ .null then
          afterTransfer cfg s thread dest canGrant diminish
        else .ok s

def completeAsyncIPC (s : KState μ) (aepptr tcb : Nat) : Except KernelFault (KState μ) :=
  if tcb ≠ 0 ∧ s.aepState aepptr = .active then
    .ok ((setAEPState s aepptr .idle).setRegister tcb badgeRegister (s.aepMsgIdentifier aepptr))
  else .error .fail

/-- `receiveIPC` with a capability for the endpoint that may send or not. -/
def receiveIPC (s : KState μ) (thread epptr : Nat) (capCanSend : Bool) :
    Except KernelFault (KState μ) :=
  let diminish := !capCanSend
  let aepptr := s.boundAsyncEndpoint thread
  if aepptr ≠ 0 ∧ s.aepState aepptr = .active then completeAsyncIPC s aepptr thread
  else
    match s.epState epptr with
    | .idle | .recv => blockOnReceive cfg s thread epptr diminish
    | .send => do
        let sender := (s.epQueue epptr).head
        if sender = 0 then .error .assertFail
        else
          let s := epDequeue s epptr sender
          let badge := s.blockingIPCBadge sender
          let canGrant := s.blockingIPCCanGrant sender
          let s := { s with
            context := doIPCTransfer plat s.context (s.tcbFault sender) sender epptr badge canGrant
              thread diminish }
          if s.blockingIPCIsCall sender = true ∨ s.tcbFault sender ≠ .null then
            afterTransfer cfg s sender thread canGrant diminish
          else
            let s ← setThreadState cfg s sender .running
            switchIfRequiredTo cfg s sender

def asyncIPCCancel (s : KState μ) (threadPtr aepptr : Nat) : Except KernelFault (KState μ) :=
  if s.aepState aepptr ≠ .waiting then .error .assertFail
  else setThreadState cfg (aepDequeue s aepptr threadPtr) threadPtr .inactive

def ipcCancel (s : KState μ) (tptr : Nat) : Except KernelFault (KState μ) :=
  match s.tsType tptr with
  | .blockedOnSend | .blockedOnReceive =>
      let epptr := s.blockingIPCEndpoint tptr
      if s.epState epptr = .idle then .error .assertFail
      else setThreadState cfg (epDequeue s epptr tptr) tptr .inactive
  | .blockedOnAsyncEvent => asyncIPCCancel cfg s tptr (s.blockingIPCEndpoint tptr)
  | .blockedOnReply =>
      match s.tcbReply tptr with
      | none => .error .assertFail
      | some slot => do
          let s := { s with tcbFault := update s.tcbFault tptr .null }
          let s ← (if slot ≠ 0 then deleteReplyCap s slot else .ok s)
          .ok { s with tcbReply := update s.tcbReply tptr (some 0) }
  | _ => .ok s

/-- The loop of `epCancelAll` and `aepCancelAll`, from the thread `thread` of the queue on. -/
def cancelAllLoop : Nat → KState μ → Nat → Except KernelFault (KState μ)
  | 0, s, thread => if thread = 0 then .ok s else .error .stackDepth
  | fuel + 1, s, thread =>
      if thread = 0 then .ok s
      else do
        let s ← setThreadState cfg s thread .restart
        let s ← tcbSchedEnqueue cfg s thread
        cancelAllLoop fuel s (s.tcbEPNext thread)

/-- The threads from `thread` on start again. -/
def restartAll (s : KState μ) (thread : Nat) : Except KernelFault (KState μ) := do
  let s ← cancelAllLoop cfg maxThreads s thread
  rescheduleRequired cfg s

def epCancelAll (s : KState μ) (epptr : Nat) : Except KernelFault (KState μ) :=
  match s.epState epptr with
  | .idle => .ok s
  | _ =>
      let thread := (s.epQueue epptr).head
      let s := setEPQueue (setEPState s epptr .idle) epptr .empty
      restartAll cfg s thread

def aepCancelAll (s : KState μ) (aepptr : Nat) : Except KernelFault (KState μ) :=
  match s.aepState aepptr with
  | .waiting =>
      let thread := (s.aepQueue aepptr).head
      let s := setAEPQueue (setAEPState s aepptr .idle) aepptr .empty
      restartAll cfg s thread
  | _ => .ok s

/-- The loop of `epCancelBadgedSends`. -/
def cancelBadgedLoop (badge : Nat) :
    Nat → KState μ → Queue → Nat → Except KernelFault (KState μ × Queue)
  | 0, s, queue, thread => if thread = 0 then .ok (s, queue) else .error .stackDepth
  | fuel + 1, s, queue, thread =>
      if thread = 0 then .ok (s, queue)
      else do
        let b := s.blockingIPCBadge thread
        let next := s.tcbEPNext thread
        if b = badge then
          let s ← setThreadState cfg s thread .restart
          let s ← tcbSchedEnqueue cfg s thread
          let (s, queue) := tcbEPDequeue s thread queue
          cancelBadgedLoop badge fuel s queue next
        else cancelBadgedLoop badge fuel s queue next

def epCancelBadgedSends (s : KState μ) (epptr badge : Nat) : Except KernelFault (KState μ) :=
  match s.epState epptr with
  | .idle | .recv => .ok s
  | .send => do
      let queue := s.epQueue epptr
      let s := setEPQueue (setEPState s epptr .idle) epptr .empty
      let (s, queue) ← cancelBadgedLoop cfg badge maxThreads s queue queue.head
      let s := setEPQueue s epptr queue
      let s := if queue.head ≠ 0 then setEPState s epptr .send else s
      rescheduleRequired cfg s

def aepSetActive (s : KState μ) (aepptr badge : Nat) : KState μ :=
  let s := setAEPState s aepptr .active
  { s with aepMsgIdentifier := update s.aepMsgIdentifier aepptr badge }

def sendAsyncIPC (s : KState μ) (aepptr badge : Nat) : Except KernelFault (KState μ) :=
  match s.aepState aepptr with
  | .idle =>
      let tcb := s.aepBoundTCB aepptr
      if tcb ≠ 0 then
        match s.tsType tcb with
        | .blockedOnReceive => do
            let s ← ipcCancel cfg s tcb
            let s ← setThreadState cfg s tcb .running
            attemptSwitchTo cfg (s.setRegister tcb badgeRegister badge) tcb
        | .runningVM => do
            let s ← setThreadState cfg s tcb .running
            let s := (s.setRegister tcb badgeRegister badge).setRegister tcb msgInfoRegister 0
            attemptSwitchTo cfg s tcb
        | _ => .ok (aepSetActive s aepptr badge)
      else .ok (aepSetActive s aepptr badge)
  | .waiting => do
      let dest := (s.aepQueue aepptr).head
      if dest = 0 then .error .assertFail
      else
        let s := aepDequeue s aepptr dest
        let s ← setThreadState cfg s dest .running
        switchIfRequiredTo cfg (s.setRegister dest badgeRegister badge) dest
  | .active =>
      let badge2 := s.aepMsgIdentifier aepptr ||| badge
      .ok { s with aepMsgIdentifier := update s.aepMsgIdentifier aepptr badge2 }

def receiveAsyncIPC (s : KState μ) (thread aepptr : Nat) (isBlocking : Bool) :
    Except KernelFault (KState μ) :=
  match s.aepState aepptr with
  | .idle | .waiting =>
      if isBlocking then blockOnAsyncEvent cfg s thread aepptr
      else .ok (s.setRegister thread badgeRegister 0)
  | .active =>
      let s := s.setRegister thread badgeRegister (s.aepMsgIdentifier aepptr)
      .ok (setAEPState s aepptr .idle)

def unbindAsyncEndpoint (s : KState μ) (tcb : Nat) : KState μ :=
  let aepptr := s.boundAsyncEndpoint tcb
  if aepptr ≠ 0 then
    { s with
      aepBoundTCB := update s.aepBoundTCB aepptr 0
      boundAsyncEndpoint := update s.boundAsyncEndpoint tcb 0 }
  else s

def bindAsyncEndpoint (s : KState μ) (tcb aepptr : Nat) : KState μ :=
  { s with
    aepBoundTCB := update s.aepBoundTCB aepptr tcb
    boundAsyncEndpoint := update s.boundAsyncEndpoint tcb aepptr }

def suspend (s : KState μ) (target : Nat) : Except KernelFault (KState μ) := do
  let s ← ipcCancel cfg s target
  let s ← deleteCallerCap s target
  let s ← setThreadState cfg s target .inactive
  tcbSchedDequeue cfg s target

def restart (s : KState μ) (target : Nat) : Except KernelFault (KState μ) :=
  if isBlocked s target then do
    let s ← ipcCancel cfg s target
    let s := setupReplyMaster s target
    let s ← setThreadState cfg s target .restart
    let s ← tcbSchedEnqueue cfg s target
    switchIfRequiredTo cfg s target
  else .ok s

/-- The receiver's reply comes from the sender, whose capability for it is in `slot`. -/
def doReplyTransfer (s : KState μ) (sender receiver slot : Nat) :
    Except KernelFault (KState μ) := do
  if s.tsType receiver ≠ .blockedOnReply then .error .assertFail
  else
    let s ←
      if s.tcbFault receiver = .null then do
        let s := { s with
          context := doIPCTransfer plat s.context (s.tcbFault sender) sender 0 0 true receiver
            false }
        let s ← setThreadState cfg s receiver .running
        attemptSwitchTo cfg s receiver
      else do
        let (context, restart) :=
          plat.handleFaultReply (s.tcbFault receiver) receiver sender s.context
        let s := { s with
          context := context
          tcbFault := update s.tcbFault receiver .null }
        if restart then
          let s ← setThreadState cfg s receiver .restart
          attemptSwitchTo cfg s receiver
        else setThreadState cfg s receiver .inactive
    deleteReplyCap s slot

def handleReply (s : KState μ) : Except KernelFault (KState μ) :=
  let slot := callerSlot s.ksCurThread
  let caller := s.replyCap slot
  if caller = 0 then .ok s
  else if caller = s.ksCurThread then .error .assertFail
  else doReplyTransfer cfg plat s s.ksCurThread caller slot

/-- `handleFault` of the current thread, where `handler` is the badge and the endpoint of its fault
handler, if it has one with the rights to send and to grant. -/
def handleFault (s : KState μ) (fault : Fault) (handler : Option (Nat × Nat)) :
    Except KernelFault (KState μ) :=
  match handler with
  | some (badge, epptr) =>
      let s := { s with tcbFault := update s.tcbFault s.ksCurThread fault }
      sendIPC cfg plat s true false badge true s.ksCurThread epptr
  | none => setThreadState cfg s s.ksCurThread .inactive

/-- `handleWait` with a capability to receive from an endpoint. -/
def handleWait (s : KState μ) (epptr : Nat) (capCanSend : Bool) :
    Except KernelFault (KState μ) := do
  let s ← deleteCallerCap s s.ksCurThread
  receiveIPC cfg plat s s.ksCurThread epptr capCanSend

end Endpoints

end PartitionSeL4.Kernel
