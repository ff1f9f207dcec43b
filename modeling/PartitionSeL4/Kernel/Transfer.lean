import PartitionSeL4.Kernel.CapOrder
import Mathlib.Logic.Function.Basic

/-!
# The transfer of a message

A message is a tag, up to 120 words and up to three capabilities. The first four words are passed
in registers, the others in the threads' IPC buffers.

* `Context`: the registers of all threads, and the rest of memory.
* `Platform`: what the transfer uses of the rest of the kernel.
* `doIPCTransfer`: the transfer from a sender to a receiver.
* `doNormalTransfer_short`: a message of at most four words and no capabilities is passed in the
  registers alone.
-/

namespace PartitionSeL4.Kernel

/-- `fault_t`. -/
inductive Fault where
  | null
  | capFault (address : Nat) (inReceivePhase : Bool)
  | vmFault (address fsr : Nat) (instructionFault : Bool)
  | unknownSyscall (syscallNumber : Nat)
  | userException (number code : Nat)
  deriving DecidableEq, Repr

/-! ## Message tags -/

/-- `message_info_t`. -/
@[ext] structure MessageInfo where
  msgLabel : Nat
  msgCapsUnwrapped : Nat
  msgExtraCaps : Nat
  msgLength : Nat
  deriving DecidableEq, Repr

def seL4MsgMaxLength : Nat := 120

/-- The fields of a tag have 20, 3, 2 and 7 bits. -/
def messageInfoFromWordRaw (w : Nat) : MessageInfo where
  msgLabel := w / 2 ^ 12 % 2 ^ 20
  msgCapsUnwrapped := w / 2 ^ 9 % 2 ^ 3
  msgExtraCaps := w / 2 ^ 7 % 2 ^ 2
  msgLength := w % 2 ^ 7

def messageInfoFromWord (w : Nat) : MessageInfo :=
  let mi := messageInfoFromWordRaw w
  if seL4MsgMaxLength < mi.msgLength then { mi with msgLength := seL4MsgMaxLength } else mi

def wordFromMessageInfo (mi : MessageInfo) : Nat :=
  mi.msgLabel * 2 ^ 12 + mi.msgCapsUnwrapped * 2 ^ 9 + mi.msgExtraCaps * 2 ^ 7 + mi.msgLength

/-! ## Registers and memory -/

def badgeRegister : Nat := 0
def capRegister : Nat := 0
def msgInfoRegister : Nat := 1
def nMsgRegisters : Nat := 4

/-- `msgRegisters`, from `R2` to `R5`. -/
def msgRegisters (i : Nat) : Nat := 2 + i

/-- The saved registers of the threads, and the memory that IPC passes capabilities and long
messages through. -/
@[ext] structure Context (μ : Type) where
  regs : Nat → Nat → Nat
  mem : μ

namespace Context

variable {μ : Type}

def getRegister (c : Context μ) (thread reg : Nat) : Nat := c.regs thread reg

def setRegister (c : Context μ) (thread reg w : Nat) : Context μ :=
  { c with regs := Function.update c.regs thread (Function.update (c.regs thread) reg w) }

end Context

/-- The rest of the kernel, as far as IPC and scheduling call it. -/
structure Platform (μ : Type) where
  /-- The address of a thread's IPC buffer, or 0. -/
  lookupIPCBuffer : μ → (isReceiver : Bool) → (thread : Nat) → Nat
  /-- `recvBuf[i] = sendBuf[i]` -/
  copyBufferWord : μ → (sendBuf recvBuf i : Nat) → μ
  /-- The slot of the capability that a message names, if it is found. -/
  lookupExtraCap : μ → (thread buffer i : Nat) → Option Nat
  /-- The loop of `transferCaps`, with the number of capabilities passed and the mask of those
  whose badge was passed in their place. -/
  transferExtraCaps : μ → (caps : List Nat) → (endpoint receiver receiveBuffer : Nat) →
    (diminish : Bool) → μ × Nat × Nat
  /-- `setMRs_fault`, with the number of words. -/
  setMRsFault : Fault → (sender receiver receiverIPCBuffer : Nat) → Context μ → Context μ × Nat
  handleFaultReply : Fault → (receiver sender : Nat) → Context μ → Context μ × Bool
  /-- `fault_get_faultType` -/
  faultType : Fault → Nat
  getRestartPC : Context μ → (thread : Nat) → Nat
  setNextPC : Context μ → (thread pc : Nat) → Context μ
  archSwitchToThread : μ → (thread : Nat) → μ
  archSwitchToIdleThread : μ → μ

section Transfer

variable {μ : Type} (plat : Platform μ)

/-- The inline words of `copyMRs`. -/
def copyInlineWords (c : Context μ) (sender receiver : Nat) : Nat → Context μ
  | 0 => c
  | i + 1 =>
      let c := copyInlineWords c sender receiver i
      c.setRegister receiver (msgRegisters i) (c.getRegister sender (msgRegisters i))

/-- The out-of-line words of `copyMRs`. -/
def copyBufferWords (c : Context μ) (sendBuf recvBuf i n : Nat) : Context μ :=
  let copyWord := fun m j => plat.copyBufferWord m sendBuf recvBuf (j + 1)
  { c with mem := (List.range' i (n - i)).foldl copyWord c.mem }

def copyMRs (c : Context μ) (sender sendBuf receiver recvBuf n : Nat) : Context μ × Nat :=
  let i := min n nMsgRegisters
  let c := copyInlineWords c sender receiver i
  if recvBuf = 0 ∨ sendBuf = 0 then (c, i)
  else (copyBufferWords plat c sendBuf recvBuf i n, n)

/-- The slots of the capabilities a message names, or none if one of them is not found. -/
def lookupExtraCaps (c : Context μ) (thread bufferPtr : Nat) (info : MessageInfo) :
    Option (List Nat) :=
  if bufferPtr = 0 then some []
  else (List.range info.msgExtraCaps).mapM (plat.lookupExtraCap c.mem thread bufferPtr)

def transferCaps (c : Context μ) (info : MessageInfo) (caps : List Nat)
    (endpoint receiver receiveBuffer : Nat) (diminish : Bool) : Context μ × MessageInfo :=
  let info := { info with msgExtraCaps := 0, msgCapsUnwrapped := 0 }
  if caps = [] ∨ receiveBuffer = 0 then (c, info)
  else
    let (mem, i, unwrapped) :=
      plat.transferExtraCaps c.mem caps endpoint receiver receiveBuffer diminish
    ({ c with mem := mem }, { info with msgCapsUnwrapped := unwrapped, msgExtraCaps := i })

def doNormalTransfer (c : Context μ) (sender sendBuffer endpoint badge : Nat) (canGrant : Bool)
    (receiver receiveBuffer : Nat) (diminish : Bool) : Context μ :=
  let tag := messageInfoFromWord (c.getRegister sender msgInfoRegister)
  let caps := if canGrant then (lookupExtraCaps plat c sender sendBuffer tag).getD [] else []
  let (c, msgTransferred) := copyMRs plat c sender sendBuffer receiver receiveBuffer tag.msgLength
  let (c, tag) := transferCaps plat c tag caps endpoint receiver receiveBuffer diminish
  let tag := { tag with msgLength := msgTransferred }
  (c.setRegister receiver msgInfoRegister (wordFromMessageInfo tag)).setRegister receiver
    badgeRegister badge

def doFaultTransfer (c : Context μ) (fault : Fault)
    (badge sender receiver receiverIPCBuffer : Nat) :
    Context μ :=
  let (c, sent) := plat.setMRsFault fault sender receiver receiverIPCBuffer c
  let msgInfo : MessageInfo := ⟨plat.faultType fault, 0, 0, sent⟩
  (c.setRegister receiver msgInfoRegister (wordFromMessageInfo msgInfo)).setRegister receiver
    badgeRegister badge

/-- `doIPCTransfer`, where `fault` is the sender's `tcbFault`. -/
def doIPCTransfer (c : Context μ) (fault : Fault) (sender endpoint badge : Nat) (grant : Bool)
    (receiver : Nat) (diminish : Bool) : Context μ :=
  let receiveBuffer := plat.lookupIPCBuffer c.mem true receiver
  if fault = .null then
    let sendBuffer := plat.lookupIPCBuffer c.mem false sender
    doNormalTransfer plat c sender sendBuffer endpoint badge grant receiver receiveBuffer diminish
  else doFaultTransfer plat c fault badge sender receiver receiveBuffer

end Transfer

/-! ## Short messages -/

section Short

variable {μ : Type} {plat : Platform μ} {c : Context μ} {w : Nat}

/-- `fastpath_mi_check`: the tag's length, with the number of capabilities above it, is more
than 4. -/
def fastpathMiCheck (msgInfo : Nat) : Prop := 4 < msgInfo % 2 ^ 9

instance : DecidablePred fastpathMiCheck := fun w => inferInstanceAs (Decidable (4 < w % 2 ^ 9))

/-- A tag that passes the check is of a short message without capabilities. -/
theorem messageInfoFromWord_short (h : ¬ fastpathMiCheck w) :
    messageInfoFromWord w = messageInfoFromWordRaw w ∧
      (messageInfoFromWordRaw w).msgExtraCaps = 0 ∧
      (messageInfoFromWordRaw w).msgLength ≤ nMsgRegisters := by
  have hlt := not_lt.mp h
  have hlen : w % 2 ^ 7 ≤ 4 := by omega
  have hcaps : w / 2 ^ 7 % 2 ^ 2 = 0 := by omega
  refine ⟨if_neg ?_, hcaps, hlen⟩
  show ¬ seL4MsgMaxLength < w % 2 ^ 7
  rw [seL4MsgMaxLength]
  omega

/-- A message of at most four words and no capabilities is passed in the registers: its words, its
tag and the badge. -/
theorem doNormalTransfer_short {sender sendBuffer endpoint badge receiver receiveBuffer : Nat}
    {canGrant diminish : Bool} (hw : c.getRegister sender msgInfoRegister = w)
    (hshort : ¬ fastpathMiCheck w) :
    doNormalTransfer plat c sender sendBuffer endpoint badge canGrant receiver receiveBuffer
        diminish =
      ((copyInlineWords c sender receiver (messageInfoFromWordRaw w).msgLength).setRegister receiver
        msgInfoRegister (wordFromMessageInfo { messageInfoFromWordRaw w with
          msgCapsUnwrapped := 0 })).setRegister receiver badgeRegister badge := by
  obtain ⟨heq, hextra, hlen⟩ := messageInfoFromWord_short hshort
  have hcopy : copyMRs plat c sender sendBuffer receiver receiveBuffer
      (messageInfoFromWordRaw w).msgLength =
        (copyInlineWords c sender receiver (messageInfoFromWordRaw w).msgLength,
          (messageInfoFromWordRaw w).msgLength) := by
    rw [copyMRs, min_eq_left hlen]
    split_ifs
    · rfl
    · rw [copyBufferWords, Nat.sub_self]
      rfl
  have hnone : (if canGrant then
      (lookupExtraCaps plat c sender sendBuffer (messageInfoFromWordRaw w)).getD [] else []) =
        [] := by
    rw [lookupExtraCaps, hextra]
    split_ifs <;> rfl
  simp only [doNormalTransfer, hw, heq, hcopy, hnone, transferCaps, true_or, if_true, ← hextra]

end Short

end PartitionSeL4.Kernel
