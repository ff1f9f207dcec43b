import Mathlib.Algebra.Group.Nat.Defs
import Mathlib.Data.Prod.Lex
import Mathlib.Order.Compare

/-!
# The order of the capability derivation tree

The kernel keeps every capability in one search tree, so that the capabilities of an object, and
the ones derived from them, stand side by side. `compSlotWith` compares two slots by the space of
their capabilities, by what the space orders them by (address, size, badge, interrupt number), and
at last by a tie break, which the searches choose:

* `tieBreakComparator`: depth, then the mapping of a frame or page table, then the slot's address;
* `slotEqComparator`, `slotLtComparator`: the same, where the slot counts as equal or as smaller;
* `largestChildComparator`: smaller, whatever depth and slot are.

`compSlot_eq` says that the comparison of two slots is the comparison of their keys. It rests on
what the kernel assumes of typed memory: capabilities of one address are of one kind.
-/

namespace PartitionSeL4.Kernel

/-- How the kernel stops: a failed assertion, a call of `fail`, a use of the null pointer, or a
recursion deeper than its bound. -/
inductive KernelFault where
  | assertFail
  | fail
  | nullPointer
  | stackDepth
  deriving DecidableEq, Repr

/-- `vm_page_size_t`. -/
inductive PageSize where
  | armSmallPage
  | armLargePage
  | armSection
  | armSuperSection
  deriving DecidableEq, Repr

def pageBitsForSize : PageSize → Nat
  | .armSmallPage => 12
  | .armLargePage => 16
  | .armSection => 20
  | .armSuperSection => 24

/-- `cap_t`: what the derivation tree reads of a capability. -/
inductive Cap where
  | null
  | untyped (capBlockSize capPtr : Nat)
  | endpoint (capEPBadge capEPPtr : Nat)
  | asyncEndpoint (capAEPBadge capAEPPtr : Nat)
  | reply (capTCBPtr : Nat)
  | cnode (capCNodeRadix capCNodePtr : Nat)
  | thread (capTCBPtr : Nat)
  | frame (capFSize : PageSize) (capFBasePtr capFMappedObject capFMappedIndex : Nat)
  | pageTable (capPTBasePtr capPTMappedObject capPTMappedIndex : Nat)
  | pageDirectory (capPDBasePtr : Nat)
  | irqControl
  | irqHandler (capIRQ : Nat)
  | zombie (capZombieID capZombieType : Nat)
  | domain
  deriving DecidableEq, Repr

/-- `enum capSpaceType`. -/
inductive CapSpace where
  | untypedMemory
  | typedMemory
  | irq
  | domain
  deriving DecidableEq, Repr

/-- The number of a space in the enumeration. -/
def CapSpace.val : CapSpace → Nat
  | untypedMemory => 0
  | typedMemory => 1
  | irq => 2
  | domain => 3

def epSizeBits : Nat := 4

def aepSizeBits : Nat := 4

def cteSizeBits : Nat := 4

def tcbCnodeRadix : Nat := 4

def tcbSizeBits : Nat := tcbCnodeRadix + cteSizeBits

def tcbBlockSizeBits : Nat := tcbSizeBits + 1

def ptSizeBits : Nat := 10

def pdSizeBits : Nat := 14

def cteDepthBits : Nat := 5

/-- `ZombieType_ZombieTCB` is bit 5 of a zombie's type. -/
def zombieTypeZombieTCB : Nat := 2 ^ 5

def capZombieBits (type : Nat) : Nat :=
  if type = zombieTypeZombieTCB then tcbCnodeRadix else type % 2 ^ 5

namespace Cap

/-- `cap_get_capSpaceType`. The null capability and reply capabilities are in no space. -/
def capSpaceType : Cap → Except KernelFault CapSpace
  | endpoint .. | asyncEndpoint .. | cnode .. | thread .. | frame .. | pageTable ..
  | pageDirectory .. | zombie .. => .ok .typedMemory
  | untyped .. => .ok .untypedMemory
  | irqControl | irqHandler .. => .ok .irq
  | domain => .ok .domain
  | null | reply .. => .error .assertFail

/-- `cap_get_capPtr`. A thread's address is that of its block. -/
def capPtr : Cap → Nat
  | untyped _ ptr | endpoint _ ptr | asyncEndpoint _ ptr | cnode _ ptr => ptr
  | thread tcb => tcb / 2 ^ tcbBlockSizeBits * 2 ^ tcbBlockSizeBits
  | frame _ base _ _ | pageTable base _ _ | pageDirectory base => base
  | zombie id type => id / 2 ^ (capZombieBits type + 1) * 2 ^ (capZombieBits type + 1)
  | null | domain | reply .. | irqControl | irqHandler .. => 0

/-- `cap_get_capSizeBits`. -/
def capSizeBits : Cap → Nat
  | untyped bits _ => bits
  | endpoint .. => epSizeBits
  | asyncEndpoint .. => aepSizeBits
  | cnode radix _ => radix + cteSizeBits
  | thread .. => tcbBlockSizeBits
  | zombie _ type =>
      if type = zombieTypeZombieTCB then tcbBlockSizeBits else type % 2 ^ 5 + cteSizeBits
  | frame size _ _ _ => pageBitsForSize size
  | pageTable .. => ptSizeBits
  | pageDirectory .. => pdSizeBits
  | null | domain | reply .. | irqControl | irqHandler .. => 0

/-- `cap_get_capBadge`. -/
def capBadge : Cap → Nat
  | endpoint badge _ | asyncEndpoint badge _ => badge
  | _ => 0

/-- `cap_get_capSpacePtr`. -/
def capSpacePtr : Cap → Nat
  | irqHandler irq => irq
  | reply tcb => tcb
  | cap => cap.capPtr

/-- `cap_get_capSpaceSize`. -/
def capSpaceSize : Cap → Nat
  | irqControl => 0xff
  | irqHandler .. | reply .. | domain => 1
  | cap => 2 ^ cap.capSizeBits

/-- `cap_get_capExtraComp`: the address of the table entry that maps a frame or page table. -/
def capExtraComp : Cap → Nat
  | frame _ _ obj index | pageTable _ obj index =>
      if obj = 0 then 0 else (obj + 4 * index) % 2 ^ 32
  | _ => 0

/-- `cte_depth_bits_cap`. -/
def cteDepthBitsCap : Cap → Nat
  | frame .. | pageTable .. => 1
  | _ => cteDepthBits

end Cap

/-- `cte_t`, as far as the comparisons read it: the capability, the depth of the slot's tree node
and the slot's address. -/
structure Cte where
  cap : Cap
  cdtDepth : Nat
  addr : Nat
  deriving DecidableEq, Repr

/-- `comp_t`. -/
abbrev Comp := Cte → Cte → Ordering

/-- `tie_comp_t`: a tie break and the comparison it makes before that of the slots. -/
abbrev TieComp := Cte → Cte → Option Comp → Ordering

/-- The comparison of depth and mapping that most tie breaks begin with. -/
def preSlotCompare (a b : Cte) (preSlot : Option Comp) : Ordering :=
  (compare a.cdtDepth b.cdtDepth).then (match preSlot with
    | some comp => comp a b
    | none => .eq)

def tieBreakComparator : TieComp := fun a b preSlot =>
  (preSlotCompare a b preSlot).then (compare a.addr b.addr)

def slotEqComparator : TieComp := fun a b preSlot => preSlotCompare a b preSlot

def slotLtComparator : TieComp := fun a b preSlot => (preSlotCompare a b preSlot).then .lt

def largestChildComparator : TieComp := fun _ _ _ => .lt

def capExtraComparator : Comp := fun a b => compare a.cap.capExtraComp b.cap.capExtraComp

/-- `untyped_comparator`: by address, and the larger block first. -/
def untypedComparator (a b : Cte) (tieBreak : TieComp) : Except KernelFault Ordering :=
  match a.cap, b.cap with
  | .untyped bitsA ptrA, .untyped bitsB ptrB =>
      .ok (((compare ptrA ptrB).then (compare bitsA bitsB).swap).then (tieBreak a b none))
  | _, _ => .error .assertFail

/-- `endpoint_cap_comparator`. -/
def endpointCapComparator (a b : Cte) (tieBreak : TieComp) : Except KernelFault Ordering :=
  match a.cap, b.cap with
  | .endpoint badgeA _, .endpoint badgeB _ =>
      .ok ((compare badgeA badgeB).then (tieBreak a b none))
  | _, _ => .error .assertFail

/-- `async_endpoint_cap_comparator`. -/
def asyncEndpointCapComparator (a b : Cte) (tieBreak : TieComp) : Except KernelFault Ordering :=
  match a.cap, b.cap with
  | .asyncEndpoint badgeA _, .asyncEndpoint badgeB _ =>
      .ok ((compare badgeA badgeB).then (tieBreak a b none))
  | _, _ => .error .assertFail

/-- The table of `typed_comparator`, by the type of the first capability. -/
def typedTypeComparator (a b : Cte) (tieBreak : TieComp) : Except KernelFault Ordering :=
  match a.cap with
  | .endpoint .. => endpointCapComparator a b tieBreak
  | .asyncEndpoint .. => asyncEndpointCapComparator a b tieBreak
  | .cnode .. | .thread .. | .zombie .. => .ok (tieBreak a b none)
  | .frame .. | .pageTable .. | .pageDirectory .. => .ok (tieBreak a b (some capExtraComparator))
  | _ => .error .assertFail

/-- `typed_comparator`. -/
def typedComparator (a b : Cte) (tieBreak : TieComp) : Except KernelFault Ordering :=
  match compare a.cap.capPtr b.cap.capPtr with
  | .eq => typedTypeComparator a b tieBreak
  | cmp => .ok cmp

/-- `irq_comparator`: the control capabilities first. -/
def irqComparator (a b : Cte) (tieBreak : TieComp) : Except KernelFault Ordering :=
  match a.cap, b.cap with
  | .irqControl, .irqControl => .ok (tieBreak a b none)
  | .irqHandler irqA, .irqHandler irqB => .ok ((compare irqA irqB).then (tieBreak a b none))
  | .irqControl, _ => .ok .lt
  | .irqHandler _, _ => .ok .gt
  | _, _ => .error .assertFail

/-- `compare_space`. -/
def compareSpace (space : CapSpace) (a b : Cte) (tieBreak : TieComp) :
    Except KernelFault Ordering :=
  match space with
  | .untypedMemory => untypedComparator a b tieBreak
  | .typedMemory => typedComparator a b tieBreak
  | .domain => .ok (tieBreak a b none)
  | .irq => irqComparator a b tieBreak

def compSlotWith (a b : Cte) (tieBreak : TieComp) : Except KernelFault Ordering := do
  let spaceA ← a.cap.capSpaceType
  let spaceB ← b.cap.capSpaceType
  match compare spaceA.val spaceB.val with
  | .eq => compareSpace spaceA a b tieBreak
  | cmp => .ok cmp

def compSlot (a b : Cte) : Except KernelFault Ordering := compSlotWith a b tieBreakComparator

/-! ## The key of a slot -/

theorem compare_toLex {α β : Type*} [LinearOrder α] [LinearOrder β] (a b : α) (c d : β) :
    compare (toLex (a, c)) (toLex (b, d)) = (compare a b).then (compare c d) := by
  rcases lt_trichotomy a b with hab | rfl | hab
  · rw [compare_lt_iff_lt.mpr hab]
    exact compare_lt_iff_lt.mpr (Prod.Lex.toLex_lt_toLex.mpr (.inl hab))
  · rw [compare_eq_iff_eq.mpr rfl, Ordering.then]
    rcases lt_trichotomy c d with hcd | rfl | hcd
    · rw [compare_lt_iff_lt.mpr hcd]
      exact compare_lt_iff_lt.mpr (Prod.Lex.toLex_lt_toLex.mpr (.inr ⟨rfl, hcd⟩))
    · rw [compare_eq_iff_eq.mpr rfl, compare_eq_iff_eq.mpr rfl]
    · rw [compare_gt_iff_gt.mpr hcd]
      exact compare_gt_iff_gt.mpr (Prod.Lex.toLex_lt_toLex.mpr (.inr ⟨rfl, hcd⟩))
  · rw [compare_gt_iff_gt.mpr hab]
    exact compare_gt_iff_gt.mpr (Prod.Lex.toLex_lt_toLex.mpr (.inl hab))

/-- What the spaces order their capabilities by: the space, the address or interrupt, and the size
or badge. -/
abbrev CapKey := ℕ ×ₗ ℕ ×ₗ ℕ

def Cap.key : Cap → CapKey
  | untyped bits ptr => toLex (0, toLex (ptr, 31 - bits))
  | irqControl => toLex (2, toLex (0, 0))
  | irqHandler irq => toLex (2, toLex (irq + 1, 0))
  | domain => toLex (3, toLex (0, 0))
  | null | reply .. => toLex (4, toLex (0, 0))
  | cap => toLex (1, toLex (cap.capPtr, cap.capBadge))

/-- Depth and mapping, which come after the capability. -/
def Cte.tie (a : Cte) : ℕ ×ₗ ℕ := toLex (a.cdtDepth, a.cap.capExtraComp)

/-- What slots are ordered by. -/
abbrev CteKey := CapKey ×ₗ (ℕ ×ₗ ℕ) ×ₗ ℕ

def Cte.key (a : Cte) : CteKey := toLex (a.cap.key, toLex (a.tie, a.addr))

/-- A capability the derivation tree can hold: it is in a space, and the field of an untyped block's
size has 5 bits. -/
def Cap.InCdt : Cap → Prop
  | null | reply .. => False
  | untyped bits _ => bits < 2 ^ 5
  | _ => True

instance : DecidablePred Cap.InCdt := fun cap => by
  cases cap <;> unfold Cap.InCdt <;> infer_instance

/-- The comparator of a typed capability. -/
def Cap.kind : Cap → Option Nat
  | endpoint .. => some 0
  | asyncEndpoint .. => some 1
  | cnode .. | thread .. | zombie .. => some 2
  | frame .. | pageTable .. | pageDirectory .. => some 3
  | _ => none

/-- Typed objects do not overlap: capabilities of one address are of one kind. -/
def Cap.Agree (a b : Cap) : Prop :=
  a.kind.isSome → b.kind.isSome → a.capPtr = b.capPtr → a.kind = b.kind

instance (a b : Cap) : Decidable (a.Agree b) := by unfold Cap.Agree; infer_instance

theorem Cap.Agree.symm {a b : Cap} (h : a.Agree b) : b.Agree a :=
  fun hb ha hptr => (h ha hb hptr.symm).symm

/-- The comparison a capability's kind asks for before that of the slots. -/
def Cap.preSlot (c : Cap) : Option Comp := if c.kind = some 3 then some capExtraComparator else none

theorem preSlotCompare_eq {a b : Cte} (hab : a.cap.kind = b.cap.kind) :
    preSlotCompare a b a.cap.preSlot = compare a.tie b.tie := by
  rw [Cte.tie, Cte.tie, compare_toLex]
  unfold preSlotCompare Cap.preSlot
  congr 1
  split_ifs with h
  · rfl
  · -- capabilities of the other kinds have no mapping
    have hextra : ∀ c : Cap, c.kind ≠ some 3 → c.capExtraComp = 0 := by
      intro c hc
      cases c <;> first | rfl | exact absurd rfl hc
    rw [hextra a.cap h, hextra b.cap (hab ▸ h)]
    rfl

theorem Cap.InCdt.space {c : Cap} (h : c.InCdt) :
    ∃ sp, c.capSpaceType = .ok sp ∧ c.key = toLex (sp.val, (ofLex c.key).2) := by
  cases c with
  | null => exact h.elim
  | reply => exact h.elim
  | untyped => exact ⟨.untypedMemory, rfl, rfl⟩
  | irqControl => exact ⟨.irq, rfl, rfl⟩
  | irqHandler => exact ⟨.irq, rfl, rfl⟩
  | domain => exact ⟨.domain, rfl, rfl⟩
  | _ => exact ⟨.typedMemory, rfl, rfl⟩

theorem CapSpace.val_injective : Function.Injective CapSpace.val := by
  intro a b h
  cases a <;> cases b <;> first | rfl | cases h

theorem Cap.kind_isSome_of_typed {c : Cap} (h : c.capSpaceType = .ok .typedMemory) :
    c.kind.isSome := by
  cases c <;> first | rfl | cases h

theorem Cap.key_of_isSome {c : Cap} (h : c.kind.isSome) :
    c.key = toLex (1, toLex (c.capPtr, c.capBadge)) := by
  cases c <;> first | rfl | exact absurd h Bool.false_ne_true

theorem Cap.key_fst_of_isSome {c : Cap} (h : c.kind.isSome) : (ofLex c.key).1 = 1 := by
  rw [key_of_isSome h]
  rfl

theorem Cap.key_fst_of_none {c : Cap} (h : c.kind = none) : (ofLex c.key).1 ≠ 1 := by
  cases c <;> simp [Cap.key] <;> cases h

theorem compare_blockSize {m n : Nat} (hm : m < 2 ^ 5) (hn : n < 2 ^ 5) :
    compare (31 - m) (31 - n) = (compare m n).swap := by
  rcases lt_trichotomy m n with h | rfl | h
  · rw [compare_lt_iff_lt.mpr h]
    exact compare_gt_iff_gt.mpr (by omega)
  · rw [compare_eq_iff_eq.mpr rfl, compare_eq_iff_eq.mpr rfl]
    rfl
  · rw [compare_gt_iff_gt.mpr h]
    exact compare_lt_iff_lt.mpr (by omega)

section Compare

variable {a b : Cte}

theorem typedTypeComparator_eq (hsome : a.cap.kind.isSome) (hkind : a.cap.kind = b.cap.kind)
    (tieBreak : TieComp) :
    typedTypeComparator a b tieBreak =
      .ok ((compare a.cap.capBadge b.cap.capBadge).then (tieBreak a b a.cap.preSlot)) := by
  have hzero : compare 0 0 = Ordering.eq := rfl
  rcases a with ⟨capA, depthA, addrA⟩
  rcases b with ⟨capB, depthB, addrB⟩
  dsimp only at hsome hkind
  cases capA <;> first
    | exact absurd hsome Bool.false_ne_true
    | cases capB <;> first
      | rfl
      | exact absurd hkind (by simp [Cap.kind])

theorem typedComparator_eq (ha : a.cap.capSpaceType = .ok .typedMemory)
    (hb : b.cap.capSpaceType = .ok .typedMemory) (hab : a.cap.Agree b.cap) (tieBreak : TieComp) :
    typedComparator a b tieBreak =
      .ok ((compare a.cap.key b.cap.key).then (tieBreak a b a.cap.preSlot)) := by
  have hsome := Cap.kind_isSome_of_typed ha
  have hsomeb := Cap.kind_isSome_of_typed hb
  rw [Cap.key_of_isSome hsome, Cap.key_of_isSome hsomeb, compare_toLex, compare_toLex,
    compare_eq_iff_eq.mpr rfl, typedComparator]
  cases hptr : compare a.cap.capPtr b.cap.capPtr with
  | eq =>
      rw [typedTypeComparator_eq hsome (hab hsome hsomeb (compare_eq_iff_eq.mp hptr))]
      rfl
  | lt => rfl
  | gt => rfl

theorem untypedComparator_eq (ha : a.cap.InCdt) (hb : b.cap.InCdt)
    (hspa : a.cap.capSpaceType = .ok .untypedMemory)
    (hspb : b.cap.capSpaceType = .ok .untypedMemory) (tieBreak : TieComp) :
    untypedComparator a b tieBreak =
      .ok ((compare a.cap.key b.cap.key).then (tieBreak a b a.cap.preSlot)) := by
  rcases a with ⟨capA, depthA, addrA⟩
  rcases b with ⟨capB, depthB, addrB⟩
  dsimp only at ha hb hspa hspb ⊢
  cases capA with
  | untyped bitsA ptrA =>
      cases capB with
      | untyped bitsB ptrB =>
          rw [untypedComparator, Cap.key, Cap.key, compare_toLex, compare_toLex,
            compare_blockSize ha hb]
          rfl
      | _ => cases hspb
  | _ => cases hspa

theorem irqComparator_eq (hspa : a.cap.capSpaceType = .ok .irq)
    (hspb : b.cap.capSpaceType = .ok .irq) (tieBreak : TieComp) :
    irqComparator a b tieBreak =
      .ok ((compare a.cap.key b.cap.key).then (tieBreak a b a.cap.preSlot)) := by
  rcases a with ⟨capA, depthA, addrA⟩
  rcases b with ⟨capB, depthB, addrB⟩
  dsimp only at hspa hspb ⊢
  cases capA with
  | irqControl =>
      cases capB with
      | irqControl => rfl
      | irqHandler irqB =>
          have hlt : Cap.irqControl.key < (Cap.irqHandler irqB).key :=
            Prod.Lex.toLex_lt_toLex.mpr
              (.inr ⟨rfl, Prod.Lex.toLex_lt_toLex.mpr (.inl (Nat.succ_pos irqB))⟩)
          rw [compare_lt_iff_lt.mpr hlt]
          rfl
      | _ => cases hspb
  | irqHandler irqA =>
      cases capB with
      | irqControl =>
          have hlt : Cap.irqControl.key < (Cap.irqHandler irqA).key :=
            Prod.Lex.toLex_lt_toLex.mpr
              (.inr ⟨rfl, Prod.Lex.toLex_lt_toLex.mpr (.inl (Nat.succ_pos irqA))⟩)
          rw [compare_gt_iff_gt.mpr hlt]
          rfl
      | irqHandler irqB =>
          have hkey : compare (Cap.irqHandler irqA).key (Cap.irqHandler irqB).key =
              compare irqA irqB := by
            rw [Cap.key, Cap.key, compare_toLex, compare_toLex]
            rcases lt_trichotomy irqA irqB with h | rfl | h
            · rw [compare_lt_iff_lt.mpr h, compare_lt_iff_lt.mpr (Nat.succ_lt_succ h)]
              rfl
            · simp
            · rw [compare_gt_iff_gt.mpr h, compare_gt_iff_gt.mpr (Nat.succ_lt_succ h)]
              rfl
          rw [hkey]
          rfl
      | _ => cases hspb
  | _ => cases hspa

theorem compSlotWith_eq (ha : a.cap.InCdt) (hb : b.cap.InCdt) (hab : a.cap.Agree b.cap)
    (tieBreak : TieComp) :
    compSlotWith a b tieBreak =
      .ok ((compare a.cap.key b.cap.key).then (tieBreak a b a.cap.preSlot)) := by
  obtain ⟨spa, hspa, hkeya⟩ := ha.space
  obtain ⟨spb, hspb, hkeyb⟩ := hb.space
  have hunfold : compSlotWith a b tieBreak = match compare spa.val spb.val with
      | .eq => compareSpace spa a b tieBreak
      | cmp => .ok cmp := by
    rw [compSlotWith, hspa, hspb]
    rfl
  rw [hunfold]
  cases hcmp : compare spa.val spb.val with
  | lt => rw [hkeya, hkeyb, compare_toLex, hcmp]; rfl
  | gt => rw [hkeya, hkeyb, compare_toLex, hcmp]; rfl
  | eq =>
      obtain rfl := CapSpace.val_injective (compare_eq_iff_eq.mp hcmp)
      cases spa with
      | untypedMemory => exact untypedComparator_eq ha hb hspa hspb tieBreak
      | typedMemory => exact typedComparator_eq hspa hspb hab tieBreak
      | irq => exact irqComparator_eq hspa hspb tieBreak
      | domain =>
          rcases a with ⟨capA, depthA, addrA⟩
          rcases b with ⟨capB, depthB, addrB⟩
          cases capA with
          | domain => cases capB with
            | domain => rfl
            | _ => cases hspb
          | _ => cases hspa

theorem kind_eq_of_key_eq {c d : Cap} (hcd : c.Agree d) (hkey : c.key = d.key) :
    c.kind = d.kind := by
  cases hc : c.kind with
  | none =>
      cases hd : d.kind with
      | none => rfl
      | some k =>
          exact absurd (hkey ▸ Cap.key_fst_of_isSome (by rw [hd]; rfl)) (Cap.key_fst_of_none hc)
  | some k =>
      cases hd : d.kind with
      | none =>
          exact absurd (hkey.symm ▸ Cap.key_fst_of_isSome (by rw [hc]; rfl))
            (Cap.key_fst_of_none hd)
      | some j =>
          have hptr : c.capPtr = d.capPtr := by
            rw [Cap.key_of_isSome (by rw [hc]; rfl), Cap.key_of_isSome (by rw [hd]; rfl)] at hkey
            exact congrArg (fun k : CapKey => (ofLex (ofLex k).2).1) hkey
          rw [← hc, ← hd]
          exact hcd (by rw [hc]; rfl) (by rw [hd]; rfl) hptr

theorem compSlot_eq (ha : a.cap.InCdt) (hb : b.cap.InCdt) (hab : a.cap.Agree b.cap) :
    compSlot a b = .ok (compare a.key b.key) := by
  rw [compSlot, compSlotWith_eq ha hb hab, Cte.key, Cte.key, compare_toLex, compare_toLex]
  cases hcmp : compare a.cap.key b.cap.key with
  | lt => rfl
  | gt => rfl
  | eq =>
      rw [tieBreakComparator, preSlotCompare_eq (kind_eq_of_key_eq hab (compare_eq_iff_eq.mp hcmp))]

end Compare

end PartitionSeL4.Kernel
