import Mathlib.Data.Finset.Card
import PartitionSeL4.Kernel.CdtTree
import PartitionSeL4.Lib.Run

/-!
# Runs of capability operations

The kernel changes the derivation tree when a capability is made (`cteInsert`, `insertNewCap`),
moved (`cteMove`), changed (`cdtUpdate`), exchanged (`cdtSwap`) or deleted (`emptySlot`).

`Tracks s t` says that the tree in memory is `t`, balanced and in the order of the slots' keys. Its
rules are one for each write: `Tracks.insert`, `Tracks.remove`, and `Tracks.setCap` and
`Tracks.setMdb` for a slot outside the tree. From them `CdtInv`, which adds that the tree holds the
slots with a capability, other than a reply capability, and no others, is kept by every operation,
and no operation stops.
-/

namespace PartitionSeL4.Kernel

open Lib Cdt

/-- How deep the recursion of the tree operations may get. -/
def maxStackDepth : Nat := 64

namespace Cdt

/-- `slot->cteMDBNode = …`. -/
def setMdb (s : Cdt) (slot : Nat) (node : MdbNode) : Cdt := s.modify slot fun _ => node

/-- `slot->cap = …`. -/
def setCap (s : Cdt) (slot : Nat) (cap : Cap) : Cdt :=
  { s with cap := Function.update s.cap slot cap }

/-- `ksRootCTE = aaInsert(ksRootCTE, slot)`. -/
def insertTree (s : Cdt) (slot : Nat) : Except KernelFault Cdt := do
  let (s, root) ← aaInsert maxStackDepth s s.ksRootCTE slot
  .ok { s with ksRootCTE := root }

/-- `ksRootCTE = aaRemove(false, ksRootCTE, slot)`. -/
def removeTree (s : Cdt) (slot : Nat) : Except KernelFault Cdt := do
  let (s, root) ← aaRemove maxStackDepth s s.ksRootCTE slot
  .ok { s with ksRootCTE := root }

end Cdt

/-- `capsEqual`. -/
def capsEqual (a b : Cap) : Except KernelFault Bool := do
  let spaceA ← a.capSpaceType
  let spaceB ← b.capSpaceType
  .ok (spaceA = spaceB ∧ a.capSpacePtr = b.capSpacePtr ∧ a.capSpaceSize = b.capSpaceSize ∧
    a.capBadge = b.capBadge ∧ a.capExtraComp = b.capExtraComp)

/-- The depth `cdtInsert` gives a new slot: one more than its parent's where the two capabilities
are in one space, as far as the new one's field reaches. -/
def insertDepth (s : Cdt) (parentSlot newSlot : Nat) : Except KernelFault Nat :=
  if parentSlot = 0 then .ok 0
  else do
    let spaceP ← (s.cap parentSlot).capSpaceType
    let spaceN ← (s.cap newSlot).capSpaceType
    if spaceP ≠ spaceN then .ok 0
    else
      let depth := (s.mdb parentSlot).cdtDepth + 1
      .ok (if depth = 2 ^ (s.cap newSlot).cteDepthBitsCap then depth - 1 else depth)

def cdtInsert (s : Cdt) (parentSlot newSlot : Nat) : Except KernelFault Cdt := do
  if s.cap newSlot = .null then .error .assertFail
  else if parentSlot ≠ 0 ∧ s.cap parentSlot = .null then .error .assertFail
  else
    let depth ← insertDepth s parentSlot newSlot
    (s.setMdb newSlot (mdbNodeNew depth)).insertTree newSlot

def cdtRemove (s : Cdt) (slot : Nat) : Except KernelFault Cdt := do
  if s.cap slot = .null then .error .assertFail
  else
    let s ← s.removeTree slot
    .ok (s.setMdb slot (mdbNodeNew 0))

def cdtMove (s : Cdt) (oldSlot newSlot : Nat) : Except KernelFault Cdt := do
  if s.cap oldSlot = .null ∨ s.cap newSlot = .null then .error .assertFail
  else
    let s ← s.removeTree oldSlot
    let s := s.setMdb newSlot (mdbNodeNew (s.mdb oldSlot).cdtDepth)
    let s := s.setMdb oldSlot (mdbNodeNew 0)
    s.insertTree newSlot

def cdtUpdate (s : Cdt) (slot : Nat) (newCap : Cap) : Except KernelFault Cdt := do
  if ← capsEqual (s.cap slot) newCap then .ok (s.setCap slot newCap)
  else
    let s ← s.removeTree slot
    let s := s.setMdb slot (mdbNodeNew (s.mdb slot).cdtDepth)
    (s.setCap slot newCap).insertTree slot

def cdtSwap (s : Cdt) (cap1 : Cap) (slot1 : Nat) (cap2 : Cap) (slot2 : Nat) :
    Except KernelFault Cdt := do
  if slot1 = slot2 then .error .assertFail
  else
    let s ← (if s.cap slot1 ≠ .null then s.removeTree slot1 else .ok s)
    let s ← (if s.cap slot2 ≠ .null then s.removeTree slot2 else .ok s)
    let depth1 := (s.mdb slot1).cdtDepth
    let depth2 := (s.mdb slot2).cdtDepth
    let s := s.setMdb slot1 (mdbNodeNew depth2)
    let s := s.setMdb slot2 (mdbNodeNew depth1)
    let s := s.setCap slot1 cap2
    let s := s.setCap slot2 cap1
    let s ← (if s.cap slot1 ≠ .null then s.insertTree slot1 else .ok s)
    if s.cap slot2 ≠ .null then s.insertTree slot2 else .ok s

def cteInsert (s : Cdt) (newCap : Cap) (srcSlot destSlot : Nat) : Except KernelFault Cdt :=
  if s.cap destSlot ≠ .null then .error .assertFail
  else cdtInsert (s.setCap destSlot newCap) srcSlot destSlot

/-- `insertNewCap`, and with no parent the insertion of a capability at boot. -/
def insertNewCap (s : Cdt) (parent slot : Nat) (cap : Cap) : Except KernelFault Cdt :=
  cdtInsert (s.setCap slot cap) parent slot

/-- `cteMove`. A reply capability is not in the tree: moving it changes the slots alone. -/
def cteMove (s : Cdt) (newCap : Cap) (srcSlot destSlot : Nat) : Except KernelFault Cdt := do
  if s.cap destSlot ≠ .null then .error .assertFail
  else
    let s := s.setCap destSlot newCap
    let s ← (match newCap with
      | .reply _ => .ok s
      | _ => cdtMove s srcSlot destSlot)
    .ok (s.setCap srcSlot .null)

def emptySlot (s : Cdt) (slot : Nat) : Except KernelFault Cdt := do
  if s.cap slot ≠ .null then
    let s ← cdtRemove s slot
    .ok (s.setCap slot .null)
  else .ok s

/-! ## The tree of a state -/

/-- The tree `t` is the one in memory, and its slots are in the order of their keys. -/
structure Tracks (s : Cdt) (t : AATree Nat) : Prop where
  tree : TreeAt s s.ksRootCTE t
  inv : t.Inv
  ordered : t.Ordered s.key
  caps : ∀ x ∈ t.toList, (s.cap x).InCdt
  agree : ∀ x ∈ t.toList, ∀ y ∈ t.toList, (s.cap x).Agree (s.cap y)

theorem length_le_of_isSlot {xs : List Nat} (hn : xs.Nodup) (h : ∀ x ∈ xs, IsSlot x) :
    xs.length ≤ 2 ^ 25 := by
  have hinj : Set.InjOn (fun x => (x - 0xE0000000) / 2 ^ cteSizeBits) xs.toFinset := by
    intro x hx y hy hxy
    have hx := h x (List.mem_toFinset.mp hx)
    have hy := h y (List.mem_toFinset.mp hy)
    simp only [IsSlot, cteSizeBits] at hx hy hxy
    omega
  have hmaps : ∀ x ∈ xs.toFinset, (x - 0xE0000000) / 2 ^ cteSizeBits ∈ Finset.range (2 ^ 25) := by
    intro x hx
    have hx := h x (List.mem_toFinset.mp hx)
    simp only [IsSlot, cteSizeBits] at hx
    rw [Finset.mem_range, cteSizeBits]
    omega
  calc xs.length = xs.toFinset.card := (List.toFinset_card_of_nodup hn).symm
    _ ≤ (Finset.range (2 ^ 25)).card := Finset.card_le_card_of_injOn _ hmaps hinj
    _ = 2 ^ 25 := Finset.card_range _

namespace Tracks

variable {s s' : Cdt} {t : AATree Nat} {x : Nat}

theorem nodup (h : Tracks s t) : t.toList.Nodup := ordered_nodup h.ordered

theorem length_le (h : Tracks s t) : t.toList.length ≤ 2 ^ 25 :=
  length_le_of_isSlot h.nodup h.tree.isSlot

theorem height_lt (h : Tracks s t) : t.height < maxStackDepth := by
  have hlevel : t.level < 26 := by
    by_contra hge
    have hpow : 2 ^ 26 ≤ 2 ^ t.level := Nat.pow_le_pow_right (by decide) (by omega)
    have := AATree.two_pow_level_le h.inv
    have := h.length_le
    omega
  have := (AATree.height_le h.inv).1
  rw [maxStackDepth]
  omega

theorem compSlot_eq (h : Tracks s t) {y : Nat} (hx : (s.cap x).InCdt) (hy : y ∈ t.toList)
    (hagree : (s.cap x).Agree (s.cap y)) :
    compSlot (s.cte x) (s.cte y) = .ok (compare (s.key x) (s.key y)) :=
  Kernel.compSlot_eq hx (h.caps y hy) hagree

/-- Nothing changes for a tree whose slots and capabilities are left alone. -/
theorem congr (h : Tracks s t) (hmdb : ∀ y ∈ t.toList, s'.mdb y = s.mdb y)
    (hcap : ∀ y ∈ t.toList, s'.cap y = s.cap y) (hroot : s'.ksRootCTE = s.ksRootCTE) :
    Tracks s' t := by
  have hkey : ∀ y ∈ t.toList, s'.key y = s.key y := fun y hy => by
    rw [Cdt.key, Cdt.key, Cdt.cte, Cdt.cte, hmdb y hy, hcap y hy]
  refine ⟨?_, h.inv, ?_, fun y hy => ?_, fun y hy z hz => ?_⟩
  · have hrepr := h.tree
    rw [← hroot] at hrepr
    exact hrepr.congr hmdb
  · exact h.ordered.imp_of_mem fun hy hz hlt => by rwa [hkey _ hy, hkey _ hz]
  · rw [hcap y hy]
    exact h.caps y hy
  · rw [hcap y hy, hcap z hz]
    exact h.agree y hy z hz

theorem setMdb (h : Tracks s t) (hx : x ∉ t.toList) (node : MdbNode) :
    Tracks (s.setMdb x node) t :=
  h.congr (fun _ hy => modify_mdb_of_ne (ne_of_mem_of_not_mem hy hx)) (fun _ _ => rfl) rfl

theorem setCap (h : Tracks s t) (hx : x ∉ t.toList) (cap : Cap) : Tracks (s.setCap x cap) t :=
  h.congr (fun _ _ => rfl) (fun _ hy => Function.update_of_ne (ne_of_mem_of_not_mem hy hx) ..) rfl

theorem insert (h : Tracks s t) (hx : IsSlot x) (hnew : x ∉ t.toList)
    (hleaf : (s.mdb x).cdtLeft = 0 ∧ (s.mdb x).cdtRight = 0) (hcap : (s.cap x).InCdt)
    (hagree : ∀ y ∈ t.toList, (s.cap x).Agree (s.cap y)) :
    ∃ s' t', s.insertTree x = .ok s' ∧ Tracks s' t' ∧
      (∀ y, y ∈ t'.toList ↔ y = x ∨ y ∈ t.toList) ∧ s'.cap = s.cap ∧
      (∀ y, (s'.mdb y).cdtDepth = (s.mdb y).cdtDepth) ∧
      ∀ y ∉ x :: t.toList, s'.mdb y = s.mdb y := by
  have hsize := h.length_le
  obtain ⟨s', p', hcall, hrepr, hrw⟩ := aaInsert_refines h.tree h.nodup h.inv hx hnew hleaf
    (fun y hy => h.compSlot_eq hcap hy (hagree y hy)) (by omega) h.height_lt
  have hmem : ∀ y, y ∈ (t.insert s.key x).toList ↔ y = x ∨ y ∈ t.toList := fun y => by
    rw [(insert_perm hnew).mem_iff, List.mem_cons]
  have hnekey : ∀ y ∈ t.toList, s.key y ≠ s.key x := fun y hy hkey =>
    hnew (key_injective hkey ▸ hy)
  have hcaps : Cdt.cap { s' with ksRootCTE := p' } = s.cap := hrw.cap
  have hkeys : Cdt.key { s' with ksRootCTE := p' } = s.key := hrw.key
  refine ⟨{ s' with ksRootCTE := p' }, t.insert s.key x, ?_,
    ⟨hrepr.congr fun _ _ => rfl, ?_, ?_, ?_, ?_⟩, hmem, hrw.cap, hrw.depth, hrw.frame⟩
  · rw [insertTree, hcall]
    rfl
  · exact (AATree.Inv.insert h.inv).1
  · rw [hkeys]
    exact h.ordered.insert hnekey
  · intro y hy
    rw [hcaps]
    rcases (hmem y).mp hy with rfl | hy'
    · exact hcap
    · exact h.caps y hy'
  · intro y hy z hz
    rw [hcaps]
    rcases (hmem y).mp hy with rfl | hy'
    · rcases (hmem z).mp hz with rfl | hz'
      · exact fun _ _ _ => rfl
      · exact hagree z hz'
    · rcases (hmem z).mp hz with rfl | hz'
      · exact (hagree y hy').symm
      · exact h.agree y hy' z hz'

theorem remove (h : Tracks s t) (hx : x ∈ t.toList) :
    ∃ s' t', s.removeTree x = .ok s' ∧ Tracks s' t' ∧
      (∀ y, y ∈ t'.toList ↔ y ∈ t.toList ∧ y ≠ x) ∧ s'.cap = s.cap ∧
      (∀ y, (s'.mdb y).cdtDepth = (s.mdb y).cdtDepth) ∧
      ∀ y ∉ t.toList, s'.mdb y = s.mdb y := by
  obtain ⟨s', p', hcall, hrepr, hrw⟩ := aaRemove_refines h.tree h.ordered h.inv hx
    (fun y hy z hz => h.compSlot_eq (h.caps y hy) hz (h.agree y hy z hz)) h.height_lt
  have hsub : ∀ {y}, y ∈ (t.remove s.key x).toList → y ∈ t.toList := fun hy =>
    ((mem_remove h.ordered).mp hy).1
  have hcaps : Cdt.cap { s' with ksRootCTE := p' } = s.cap := hrw.cap
  have hkeys : Cdt.key { s' with ksRootCTE := p' } = s.key := hrw.key
  refine ⟨{ s' with ksRootCTE := p' }, t.remove s.key x, ?_,
    ⟨hrepr.congr fun _ _ => rfl, ?_, ?_, ?_, ?_⟩, fun y => mem_remove h.ordered, hrw.cap,
    hrw.depth, hrw.frame⟩
  · rw [removeTree, hcall]
    rfl
  · exact (AATree.Inv.remove h.inv).1
  · rw [hkeys]
    exact h.ordered.remove
  · intro y hy
    rw [hcaps]
    exact h.caps y (hsub hy)
  · intro y hy z hz
    rw [hcaps]
    exact h.agree y (hsub hy) z (hsub hz)

theorem removeIf (h : Tracks s t) (hx : s.cap x = .null ∧ x ∉ t.toList ∨ x ∈ t.toList) :
    ∃ s' t', (if s.cap x ≠ .null then s.removeTree x else .ok s) = Except.ok s' ∧ Tracks s' t' ∧
      (∀ y, y ∈ t'.toList ↔ y ∈ t.toList ∧ y ≠ x) ∧ s'.cap = s.cap ∧
      ∀ y, (s'.mdb y).cdtDepth = (s.mdb y).cdtDepth := by
  rcases hx with ⟨hnull, hout⟩ | hmem
  · refine ⟨s, t, if_neg (not_not.mpr hnull), h, fun y => ?_, rfl, fun _ => rfl⟩
    exact ⟨fun hy => ⟨hy, ne_of_mem_of_not_mem hy hout⟩, And.left⟩
  · obtain ⟨s', t', hcall, htracks, hlist, hcap, hdepth, -⟩ := h.remove hmem
    have hne : s.cap x ≠ .null := fun hnull => by
      have := h.caps x hmem
      rw [hnull] at this
      exact this
    exact ⟨s', t', by rw [if_pos hne, hcall], htracks, hlist, hcap, hdepth⟩

theorem insertIf (h : Tracks s t) (hx : IsSlot x) (hnew : x ∉ t.toList)
    (hleaf : (s.mdb x).cdtLeft = 0 ∧ (s.mdb x).cdtRight = 0)
    (hcap : s.cap x = .null ∨ (s.cap x).InCdt ∧ ∀ y ∈ t.toList, (s.cap x).Agree (s.cap y)) :
    ∃ s' t', (if s.cap x ≠ .null then s.insertTree x else .ok s) = Except.ok s' ∧ Tracks s' t' ∧
      (∀ y, y ∈ t'.toList ↔ y = x ∧ (s.cap x).InCdt ∨ y ∈ t.toList) ∧ s'.cap = s.cap ∧
      (∀ y, (s'.mdb y).cdtDepth = (s.mdb y).cdtDepth) ∧
      ∀ y ∉ x :: t.toList, s'.mdb y = s.mdb y := by
  rcases hcap with hnull | ⟨hcap, hagree⟩
  · refine ⟨s, t, if_neg (not_not.mpr hnull), h, fun y => ?_, rfl, fun _ => rfl, fun _ _ => rfl⟩
    rw [hnull]
    exact ⟨.inr, fun hy => hy.resolve_left fun hx => hx.2⟩
  · have hne : s.cap x ≠ .null := fun hnull => by
      rw [hnull] at hcap
      exact hcap
    obtain ⟨s', t', hcall, htracks, hlist, hrest⟩ := h.insert hx hnew hleaf hcap hagree
    refine ⟨s', t', by rw [if_pos hne, hcall], htracks, fun y => ?_, hrest⟩
    rw [hlist]
    exact or_congr_left ⟨fun hy => ⟨hy, hcap⟩, And.left⟩

theorem recap (h : Tracks s t) {cap : Cap} (hkey : cap.key = (s.cap x).key)
    (hextra : cap.capExtraComp = (s.cap x).capExtraComp) (hcap : cap.InCdt)
    (hagree : ∀ y ∈ t.toList, y ≠ x → cap.Agree (s.cap y)) : Tracks (s.setCap x cap) t := by
  have hkeys : (s.setCap x cap).key = s.key := by
    funext y
    by_cases hyx : y = x
    · subst hyx
      simp [Cdt.key, Cdt.cte, Cte.key, Cte.tie, Cdt.setCap, hkey, hextra]
    · simp [Cdt.key, Cdt.cte, Cdt.setCap, hyx]
  have hother : ∀ y, y ≠ x → (s.setCap x cap).cap y = s.cap y := fun y hyx =>
    Function.update_of_ne hyx ..
  have hself : (s.setCap x cap).cap x = cap := Function.update_self ..
  refine ⟨h.tree.congr fun _ _ => rfl, h.inv, hkeys ▸ h.ordered, fun y hy => ?_,
    fun y hy z hz => ?_⟩
  · by_cases hyx : y = x
    · rw [hyx, hself]
      exact hcap
    · rw [hother y hyx]
      exact h.caps y hy
  · by_cases hyx : y = x
    · by_cases hzx : z = x
      · rw [hyx, hzx]
        exact fun _ _ _ => rfl
      · rw [hyx, hself, hother z hzx]
        exact hagree z hz hzx
    · by_cases hzx : z = x
      · rw [hzx, hself, hother y hyx]
        exact (hagree y hy hyx).symm
      · rw [hother y hyx, hother z hzx]
        exact h.agree y hy z hz

end Tracks

/-! ## The invariant -/

/-- A capability is in the tree, null, or a reply capability. -/
def Cap.Known (c : Cap) : Prop := c.InCdt ∨ c = .null ∨ ∃ tcb, c = .reply tcb

/-- The derivation tree is sound: it holds the slots with a capability that has a place in it and
no others, and an in-order walk visits them in the order of their keys. Other capabilities are null
or reply capabilities. -/
structure CdtInv (s : Cdt) : Prop where
  tracks : ∃ t, Tracks s t ∧ ∀ x, x ∈ t.toList ↔ (s.cap x).InCdt
  known : ∀ x, (s.cap x).Known

/-- The capability operations of the kernel. -/
inductive CdtOp where
  | cteInsert (newCap : Cap) (srcSlot destSlot : Nat)
  | insertNewCap (parent slot : Nat) (cap : Cap)
  | cteMove (newCap : Cap) (srcSlot destSlot : Nat)
  | cdtUpdate (slot : Nat) (newCap : Cap)
  | cdtSwap (cap1 : Cap) (slot1 : Nat) (cap2 : Cap) (slot2 : Nat)
  | emptySlot (slot : Nat)
  deriving DecidableEq, Repr

def CdtOp.run (s : Cdt) : CdtOp → Except KernelFault Cdt
  | cteInsert newCap srcSlot destSlot => Kernel.cteInsert s newCap srcSlot destSlot
  | insertNewCap parent slot cap => Kernel.insertNewCap s parent slot cap
  | cteMove newCap srcSlot destSlot => Kernel.cteMove s newCap srcSlot destSlot
  | cdtUpdate slot newCap => Kernel.cdtUpdate s slot newCap
  | cdtSwap cap1 slot1 cap2 slot2 => Kernel.cdtSwap s cap1 slot1 cap2 slot2
  | emptySlot slot => Kernel.emptySlot s slot

/-- What the operations leave in the slots. -/
def CdtOp.caps (cap : Nat → Cap) : CdtOp → Nat → Cap
  | cteInsert newCap _ destSlot => Function.update cap destSlot newCap
  | insertNewCap _ slot newCap => Function.update cap slot newCap
  | cteMove newCap srcSlot destSlot =>
      Function.update (Function.update cap destSlot newCap) srcSlot .null
  | cdtUpdate slot newCap => Function.update cap slot newCap
  | cdtSwap cap1 slot1 cap2 slot2 => Function.update (Function.update cap slot1 cap2) slot2 cap1
  | emptySlot slot => Function.update cap slot .null

/-- A capability that can stand beside those of the slots but `xs`: it is one the tree can hold,
and typed memory at one address has one kind. -/
def Fits (s : Cdt) (cap : Cap) (xs : List Nat) : Prop :=
  cap.InCdt ∧ ∀ y ∉ xs, (s.cap y).InCdt → cap.Agree (s.cap y)

/-- What the callers of an operation have made sure of: destinations are empty slots, sources hold
a capability, and new capabilities fit. -/
def CdtOp.Ok (s : Cdt) : CdtOp → Prop
  | cteInsert newCap srcSlot destSlot =>
      IsSlot destSlot ∧ s.cap destSlot = .null ∧ (s.cap srcSlot).InCdt ∧ Fits s newCap []
  | insertNewCap parent slot cap =>
      IsSlot slot ∧ s.cap slot = .null ∧ (parent = 0 ∨ (s.cap parent).InCdt) ∧ Fits s cap []
  | cteMove newCap srcSlot destSlot =>
      IsSlot destSlot ∧ s.cap destSlot = .null ∧
        ((s.cap srcSlot).InCdt ∧ Fits s newCap [srcSlot] ∨
          ∃ tcb, s.cap srcSlot = .reply tcb ∧ newCap = .reply tcb)
  | cdtUpdate slot newCap => (s.cap slot).InCdt ∧ Fits s newCap [slot]
  | cdtSwap cap1 slot1 cap2 slot2 =>
      slot1 ≠ slot2 ∧ IsSlot slot1 ∧ IsSlot slot2 ∧
        (s.cap slot1 = .null ∧ cap1 = .null ∨
          (s.cap slot1).InCdt ∧ Fits s cap1 [slot1, slot2]) ∧
        (s.cap slot2 = .null ∧ cap2 = .null ∨
          (s.cap slot2).InCdt ∧ Fits s cap2 [slot1, slot2]) ∧
        (cap1.InCdt → cap2.InCdt → cap1.Agree cap2)
  | emptySlot slot => (s.cap slot).InCdt ∨ s.cap slot = .null

/-! ## Every operation keeps it -/

/-- The key of a capability is settled by what `capsEqual` compares. -/
theorem Cap.key_eq_of_space {a b : Cap} {sp : CapSpace} (ha : a.capSpaceType = .ok sp)
    (hb : b.capSpaceType = .ok sp) (hptr : a.capSpacePtr = b.capSpacePtr)
    (hsize : a.capSpaceSize = b.capSpaceSize) (hbadge : a.capBadge = b.capBadge) :
    a.key = b.key := by
  have htyped : ∀ {c : Cap}, c.capSpaceType = .ok .typedMemory → c.capSpacePtr = c.capPtr := by
    intro c hc
    cases c <;> first | rfl | cases hc
  cases sp with
  | typedMemory =>
      rw [key_of_isSome (kind_isSome_of_typed ha), key_of_isSome (kind_isSome_of_typed hb),
        ← htyped ha, ← htyped hb, hptr, hbadge]
  | untypedMemory =>
      cases a <;> cases ha
      cases b <;> cases hb
      obtain rfl := Nat.pow_right_injective (le_refl 2) hsize
      obtain rfl : _ = _ := hptr
      rfl
  | irq =>
      cases a <;> cases ha
      · cases b <;> cases hb
        · rfl
        · cases hsize
      · cases b <;> cases hb
        · cases hsize
        · obtain rfl : _ = _ := hptr
          rfl
  | domain =>
      cases a <;> cases ha
      cases b <;> cases hb
      rfl

theorem capsEqual_spec {a b : Cap} (ha : a.InCdt) (hb : b.InCdt) :
    ∃ eq, capsEqual a b = .ok eq ∧
      (eq = true → b.key = a.key ∧ b.capExtraComp = a.capExtraComp) := by
  obtain ⟨spa, hspa, -⟩ := ha.space
  obtain ⟨spb, hspb, -⟩ := hb.space
  refine ⟨_, by rw [capsEqual, hspa, hspb]; rfl, fun heq => ?_⟩
  obtain ⟨rfl, hptr, hsize, hbadge, hextra⟩ := of_decide_eq_true heq
  exact ⟨(Cap.key_eq_of_space hspa hspb hptr hsize hbadge).symm, hextra.symm⟩

variable {s : Cdt} {t : AATree Nat} {x : Nat}

theorem insertDepth_ok {parent : Nat} (hparent : parent = 0 ∨ (s.cap parent).InCdt)
    (hx : (s.cap x).InCdt) : ∃ depth, insertDepth s parent x = .ok depth := by
  unfold insertDepth
  rcases hparent with rfl | hparent
  · exact ⟨0, rfl⟩
  · obtain ⟨spp, hspp, -⟩ := hparent.space
    obtain ⟨spx, hspx, -⟩ := hx.space
    rw [hspp, hspx]
    simp only [bind, Except.bind]
    split_ifs
    · exact ⟨_, rfl⟩
    · exact ⟨_, rfl⟩
    · exact ⟨_, rfl⟩
    · exact ⟨_, rfl⟩

theorem Cap.InCdt.ne_null {c : Cap} (h : c.InCdt) : c ≠ .null := by
  rintro rfl
  exact h

theorem cdtInsert_tracks (h : Tracks s t) (parent : Nat) (hx : IsSlot x) (hnew : x ∉ t.toList)
    (hcap : (s.cap x).InCdt) (hagree : ∀ y ∈ t.toList, (s.cap x).Agree (s.cap y))
    (hparent : parent = 0 ∨ (s.cap parent).InCdt) :
    ∃ s' t', cdtInsert s parent x = .ok s' ∧ Tracks s' t' ∧
      (∀ y, y ∈ t'.toList ↔ y = x ∨ y ∈ t.toList) ∧ s'.cap = s.cap ∧
      (∀ y, y ≠ x → (s'.mdb y).cdtDepth = (s.mdb y).cdtDepth) ∧
      ∀ depth, insertDepth s parent x = .ok depth → (s'.mdb x).cdtDepth = depth % 2 ^ 5 := by
  obtain ⟨depth, hdepth⟩ := insertDepth_ok hparent hcap
  obtain ⟨s', t', hcall, htracks, hlist, hcaps, hdepths, -⟩ :=
    (h.setMdb hnew (mdbNodeNew depth)).insert hx hnew
      ⟨by rw [Cdt.setMdb, modify_mdb_self]; rfl, by rw [Cdt.setMdb, modify_mdb_self]; rfl⟩ hcap
      hagree
  refine ⟨s', t', ?_, htracks, hlist, hcaps, fun y hy => ?_, fun depth' hdepth' => ?_⟩
  · rw [cdtInsert, if_neg hcap.ne_null, if_neg, hdepth]
    · exact hcall
    · rintro ⟨h0, hnull⟩
      exact (hparent.resolve_left h0).ne_null hnull
  · rw [hdepths, Cdt.setMdb, modify_mdb_of_ne hy]
  · rw [hdepths, Cdt.setMdb, modify_mdb_self, Except.ok.inj (hdepth'.symm.trans hdepth)]
    rfl

section Caps

variable {cap : Nat → Cap} {c : Cap}

theorem inCdt_update_iff {y : Nat} :
    (Function.update cap x c y).InCdt ↔ y = x ∧ c.InCdt ∨ y ≠ x ∧ (cap y).InCdt := by
  by_cases hyx : y = x
  · subst hyx
    rw [Function.update_self]
    exact ⟨fun hc => .inl ⟨rfl, hc⟩, fun hc => (hc.resolve_right fun h => h.1 rfl).2⟩
  · rw [Function.update_of_ne hyx]
    exact ⟨fun hc => .inr ⟨hyx, hc⟩, fun hc => (hc.resolve_left fun h => hyx h.1).2⟩

theorem known_update (h : ∀ y, (cap y).Known) (hc : c.Known) :
    ∀ y, (Function.update cap x c y).Known := fun y => by
  by_cases hyx : y = x
  · subst hyx
    rwa [Function.update_self]
  · rw [Function.update_of_ne hyx]
    exact h y

end Caps

/-- An operation returns, keeps the invariant and leaves the capabilities `caps` in the slots. -/
def Keeps (x : Except KernelFault Cdt) (caps : Nat → Cap) : Prop :=
  ∃ s', x = .ok s' ∧ CdtInv s' ∧ s'.cap = caps

theorem insert_keeps (h : CdtInv s) {parent : Nat} {cap : Cap} (hx : IsSlot x)
    (hnull : s.cap x = .null) (hparent : parent = 0 ∨ (s.cap parent).InCdt)
    (hfits : Fits s cap []) :
    Keeps (cdtInsert (s.setCap x cap) parent x) (Function.update s.cap x cap) := by
  obtain ⟨⟨t, htracks, hlist⟩, hknown⟩ := h
  obtain ⟨hcap, hagree⟩ := hfits
  have hnew : x ∉ t.toList := fun hmem => ((hlist x).mp hmem).ne_null hnull
  have hself : (s.setCap x cap).cap x = cap := Function.update_self ..
  have hother : ∀ y, y ≠ x → (s.setCap x cap).cap y = s.cap y := fun y hyx =>
    Function.update_of_ne hyx ..
  obtain ⟨s', t', hcall, htracks', hlist', hcaps, -⟩ :=
    cdtInsert_tracks (htracks.setCap hnew cap) parent hx hnew (hself.symm ▸ hcap)
      (fun y hy => by
        rw [hself, hother y (ne_of_mem_of_not_mem hy hnew)]
        exact hagree y List.not_mem_nil ((hlist y).mp hy))
      (hparent.imp_right fun hp => by
        rw [hother parent fun hpx => hp.ne_null (hpx ▸ hnull)]
        exact hp)
  refine ⟨s', hcall, ⟨⟨t', htracks', fun y => ?_⟩, ?_⟩, hcaps⟩
  · have hyx : (s.cap y).InCdt → y ≠ x := fun hy hyx => hy.ne_null (hyx.symm ▸ hnull)
    rw [hlist', hlist, hcaps, show (s.setCap x cap).cap = Function.update s.cap x cap from rfl,
      inCdt_update_iff]
    exact or_congr (iff_self_and.mpr fun _ => hcap) (iff_and_self.mpr hyx)
  · rw [hcaps]
    exact known_update hknown (.inl hcap)

theorem emptySlot_keeps (h : CdtInv s) (hx : (s.cap x).InCdt ∨ s.cap x = .null) :
    Keeps (emptySlot s x) (Function.update s.cap x .null) := by
  by_cases hnull : s.cap x = .null
  · refine ⟨s, by rw [emptySlot, if_neg (not_not.mpr hnull)], h, ?_⟩
    rw [← hnull, Function.update_eq_self]
  · have hcap := hx.resolve_right hnull
    obtain ⟨⟨t, htracks, hlist⟩, hknown⟩ := h
    obtain ⟨s', t', hcall, htracks', hlist', hcaps, -⟩ := htracks.remove ((hlist x).mpr hcap)
    have hout : x ∉ t'.toList := fun hmem => ((hlist' x).mp hmem).2 rfl
    have hcaps' : ((s'.setMdb x (mdbNodeNew 0)).setCap x .null).cap =
        Function.update s.cap x .null := by
      show Function.update s'.cap x .null = _
      rw [hcaps]
    refine ⟨(s'.setMdb x (mdbNodeNew 0)).setCap x .null, ?_,
      ⟨⟨t', (htracks'.setMdb hout _).setCap hout _, fun y => ?_⟩, ?_⟩, hcaps'⟩
    · rw [emptySlot, if_pos hnull, cdtRemove, if_neg hnull, hcall]
      rfl
    · rw [hlist', hlist, hcaps', inCdt_update_iff]
      exact ⟨fun hy => .inr hy.symm, fun hy => (hy.resolve_left fun hy => hy.2).symm⟩
    · rw [hcaps']
      exact known_update hknown (.inr (.inl rfl))

theorem cdtMove_keeps (h : CdtInv s) {src dest : Nat} {cap : Cap} (hdest : IsSlot dest)
    (hnull : s.cap dest = .null) (hsrc : (s.cap src).InCdt) (hfits : Fits s cap [src]) :
    ∃ s', cdtMove (s.setCap dest cap) src dest = .ok s' ∧ CdtInv (s'.setCap src .null) ∧
      s'.cap = Function.update s.cap dest cap := by
  obtain ⟨⟨t, htracks, hlist⟩, hknown⟩ := h
  obtain ⟨hcap, hagree⟩ := hfits
  have hne : src ≠ dest := by
    rintro rfl
    exact hsrc.ne_null hnull
  have hnew : dest ∉ t.toList := fun hmem => ((hlist dest).mp hmem).ne_null hnull
  have hself : (s.setCap dest cap).cap dest = cap := Function.update_self ..
  have hother : ∀ y, y ≠ dest → (s.setCap dest cap).cap y = s.cap y := fun y hy =>
    Function.update_of_ne hy ..
  obtain ⟨s₁, t₁, hremove, htracks₁, hlist₁, hcaps₁, -⟩ :=
    (htracks.setCap hnew cap).remove ((hlist src).mpr hsrc)
  have hnew₁ : dest ∉ t₁.toList := fun hmem => hnew ((hlist₁ dest).mp hmem).1
  have hout₁ : src ∉ t₁.toList := fun hmem => ((hlist₁ src).mp hmem).2 rfl
  set s₂ := (s₁.setMdb dest (mdbNodeNew (s₁.mdb src).cdtDepth)).setMdb src (mdbNodeNew 0) with hs₂
  have hmdb : s₂.mdb dest = mdbNodeNew (s₁.mdb src).cdtDepth := by
    rw [hs₂, Cdt.setMdb, modify_mdb_of_ne (Ne.symm hne), Cdt.setMdb, modify_mdb_self]
  have hcaps₂ : s₂.cap = (s.setCap dest cap).cap := hcaps₁
  obtain ⟨s₃, t₃, hinsert, htracks₃, hlist₃, hcaps₃, -⟩ :=
    ((htracks₁.setMdb hnew₁ _).setMdb hout₁ _).insert hdest hnew₁
      ⟨by rw [hmdb]; rfl, by rw [hmdb]; rfl⟩ (by rw [hcaps₂, hself]; exact hcap)
      (fun y hy => by
        rw [hcaps₂, hself, hother y (ne_of_mem_of_not_mem hy hnew₁)]
        obtain ⟨hy', hys⟩ := (hlist₁ y).mp hy
        exact hagree y (fun hmem => hys (List.mem_singleton.mp hmem)) ((hlist y).mp hy'))
  have hout₃ : src ∉ t₃.toList := fun hmem =>
    ((hlist₃ src).mp hmem).elim hne hout₁
  have hcaps : s₃.cap = Function.update s.cap dest cap := hcaps₃.trans hcaps₂
  refine ⟨s₃, ?_, ⟨⟨t₃, htracks₃.setCap hout₃ _, fun y => ?_⟩, ?_⟩, hcaps⟩
  · rw [cdtMove, if_neg, hremove]
    · exact hinsert
    · rw [hother src hne, hself, not_or]
      exact ⟨hsrc.ne_null, hcap.ne_null⟩
  · rw [hlist₃, hlist₁, hlist,
      show (s₃.setCap src .null).cap = Function.update s₃.cap src .null from rfl, inCdt_update_iff,
      hcaps, inCdt_update_iff]
    constructor
    · rintro (rfl | ⟨hy, hys⟩)
      · exact .inr ⟨Ne.symm hne, .inl ⟨rfl, hcap⟩⟩
      · exact .inr ⟨hys, .inr ⟨fun hyd => hy.ne_null (hyd ▸ hnull), hy⟩⟩
    · rintro (⟨-, hbad⟩ | ⟨hys, ⟨rfl, -⟩ | ⟨-, hy⟩⟩)
      · exact hbad.elim
      · exact .inl rfl
      · exact .inr ⟨hy, hys⟩
  · show ∀ y, (Function.update s₃.cap src .null y).Known
    rw [hcaps]
    exact known_update (known_update hknown (.inl hcap)) (.inr (.inl rfl))

theorem cteMove_eq {cap : Cap} {src dest : Nat} (hnull : s.cap dest = .null) (hcap : cap.InCdt) :
    cteMove s cap src dest =
      (cdtMove (s.setCap dest cap) src dest >>= fun s => .ok (s.setCap src .null)) := by
  rw [cteMove, if_neg (not_not.mpr hnull)]
  cases cap <;> first | rfl | exact hcap.elim

theorem cteMove_keeps (h : CdtInv s) {src dest : Nat} {cap : Cap} (hdest : IsSlot dest)
    (hnull : s.cap dest = .null)
    (hsrc : (s.cap src).InCdt ∧ Fits s cap [src] ∨
      ∃ tcb, s.cap src = .reply tcb ∧ cap = .reply tcb) :
    Keeps (cteMove s cap src dest)
      (Function.update (Function.update s.cap dest cap) src .null) := by
  rcases hsrc with ⟨hsrc, hfits⟩ | ⟨tcb, hsrc, rfl⟩
  · obtain ⟨s', hcall, hinv, hcaps⟩ := cdtMove_keeps h hdest hnull hsrc hfits
    refine ⟨s'.setCap src .null, ?_, hinv, by rw [← hcaps]; rfl⟩
    rw [cteMove_eq hnull hfits.1, hcall]
    rfl
  · -- a reply capability changes its slot, and the tree stays
    obtain ⟨⟨t, htracks, hlist⟩, hknown⟩ := h
    have hnew : dest ∉ t.toList := fun hmem => ((hlist dest).mp hmem).ne_null hnull
    have hout : src ∉ t.toList := fun hmem => by
      have := (hlist src).mp hmem
      rw [hsrc] at this
      exact this
    refine ⟨(s.setCap dest (.reply tcb)).setCap src .null, ?_,
      ⟨⟨t, (htracks.setCap hnew _).setCap hout _, fun y => ?_⟩, ?_⟩, rfl⟩
    · rw [cteMove, if_neg (not_not.mpr hnull)]
      rfl
    · show _ ↔ (Function.update (Function.update s.cap dest (.reply tcb)) src .null y).InCdt
      rw [hlist, inCdt_update_iff, inCdt_update_iff]
      refine ⟨fun hy => .inr ⟨fun hys => ?_, .inr ⟨fun hyd => hy.ne_null (hyd ▸ hnull), hy⟩⟩, ?_⟩
      · rw [hys, hsrc] at hy
        exact hy
      · rintro (⟨-, hbad⟩ | ⟨-, ⟨-, hbad⟩ | ⟨-, hy⟩⟩)
        · exact hbad.elim
        · exact hbad.elim
        · exact hy
    · exact known_update (known_update hknown (.inr (.inr ⟨tcb, rfl⟩))) (.inr (.inl rfl))

theorem cdtUpdate_keeps (h : CdtInv s) {cap : Cap} (hx : (s.cap x).InCdt)
    (hfits : Fits s cap [x]) : Keeps (cdtUpdate s x cap) (Function.update s.cap x cap) := by
  obtain ⟨⟨t, htracks, hlist⟩, hknown⟩ := h
  obtain ⟨hcap, hagree⟩ := hfits
  have hmem := (hlist x).mpr hx
  have hagree' : ∀ y ∈ t.toList, y ≠ x → cap.Agree (s.cap y) := fun y hy hyx =>
    hagree y (fun hmem => hyx (List.mem_singleton.mp hmem)) ((hlist y).mp hy)
  have hlive : ∀ y, (Function.update s.cap x cap y).InCdt ↔ y ∈ t.toList := fun y => by
    rw [inCdt_update_iff, ← hlist]
    refine ⟨?_, fun hy => ?_⟩
    · rintro (⟨rfl, -⟩ | ⟨-, hy⟩)
      · exact hmem
      · exact hy
    · by_cases hyx : y = x
      · exact .inl ⟨hyx, hcap⟩
      · exact .inr ⟨hyx, hy⟩
  obtain ⟨eq, heq, hkey⟩ := capsEqual_spec hx hcap
  cases eq with
  | true =>
      obtain ⟨hkey, hextra⟩ := hkey rfl
      refine ⟨s.setCap x cap, ?_,
        ⟨⟨t, htracks.recap hkey hextra hcap hagree', fun y => ?_⟩, ?_⟩, rfl⟩
      · rw [cdtUpdate, heq]
        rfl
      · exact (hlive y).symm
      · exact known_update hknown (.inl hcap)
  | false =>
      obtain ⟨s₁, t₁, hremove, htracks₁, hlist₁, hcaps₁, -⟩ := htracks.remove hmem
      have hout₁ : x ∉ t₁.toList := fun hmem => ((hlist₁ x).mp hmem).2 rfl
      have hself : ∀ node, ((s₁.setMdb x node).setCap x cap).cap x = cap := fun node =>
        Function.update_self ..
      have hother : ∀ node y, y ≠ x → ((s₁.setMdb x node).setCap x cap).cap y = s.cap y :=
        fun node y hyx => (Function.update_of_ne hyx ..).trans (congrFun hcaps₁ y)
      obtain ⟨s₂, t₂, hinsert, htracks₂, hlist₂, hcaps₂, -⟩ :=
        ((htracks₁.setMdb hout₁ (mdbNodeNew (s₁.mdb x).cdtDepth)).setCap hout₁ cap).insert
          (htracks.tree.isSlot x hmem) hout₁
          ⟨by rw [Cdt.setCap, Cdt.setMdb, modify_mdb_self]; rfl,
            by rw [Cdt.setCap, Cdt.setMdb, modify_mdb_self]; rfl⟩ (by rw [hself]; exact hcap)
          (fun y hy => by
            have hyx := ne_of_mem_of_not_mem hy hout₁
            rw [hself, hother _ y hyx]
            exact hagree' y ((hlist₁ y).mp hy).1 hyx)
      have hcaps : s₂.cap = Function.update s.cap x cap := by
        rw [hcaps₂, ← hcaps₁]
        rfl
      refine ⟨s₂, ?_, ⟨⟨t₂, htracks₂, fun y => ?_⟩, ?_⟩, hcaps⟩
      · rw [cdtUpdate, heq]
        simp only [bind, Except.bind, Bool.false_eq_true, if_false]
        rw [hremove]
        exact hinsert
      · rw [hlist₂, hlist₁, hcaps, hlive]
        refine ⟨?_, fun hy => ?_⟩
        · rintro (rfl | ⟨hy, -⟩)
          · exact hmem
          · exact hy
        · by_cases hyx : y = x
          · exact .inl hyx
          · exact .inr ⟨hy, hyx⟩
      · rw [hcaps]
        exact known_update hknown (.inl hcap)

theorem cdtSwap_keeps (h : CdtInv s) {cap₁ cap₂ : Cap} {slot₁ slot₂ : Nat} (hne : slot₁ ≠ slot₂)
    (hslot₁ : IsSlot slot₁) (hslot₂ : IsSlot slot₂)
    (h₁ : s.cap slot₁ = .null ∧ cap₁ = .null ∨ (s.cap slot₁).InCdt ∧ Fits s cap₁ [slot₁, slot₂])
    (h₂ : s.cap slot₂ = .null ∧ cap₂ = .null ∨ (s.cap slot₂).InCdt ∧ Fits s cap₂ [slot₁, slot₂])
    (h₁₂ : cap₁.InCdt → cap₂.InCdt → cap₁.Agree cap₂) :
    Keeps (cdtSwap s cap₁ slot₁ cap₂ slot₂)
      (Function.update (Function.update s.cap slot₁ cap₂) slot₂ cap₁) := by
  obtain ⟨⟨t, htracks, hlist⟩, hknown⟩ := h
  have hin : ∀ {x c}, s.cap x = .null ∧ c = .null ∨ (s.cap x).InCdt ∧ Fits s c [slot₁, slot₂] →
      s.cap x = .null ∧ x ∉ t.toList ∨ x ∈ t.toList := by
    intro x c hx
    refine hx.imp (fun hx => ⟨hx.1, fun hmem => ((hlist x).mp hmem).ne_null hx.1⟩) fun hx => ?_
    exact (hlist x).mpr hx.1
  obtain ⟨s₁, t₁, hrem₁, htracks₁, hlist₁, hcaps₁, -⟩ := htracks.removeIf (hin h₁)
  obtain ⟨s₂, t₂, hrem₂, htracks₂, hlist₂, hcaps₂, -⟩ := htracks₁.removeIf (x := slot₂) (by
    rw [hcaps₁]
    refine (hin h₂).imp (fun hx => ⟨hx.1, fun hmem => hx.2 ((hlist₁ slot₂).mp hmem).1⟩) fun hx => ?_
    exact (hlist₁ slot₂).mpr ⟨hx, Ne.symm hne⟩)
  -- the tree without the two slots, and their new nodes and capabilities
  have hout₁ : slot₁ ∉ t₂.toList := fun hmem => ((hlist₁ slot₁).mp ((hlist₂ slot₁).mp hmem).1).2 rfl
  have hout₂ : slot₂ ∉ t₂.toList := fun hmem => ((hlist₂ slot₂).mp hmem).2 rfl
  have hrest : ∀ y ∈ t₂.toList, y ∉ [slot₁, slot₂] ∧ (s.cap y).InCdt := fun y hy => by
    refine ⟨fun hmem => ?_, (hlist y).mp ((hlist₁ y).mp ((hlist₂ y).mp hy).1).1⟩
    rcases List.mem_pair.mp hmem with rfl | rfl
    · exact hout₁ hy
    · exact hout₂ hy
  set s₃ := (((s₂.setMdb slot₁ (mdbNodeNew (s₂.mdb slot₂).cdtDepth)).setMdb slot₂
    (mdbNodeNew (s₂.mdb slot₁).cdtDepth)).setCap slot₁ cap₂).setCap slot₂ cap₁ with hs₃
  have htracks₃ : Tracks s₃ t₂ :=
    (((htracks₂.setMdb hout₁ _).setMdb hout₂ _).setCap hout₁ _).setCap hout₂ _
  have hcaps₃ : s₃.cap = Function.update (Function.update s.cap slot₁ cap₂) slot₂ cap₁ := by
    rw [← hcaps₁, ← hcaps₂]
    rfl
  have hcap₁ : s₃.cap slot₁ = cap₂ := by
    rw [hcaps₃, Function.update_of_ne hne, Function.update_self]
  have hcap₂ : s₃.cap slot₂ = cap₁ := by rw [hcaps₃, Function.update_self]
  have hcapy : ∀ y ∈ t₂.toList, s₃.cap y = s.cap y := fun y hy => by
    rw [hcaps₃, Function.update_of_ne (ne_of_mem_of_not_mem hy hout₂),
      Function.update_of_ne (ne_of_mem_of_not_mem hy hout₁)]
  have hmdb₁ : s₃.mdb slot₁ = mdbNodeNew (s₂.mdb slot₂).cdtDepth := by
    rw [hs₃, Cdt.setCap, Cdt.setCap, Cdt.setMdb, modify_mdb_of_ne hne, Cdt.setMdb, modify_mdb_self]
  have hmdb₂ : s₃.mdb slot₂ = mdbNodeNew (s₂.mdb slot₁).cdtDepth := by
    rw [hs₃, Cdt.setCap, Cdt.setCap, Cdt.setMdb, modify_mdb_self]
  obtain ⟨s₄, t₄, hins₁, htracks₄, hlist₄, hcaps₄, -, hframe₄⟩ :=
    htracks₃.insertIf hslot₁ hout₁ ⟨by rw [hmdb₁]; rfl, by rw [hmdb₁]; rfl⟩ (by
      rw [hcap₁]
      refine h₂.imp And.right fun hc => ⟨hc.2.1, fun y hy => ?_⟩
      rw [hcapy y hy]
      exact hc.2.2 y (hrest y hy).1 (hrest y hy).2)
  have hout₄ : slot₂ ∉ t₄.toList := fun hmem =>
    ((hlist₄ slot₂).mp hmem).elim (fun hx => hne hx.1.symm) hout₂
  have hmdb₄ : s₄.mdb slot₂ = s₃.mdb slot₂ := hframe₄ slot₂ fun hmem =>
    (List.mem_cons.mp hmem).elim (fun hx => hne hx.symm) hout₂
  obtain ⟨s₅, t₅, hins₂, htracks₅, hlist₅, hcaps₅, -⟩ :=
    htracks₄.insertIf hslot₂ hout₄ ⟨by rw [hmdb₄, hmdb₂]; rfl, by rw [hmdb₄, hmdb₂]; rfl⟩ (by
      rw [hcaps₄, hcap₂]
      refine h₁.imp And.right fun hc => ⟨hc.2.1, fun y hy => ?_⟩
      rcases (hlist₄ y).mp hy with ⟨rfl, hin⟩ | hy
      · rw [hcap₁] at hin ⊢
        exact h₁₂ hc.2.1 hin
      · rw [hcapy y hy]
        exact hc.2.2 y (hrest y hy).1 (hrest y hy).2)
  have hcaps : s₅.cap = Function.update (Function.update s.cap slot₁ cap₂) slot₂ cap₁ := by
    rw [hcaps₅, hcaps₄, hcaps₃]
  have hknownc : ∀ {x c}, s.cap x = .null ∧ c = .null ∨
      (s.cap x).InCdt ∧ Fits s c [slot₁, slot₂] → c.Known := fun hx =>
    hx.elim (fun hx => .inr (.inl hx.2)) fun hx => .inl hx.2.1
  refine ⟨s₅, ?_, ⟨⟨t₅, htracks₅, fun y => ?_⟩, ?_⟩, hcaps⟩
  · rw [cdtSwap, if_neg hne, hrem₁]
    simp only [bind, Except.bind]
    rw [hrem₂]
    dsimp only
    rw [← hs₃, hins₁]
    exact hins₂
  · rw [hlist₅, hlist₄, hcaps₄, hcap₂, hcap₁, hcaps, inCdt_update_iff, inCdt_update_iff, hlist₂,
      hlist₁, hlist]
    refine or_congr_right ⟨?_, ?_⟩
    · rintro (⟨rfl, hc⟩ | ⟨⟨hy, hy₁⟩, hy₂⟩)
      · exact ⟨hne, .inl ⟨rfl, hc⟩⟩
      · exact ⟨hy₂, .inr ⟨hy₁, hy⟩⟩
    · rintro ⟨hy₂, ⟨rfl, hc⟩ | ⟨hy₁, hy⟩⟩
      · exact .inl ⟨rfl, hc⟩
      · exact .inr ⟨⟨hy, hy₁⟩, hy₂⟩
  · rw [hcaps]
    exact known_update (known_update hknown (hknownc h₂)) (hknownc h₁)

/-- Every operation whose callers keep to the rules returns and keeps the tree sound. -/
theorem CdtOp.keeps (h : CdtInv s) {op : CdtOp} (hok : op.Ok s) :
    Keeps (op.run s) (op.caps s.cap) := by
  cases op with
  | cteInsert cap src dest =>
      obtain ⟨hdest, hnull, hsrc, hfits⟩ := hok
      have := insert_keeps h hdest hnull (.inr hsrc) hfits
      rwa [CdtOp.run, Kernel.cteInsert, if_neg (not_not.mpr hnull)]
  | insertNewCap parent slot cap =>
      obtain ⟨hslot, hnull, hparent, hfits⟩ := hok
      exact insert_keeps h hslot hnull hparent hfits
  | cteMove cap src dest => exact cteMove_keeps h hok.1 hok.2.1 hok.2.2
  | cdtUpdate slot cap => exact cdtUpdate_keeps h hok.1 hok.2
  | cdtSwap cap₁ slot₁ cap₂ slot₂ =>
      obtain ⟨hne, hslot₁, hslot₂, h₁, h₂, h₁₂⟩ := hok
      exact cdtSwap_keeps h hne hslot₁ hslot₂ h₁ h₂ h₁₂
  | emptySlot slot => exact emptySlot_keeps h hok

/-- The slots at boot. -/
def Cdt.init : Cdt := ⟨fun _ => .null, fun _ => mdbNodeNew 0, 0⟩

theorem cdtInv_init : CdtInv Cdt.init := by
  refine ⟨⟨.nil, ⟨rfl, trivial, AATree.ordered_nil, ?_, ?_⟩, fun x => ?_⟩, fun x => ?_⟩
  · exact fun x hx => nomatch hx
  · exact fun x hx => nomatch hx
  · exact ⟨(fun hx => nomatch hx), False.elim⟩
  · exact .inr (.inl rfl)

/-- In every run of capability operations from boot the tree in memory is sound, and no operation
stops: the recursion stays shallow, no level leaves its field and no comparison fails. Reply
capabilities are outside the tree, and no admitted operation empties a slot with one. -/
theorem cdt_run {ops : List CdtOp} (h : Run (fun s op => CdtOp.run s op) CdtOp.Ok Cdt.init ops s) :
    CdtInv s ∧ ∀ op, CdtOp.Ok s op → ∃ s', CdtOp.run s op = .ok s' ∧ s'.cap = op.caps s.cap := by
  have hinv : CdtInv s := by
    refine h.invariant cdtInv_init fun s op s' hinv hok hrun => ?_
    obtain ⟨s₁, hrun₁, hinv₁, -⟩ := CdtOp.keeps hinv hok
    rw [hrun] at hrun₁
    exact Except.ok.inj hrun₁ ▸ hinv₁
  refine ⟨hinv, fun op hok => ?_⟩
  obtain ⟨s', hrun, -, hcaps⟩ := CdtOp.keeps hinv hok
  exact ⟨s', hrun, hcaps⟩

/-! ## Example runs -/

/-- Slots that hold the capabilities of a list, the first of each slot. -/
def slotCaps (l : List (Nat × Cap)) (slot : Nat) : Cap := (l.lookup slot).getD .null

theorem slotCaps_cons {l : List (Nat × Cap)} {c : Cap} :
    Function.update (slotCaps l) x c = slotCaps ((x, c) :: l) := by
  funext y
  by_cases hyx : y = x
  · subst hyx
    simp [slotCaps]
  · simp [slotCaps, hyx, List.lookup_cons, beq_eq_false_iff_ne.mpr hyx]

theorem slotCaps_mem {l : List (Nat × Cap)} {y : Nat} (h : (slotCaps l y).InCdt) :
    (y, slotCaps l y) ∈ l := by
  cases hl : l.lookup y with
  | none =>
      rw [slotCaps, hl] at h
      exact h.elim
  | some c =>
      obtain ⟨l₁, l₂, rfl, -⟩ := List.lookup_eq_some_iff.mp hl
      rw [slotCaps, hl]
      exact List.mem_append_right _ (List.mem_cons_self ..)

theorem fits_slotCaps {l : List (Nat × Cap)} {c : Cap} {xs : List Nat} (hcaps : s.cap = slotCaps l)
    (hc : c.InCdt) (h : ∀ q ∈ l, c.Agree q.2) : Fits s c xs :=
  ⟨hc, fun y _ hy => by
    rw [hcaps] at hy ⊢
    exact h _ (slotCaps_mem hy)⟩

/-- The state `s` is reached by a run, is sound, and its slots hold the capabilities `l`. -/
def Reached (s : Cdt) (l : List (Nat × Cap)) : Prop :=
  (∃ ops, Run (fun s op => CdtOp.run s op) CdtOp.Ok Cdt.init ops s) ∧ CdtInv s ∧ s.cap = slotCaps l

theorem Reached.insertNewCap {l : List (Nat × Cap)} (h : Reached s l) (parent slot : Nat) (c : Cap)
    (hslot : IsSlot slot) (hnull : slotCaps l slot = .null)
    (hparent : parent = 0 ∨ (slotCaps l parent).InCdt) (hc : c.InCdt)
    (hagree : ∀ q ∈ l, c.Agree q.2) : ∃ s', Reached s' ((slot, c) :: l) := by
  obtain ⟨⟨ops, hrun⟩, hinv, hcaps⟩ := h
  have hok : CdtOp.Ok s (.insertNewCap parent slot c) :=
    ⟨hslot, hcaps ▸ hnull, hcaps ▸ hparent, fits_slotCaps hcaps hc hagree⟩
  obtain ⟨s', hstep, hinv', hcaps'⟩ := CdtOp.keeps hinv hok
  refine ⟨s', ⟨_, hrun.trans (Run.single hok hstep)⟩, hinv', ?_⟩
  rw [hcaps', ← slotCaps_cons, ← hcaps]
  rfl

theorem Reached.emptySlot {l : List (Nat × Cap)} (h : Reached s l) (slot : Nat)
    (hslot : (slotCaps l slot).InCdt) : ∃ s', Reached s' ((slot, .null) :: l) := by
  obtain ⟨⟨ops, hrun⟩, hinv, hcaps⟩ := h
  have hok : CdtOp.Ok s (.emptySlot slot) := .inl (hcaps ▸ hslot)
  obtain ⟨s', hstep, hinv', hcaps'⟩ := CdtOp.keeps hinv hok
  refine ⟨s', ⟨_, hrun.trans (Run.single hok hstep)⟩, hinv', ?_⟩
  rw [hcaps', ← slotCaps_cons, ← hcaps]
  rfl

theorem reached_init : Reached Cdt.init [] :=
  ⟨⟨[], .nil⟩, cdtInv_init, rfl⟩

/-- An endpoint in untyped memory, and a badged copy of it. -/
def badgedCaps : List (Nat × Cap) :=
  [(0xE0000040, .endpoint 7 0xE0010000), (0xE0000030, .endpoint 0 0xE0010000),
    (0xE0000020, .untyped 4 0xE0010000), (0xE0000010, .cnode 4 0xE0001000)]

theorem exists_badged : ∃ s, Reached s badgedCaps := by
  obtain ⟨s₁, h₁⟩ := reached_init.insertNewCap 0 0xE0000010 (.cnode 4 0xE0001000) (by decide) rfl
    (.inl rfl) trivial (by decide)
  obtain ⟨s₂, h₂⟩ := h₁.insertNewCap 0 0xE0000020 (.untyped 4 0xE0010000) (by decide) rfl
    (.inl rfl) (by decide) (by decide)
  obtain ⟨s₃, h₃⟩ := h₂.insertNewCap 0xE0000020 0xE0000030 (.endpoint 0 0xE0010000) (by decide) rfl
    (.inr (by decide)) trivial (by decide)
  exact h₃.insertNewCap 0xE0000030 0xE0000040 (.endpoint 7 0xE0010000) (by decide) rfl
    (.inr (by decide)) trivial (by decide)

/-- A run that makes an endpoint from the untyped memory of boot. -/
theorem cdt_run_badged : ∃ s, CdtInv s ∧ s.cap 0xE0000040 = .endpoint 7 0xE0010000 := by
  obtain ⟨s, ⟨ops, hrun⟩, -, hcaps⟩ := exists_badged
  exact ⟨s, (cdt_run hrun).1, by rw [hcaps]; rfl⟩

end PartitionSeL4.Kernel
