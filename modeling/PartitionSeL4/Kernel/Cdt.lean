import PartitionSeL4.Kernel.CapOrder
import PartitionSeL4.Lib.AATree

/-!
# The capability derivation tree in memory

The nodes of the tree are the slots themselves: each has a left and a right link, a level and the
capability's depth. `aaInsert`, `aaRemove` and their helpers rewrite links and levels in place.

`TreeAt s p t` says that the tree `t` hangs at slot `p` of the state `s`. Under it the repairs in
memory are those of `Lib.AATree` (`aaSkew_refines`, `aaSplit_refines`, `aaRebalance_refines`): they
write to slots of the tree only, and leave depths and capabilities alone.
-/

namespace PartitionSeL4.Kernel

open Lib

/-- `mdb_node_t`. A link holds what reading it gives. -/
structure MdbNode where
  cdtLeft : Nat
  cdtRight : Nat
  cdtDepth : Nat
  cdtLevel : Nat
  deriving DecidableEq, Repr

/-- A node without links, on level 0. The depth is cut to its field, where the generated
`mdb_node_new` asserts that it fits. -/
def mdbNodeNew (depth : Nat) : MdbNode := ⟨0, 0, depth % 2 ^ 5, 0⟩

/-- What reading a link gives after `cte` has been written to it: the field has 27 bits, and the
three highest bits of a slot's address are set. -/
def linkOf (cte : Nat) : Nat :=
  let bits := cte % 2 ^ 29 / 2 ^ 2 * 2 ^ 2
  if bits = 0 then 0 else bits + 0xE0000000

/-- The slots of the kernel and the root of the tree. -/
structure Cdt where
  cap : Nat → Cap
  mdb : Nat → MdbNode
  ksRootCTE : Nat

namespace Cdt

/-- A change of one slot's node. -/
def modify (s : Cdt) (slot : Nat) (f : MdbNode → MdbNode) : Cdt :=
  { s with mdb := Function.update s.mdb slot (f (s.mdb slot)) }

/-- The slot as the comparisons see it. -/
def cte (s : Cdt) (slot : Nat) : Cte := ⟨s.cap slot, (s.mdb slot).cdtDepth, slot⟩

/-- What the slot is ordered by. -/
def key (s : Cdt) (slot : Nat) : CteKey := (s.cte slot).key

/-- `mdb_node_ptr_set_cdtLeft`. -/
def setLeft (s : Cdt) (slot cte : Nat) : Except KernelFault Cdt :=
  if cte % 2 ^ 2 = 0 then .ok (s.modify slot fun n => { n with cdtLeft := linkOf cte })
  else .error .assertFail

/-- `mdb_node_ptr_set_cdtRight`. -/
def setRight (s : Cdt) (slot cte : Nat) : Except KernelFault Cdt :=
  if cte % 2 ^ 2 = 0 then .ok (s.modify slot fun n => { n with cdtRight := linkOf cte })
  else .error .assertFail

/-- `mdb_node_ptr_set_cdtLevel`. -/
def setLevel (s : Cdt) (slot level : Nat) : Cdt :=
  s.modify slot fun n => { n with cdtLevel := level % 2 ^ 5 }

end Cdt

/-! ## The operations -/

def aaLevel (s : Cdt) (slot : Nat) : Nat := if slot = 0 then 0 else (s.mdb slot).cdtLevel

def aaSkew (s : Cdt) (slot : Nat) : Except KernelFault (Cdt × Nat) := do
  if slot = 0 then .ok (s, 0)
  else
    let left := (s.mdb slot).cdtLeft
    if left ≠ 0 ∧ (s.mdb left).cdtLevel = (s.mdb slot).cdtLevel then
      let s ← s.setLeft slot (s.mdb left).cdtRight
      let s ← s.setRight left slot
      .ok (s, left)
    else .ok (s, slot)

def aaSplit (s : Cdt) (slot : Nat) : Except KernelFault (Cdt × Nat) := do
  if slot = 0 then .ok (s, 0)
  else
    let right := (s.mdb slot).cdtRight
    let rightRight := (s.mdb right).cdtRight
    if right ≠ 0 ∧ rightRight ≠ 0 ∧ (s.mdb slot).cdtLevel = (s.mdb rightRight).cdtLevel then
      let s ← s.setRight slot (s.mdb right).cdtLeft
      let level := (s.mdb right).cdtLevel + 1
      let s := s.setLevel right level
      -- the level does not overflow its field
      if (s.mdb right).cdtLevel = level then
        let s ← s.setLeft right slot
        .ok (s, right)
      else .error .assertFail
    else .ok (s, slot)

def aaDecLevel (s : Cdt) (slot : Nat) : Cdt × Nat :=
  if slot = 0 then (s, 0)
  else
    let left := (s.mdb slot).cdtLeft
    let right := (s.mdb slot).cdtRight
    let shouldBe := min (aaLevel s left) (aaLevel s right) + 1
    if shouldBe < (s.mdb slot).cdtLevel then
      let s := s.setLevel slot shouldBe
      if right ≠ 0 ∧ shouldBe < (s.mdb right).cdtLevel then (s.setLevel right shouldBe, slot)
      else (s, slot)
    else (s, slot)

def aaRebalance (s : Cdt) (slot : Nat) : Except KernelFault (Cdt × Nat) := do
  if slot = 0 then .ok (s, 0)
  else
    let (s, slot) := aaDecLevel s slot
    let (s, slot) ← aaSkew s slot
    let (s, right) ← aaSkew s (s.mdb slot).cdtRight
    let s ← s.setRight slot right
    let s ← (if right ≠ 0 then do
        let (s, rightRight) ← aaSkew s (s.mdb right).cdtRight
        s.setRight right rightRight
      else .ok s)
    let (s, slot) ← aaSplit s slot
    let (s, right) ← aaSplit s (s.mdb slot).cdtRight
    let s ← s.setRight slot right
    .ok (s, slot)

/-- The first argument bounds the depth of the recursion. -/
def aaInsert : Nat → Cdt → Nat → Nat → Except KernelFault (Cdt × Nat)
  | 0, _, _, _ => .error .stackDepth
  | fuel + 1, s, rootSlot, newSlot => do
      if newSlot = 0 then .error .fail
      else if newSlot = rootSlot then .error .assertFail
      else if rootSlot = 0 then .ok (s.setLevel newSlot 1, newSlot)
      else
        let cmp ← compSlot (s.cte newSlot) (s.cte rootSlot)
        let s ← (match cmp with
          | .gt => do
              let (s, right) ← aaInsert fuel s (s.mdb rootSlot).cdtRight newSlot
              s.setRight rootSlot right
          | .lt => do
              let (s, left) ← aaInsert fuel s (s.mdb rootSlot).cdtLeft newSlot
              s.setLeft rootSlot left
          | .eq => .error .fail)
        let (s, rootSlot) ← aaSkew s rootSlot
        aaSplit s rootSlot

/-- The last slot of the tree at `slot`. -/
def aaPred : Nat → Cdt → Nat → Except KernelFault Nat
  | 0, _, _ => .error .stackDepth
  | fuel + 1, s, slot =>
      let right := (s.mdb slot).cdtRight
      if right = 0 then .ok slot else aaPred fuel s right

/-- The first slot of the tree at `slot`. -/
def aaSucc : Nat → Cdt → Nat → Except KernelFault Nat
  | 0, _, _ => .error .stackDepth
  | fuel + 1, s, slot =>
      let left := (s.mdb slot).cdtLeft
      if left = 0 then .ok slot else aaSucc fuel s left

/-- `aaRemoveNode`, where `remove` is the recursive call of `aaRemove`. -/
def aaRemoveNode (fuel : Nat) (remove : Cdt → Nat → Nat → Except KernelFault (Cdt × Nat)) (s : Cdt)
    (rootSlot : Nat) : Except KernelFault (Cdt × Nat) := do
  let mdb := s.mdb rootSlot
  if mdb.cdtLeft ≠ 0 then
    let pred ← aaPred fuel s mdb.cdtLeft
    let (s, left) ← remove s mdb.cdtLeft pred
    let s := s.setLevel pred mdb.cdtLevel
    let s ← s.setRight pred mdb.cdtRight
    let s ← s.setLeft pred left
    .ok (s, pred)
  else if mdb.cdtRight ≠ 0 then
    let succ ← aaSucc fuel s mdb.cdtRight
    let (s, right) ← remove s mdb.cdtRight succ
    let s := s.setLevel succ mdb.cdtLevel
    let s ← s.setRight succ right
    let s ← s.setLeft succ 0
    .ok (s, succ)
  else .ok (s, 0)

def aaRemove : Nat → Cdt → Nat → Nat → Except KernelFault (Cdt × Nat)
  | 0, _, _, _ => .error .stackDepth
  | fuel + 1, s, rootSlot, targetSlot => do
      if targetSlot = 0 then .error .fail
      else if rootSlot = 0 then .error .fail
      else
        let cmp ← compSlot (s.cte targetSlot) (s.cte rootSlot)
        let (s, rootSlot) ← (match cmp with
          | .gt => do
              let (s, right) ← aaRemove fuel s (s.mdb rootSlot).cdtRight targetSlot
              let s ← s.setRight rootSlot right
              .ok (s, rootSlot)
          | .lt => do
              let (s, left) ← aaRemove fuel s (s.mdb rootSlot).cdtLeft targetSlot
              let s ← s.setLeft rootSlot left
              .ok (s, rootSlot)
          | .eq => aaRemoveNode fuel (aaRemove fuel) s rootSlot)
        aaRebalance s rootSlot

/-! ## The tree in memory -/

/-- An address a capability slot can have: the kernel's slots are 16 bytes each and lie behind the
first address of the last half gigabyte. -/
def IsSlot (slot : Nat) : Prop := 0xE0000000 < slot ∧ slot < 2 ^ 32 ∧ slot % 2 ^ cteSizeBits = 0

instance : DecidablePred IsSlot := fun slot => by unfold IsSlot; infer_instance

theorem IsSlot.ne_zero {slot : Nat} (h : IsSlot slot) : slot ≠ 0 := by
  rintro rfl
  exact absurd h (by decide)

theorem IsSlot.linkOf {slot : Nat} (h : IsSlot slot) :
    slot % 2 ^ 2 = 0 ∧ Kernel.linkOf slot = slot := by
  obtain ⟨hlo, hhi, halign⟩ := h
  rw [cteSizeBits] at halign
  have hbits : slot % 2 ^ 29 / 2 ^ 2 * 2 ^ 2 = slot - 0xE0000000 := by omega
  refine ⟨by omega, ?_⟩
  simp only [Kernel.linkOf, hbits]
  rw [if_neg (by omega)]
  omega

namespace Cdt

variable {s s' s'' : Cdt} {x y : Nat} {f : MdbNode → MdbNode} {xs ys : List Nat}

@[simp] theorem modify_mdb_self : (s.modify x f).mdb x = f (s.mdb x) := Function.update_self ..

theorem modify_mdb_of_ne (h : y ≠ x) : (s.modify x f).mdb y = s.mdb y :=
  Function.update_of_ne h ..

@[simp] theorem modify_cap : (s.modify x f).cap = s.cap := rfl

@[simp] theorem modify_root : (s.modify x f).ksRootCTE = s.ksRootCTE := rfl

/-- What the tree operations leave alone: the nodes of slots outside `xs`, all depths, all
capabilities and the root. -/
structure Rewrites (s s' : Cdt) (xs : List Nat) : Prop where
  frame : ∀ x ∉ xs, s'.mdb x = s.mdb x
  depth : ∀ x, (s'.mdb x).cdtDepth = (s.mdb x).cdtDepth
  cap : s'.cap = s.cap
  root : s'.ksRootCTE = s.ksRootCTE

theorem Rewrites.refl : Rewrites s s xs := ⟨fun _ _ => rfl, fun _ => rfl, rfl, rfl⟩

theorem Rewrites.trans (h : Rewrites s s' xs) (h' : Rewrites s' s'' xs) : Rewrites s s'' xs :=
  ⟨fun x hx => (h'.frame x hx).trans (h.frame x hx), fun x => (h'.depth x).trans (h.depth x),
    h'.cap.trans h.cap, h'.root.trans h.root⟩

theorem Rewrites.mono (h : Rewrites s s' xs) (hsub : ∀ x ∈ xs, x ∈ ys) : Rewrites s s' ys :=
  ⟨fun x hx => h.frame x fun hmem => hx (hsub x hmem), h.depth, h.cap, h.root⟩

theorem rewrites_modify (hx : x ∈ xs) (hf : ∀ n, (f n).cdtDepth = n.cdtDepth) :
    Rewrites s (s.modify x f) xs := by
  refine ⟨fun y hy => modify_mdb_of_ne fun hyx => hy (hyx ▸ hx), fun y => ?_, rfl, rfl⟩
  by_cases hyx : y = x
  · subst hyx
    rw [modify_mdb_self, hf]
  · rw [modify_mdb_of_ne hyx]

theorem Rewrites.cte (h : Rewrites s s' xs) : s'.cte = s.cte := by
  funext x
  rw [Cdt.cte, Cdt.cte, h.cap, h.depth]

theorem Rewrites.key (h : Rewrites s s' xs) : s'.key = s.key := by
  funext x
  rw [Cdt.key, Cdt.key, h.cte]

/-- Two slots never have the same key. -/
theorem key_injective : Function.Injective s.key := fun _ _ h =>
  congrArg (fun k : CteKey => (ofLex (ofLex k).2).2) h

end Cdt

/-- The tree `t` hangs at slot `p`: every node is a slot, with the links and the level the tree has
there. -/
def TreeAt (s : Cdt) : Nat → AATree Nat → Prop
  | p, .nil => p = 0
  | p, .node lv l x r =>
      p = x ∧ IsSlot x ∧ (s.mdb x).cdtLevel = lv ∧ lv < 2 ^ 5 ∧ TreeAt s (s.mdb x).cdtLeft l ∧
        TreeAt s (s.mdb x).cdtRight r

variable {s s' : Cdt} {p : Nat} {t t' : AATree Nat} {xs : List Nat}

theorem TreeAt.congr (h : TreeAt s p t) (hmdb : ∀ x ∈ t.toList, s'.mdb x = s.mdb x) :
    TreeAt s' p t := by
  induction t generalizing p with
  | nil => exact h
  | node lv l x r ihl ihr =>
      obtain ⟨rfl, hslot, hlevel, hlt, hl, hr⟩ := h
      rw [AATree.toList_node] at hmdb
      have hroot : s'.mdb p = s.mdb p :=
        hmdb p (List.mem_append_right _ (List.mem_cons_self ..))
      refine ⟨rfl, hslot, hroot ▸ hlevel, hlt, ?_, ?_⟩
      · rw [hroot]
        exact ihl hl fun y hy => hmdb y (List.mem_append_left _ hy)
      · rw [hroot]
        exact ihr hr fun y hy => hmdb y (List.mem_append_right _ (List.mem_cons_of_mem _ hy))

theorem TreeAt.frame (h : TreeAt s p t) (hs : s.Rewrites s' xs) (hd : ∀ x ∈ t.toList, x ∉ xs) :
    TreeAt s' p t :=
  h.congr fun x hx => hs.frame x (hd x hx)

theorem TreeAt.link (h : TreeAt s p t) : p % 2 ^ 2 = 0 ∧ linkOf p = p := by
  cases t with
  | nil =>
      rw [show p = 0 from h]
      exact ⟨rfl, rfl⟩
  | node lv l x r =>
      obtain ⟨rfl, hslot, -⟩ := h
      exact hslot.linkOf

theorem TreeAt.eq_zero_iff (h : TreeAt s p t) : p = 0 ↔ t = .nil := by
  cases t with
  | nil => exact ⟨fun _ => rfl, fun _ => h⟩
  | node lv l x r =>
      obtain ⟨rfl, hslot, -⟩ := h
      exact ⟨fun h0 => absurd h0 hslot.ne_zero, fun h0 => nomatch h0⟩

theorem TreeAt.aaLevel_eq (h : TreeAt s p t) : aaLevel s p = t.level := by
  cases t with
  | nil =>
      rw [show p = 0 from h]
      rfl
  | node lv l x r =>
      obtain ⟨rfl, hslot, hlevel, -⟩ := h
      rw [aaLevel, if_neg hslot.ne_zero, hlevel, AATree.level_node]

/-- A slot with the links of two trees and a level is a node above them. -/
theorem TreeAt.node {n : MdbNode} {x lv : Nat} {l r : AATree Nat} (hx : IsSlot x) (hlt : lv < 2 ^ 5)
    (hmdb : s.mdb x = n) (hlevel : n.cdtLevel = lv) (hl : TreeAt s n.cdtLeft l)
    (hr : TreeAt s n.cdtRight r) : TreeAt s x (.node lv l x r) := by
  subst hmdb
  exact ⟨rfl, hx, hlevel, hlt, hl, hr⟩

/-- The call returns, the tree `t'` hangs at what it returns, and only the slots `xs` are written
to. -/
def Refines (s : Cdt) (xs : List Nat) (x : Except KernelFault (Cdt × Nat)) (t' : AATree Nat) :
    Prop :=
  ∃ s' p', x = .ok (s', p') ∧ TreeAt s' p' t' ∧ s.Rewrites s' xs

namespace Cdt

variable {slot cte : Nat}

theorem setLeft_eq (h : cte % 2 ^ 2 = 0 ∧ linkOf cte = cte) :
    s.setLeft slot cte = .ok (s.modify slot fun n => { n with cdtLeft := cte }) := by
  rw [setLeft, if_pos h.1, h.2]

theorem setRight_eq (h : cte % 2 ^ 2 = 0 ∧ linkOf cte = cte) :
    s.setRight slot cte = .ok (s.modify slot fun n => { n with cdtRight := cte }) := by
  rw [setRight, if_pos h.1, h.2]

theorem setLevel_eq {level : Nat} (h : level < 2 ^ 5) :
    s.setLevel slot level = s.modify slot fun n => { n with cdtLevel := level } := by
  rw [setLevel, Nat.mod_eq_of_lt h]

end Cdt

open Cdt

/-! ## Skew and split -/

section Node

variable {lv : Nat} {l r : AATree Nat} {x : Nat}

theorem nodup_node (h : (AATree.node lv l x r).toList.Nodup) :
    l.toList.Nodup ∧ r.toList.Nodup ∧ x ∉ l.toList ∧ x ∉ r.toList ∧
      ∀ y ∈ l.toList, y ∉ r.toList := by
  rw [AATree.toList_node, List.nodup_append, List.nodup_cons] at h
  obtain ⟨hl, ⟨hxr, hr⟩, hdisj⟩ := h
  exact ⟨hl, hr, fun hx => hdisj x hx x (List.mem_cons_self ..) rfl, hxr,
    fun y hy hyr => hdisj y hy y (List.mem_cons_of_mem _ hyr) rfl⟩

theorem node_nodup (hl : l.toList.Nodup) (hr : r.toList.Nodup) (hxl : x ∉ l.toList)
    (hxr : x ∉ r.toList) (hdisj : ∀ y ∈ l.toList, y ∉ r.toList) :
    (AATree.node lv l x r).toList.Nodup := by
  rw [AATree.toList_node, List.nodup_append, List.nodup_cons]
  refine ⟨hl, ⟨hxr, hr⟩, fun y hy z hz hyz => ?_⟩
  subst hyz
  rcases List.mem_cons.mp hz with rfl | hz
  · exact hxl hy
  · exact hdisj y hy hz

theorem mem_node {y : Nat} :
    y ∈ (AATree.node lv l x r).toList ↔ y ∈ l.toList ∨ y = x ∨ y ∈ r.toList := by
  rw [AATree.toList_node, List.mem_append, List.mem_cons]

end Node

theorem aaSkew_refines (h : TreeAt s p t) (hn : t.toList.Nodup) :
    Refines s t.toList (aaSkew s p) t.skew := by
  cases t with
  | nil =>
      rw [show p = 0 from h]
      exact ⟨s, 0, rfl, rfl, .refl⟩
  | node lv l a r =>
      obtain ⟨rfl, ha, hlevel, hlt, hl, hr⟩ := id h
      rw [aaSkew, if_neg ha.ne_zero]
      cases l with
      | nil =>
          rw [if_neg fun hleft => hleft.1 (show (s.mdb p).cdtLeft = 0 from hl)]
          exact ⟨s, p, rfl, h, .refl⟩
      | node lvl ll b lr =>
          obtain ⟨hpb, hb, hlevelb, hltb, hll, hlr⟩ := id hl
          dsimp only
          rw [hpb, hlevelb, hlevel, AATree.skew]
          by_cases hsame : lvl = lv
          · obtain ⟨hnl, hnr, hal, har, hdisj⟩ := nodup_node hn
            obtain ⟨-, -, hbll, hblr, hlllr⟩ := nodup_node hnl
            rw [mem_node, not_or, not_or] at hal
            obtain ⟨hall, hab, halr⟩ := hal
            have hbr : b ∉ r.toList := hdisj b (mem_node.mpr (.inr (.inl rfl)))
            rw [if_pos ⟨hb.ne_zero, hsame⟩, if_pos hsame, setLeft_eq hlr.link]
            simp only [bind, Except.bind]
            rw [setRight_eq ha.linkOf]
            set s₁ := s.modify p fun n => { n with cdtLeft := (s.mdb b).cdtRight } with hs₁
            set s₂ := s₁.modify b fun n => { n with cdtRight := p } with hs₂
            have hmdba : s₂.mdb p = { s.mdb p with cdtLeft := (s.mdb b).cdtRight } := by
              rw [hs₂, modify_mdb_of_ne hab, hs₁, modify_mdb_self]
            have hmdbb : s₂.mdb b = { s.mdb b with cdtRight := p } := by
              rw [hs₂, modify_mdb_self, hs₁, modify_mdb_of_ne (Ne.symm hab)]
            have hrw₁ : s.Rewrites s₁ [p, b] := rewrites_modify (by simp) fun _ => rfl
            have hrw : s.Rewrites s₂ [p, b] :=
              hrw₁.trans (rewrites_modify (by simp) fun _ => rfl)
            have hframe : ∀ {q u}, TreeAt s q u → p ∉ u.toList → b ∉ u.toList → TreeAt s₂ q u :=
              fun hu hpu hbu => hu.frame hrw fun y hy hmem => by
                rcases List.mem_pair.mp hmem with rfl | rfl
                · exact hpu hy
                · exact hbu hy
            refine ⟨s₂, b, rfl, ?_, hrw.mono fun y hy => ?_⟩
            · refine .node hb hltb hmdbb hlevelb (hframe hll hall hbll) ?_
              exact .node ha hlt hmdba hlevel (hframe hlr halr hblr) (hframe hr har hbr)
            · rcases List.mem_pair.mp hy with rfl | rfl
              · exact mem_node.mpr (.inr (.inl rfl))
              · exact mem_node.mpr (.inl (mem_node.mpr (.inr (.inl rfl))))
          · rw [if_neg fun hcond => hsame hcond.2, if_neg hsame]
            exact ⟨s, p, rfl, h, .refl⟩

theorem aaSplit_refines (h : TreeAt s p t) (hn : t.toList.Nodup) (hlevel : t.split.level < 2 ^ 5) :
    Refines s t.toList (aaSplit s p) t.split := by
  cases t with
  | nil =>
      rw [show p = 0 from h]
      exact ⟨s, 0, rfl, rfl, .refl⟩
  | node lv l a r =>
      obtain ⟨rfl, ha, hlv, hlt, hl, hr⟩ := id h
      rw [aaSplit, if_neg ha.ne_zero]
      cases r with
      | nil =>
          rw [if_neg fun hright => hright.1 (show (s.mdb p).cdtRight = 0 from hr)]
          exact ⟨s, p, rfl, h, .refl⟩
      | node lvr rl b rr =>
          obtain ⟨hpb, hb, hlvr, hltb, hrl, hrr⟩ := id hr
          dsimp only
          rw [hpb]
          cases rr with
          | nil =>
              rw [if_neg fun hright => hright.2.1 (show (s.mdb b).cdtRight = 0 from hrr)]
              exact ⟨s, p, rfl, h, .refl⟩
          | node lvx x c y =>
              obtain ⟨hpc, hc, hlvx, -⟩ := id hrr
              rw [hpc, hlvx, hlv]
              rw [AATree.split] at hlevel ⊢
              by_cases hsame : lv = lvx
              · obtain ⟨hnl, hnr, hal, har, hdisj⟩ := nodup_node hn
                obtain ⟨-, -, hbrl, hbrr, hrlrr⟩ := nodup_node hnr
                rw [mem_node, not_or, not_or] at har
                obtain ⟨harl, hab, harr⟩ := har
                have hbl : b ∉ l.toList := fun hbl =>
                  hdisj b hbl (mem_node.mpr (.inr (.inl rfl)))
                rw [if_pos hsame, AATree.level_node] at hlevel
                rw [if_pos ⟨hb.ne_zero, hc.ne_zero, hsame⟩, if_pos hsame, setRight_eq hrl.link]
                simp only [bind, Except.bind]
                rw [modify_mdb_of_ne (Ne.symm hab), hlvr, setLevel_eq hlevel, modify_mdb_self,
                  if_pos rfl, setLeft_eq ha.linkOf]
                set s₁ := s.modify p fun n => { n with cdtRight := (s.mdb b).cdtLeft } with hs₁
                set s₂ := s₁.modify b fun n => { n with cdtLevel := lvr + 1 } with hs₂
                set s₃ := s₂.modify b fun n => { n with cdtLeft := p } with hs₃
                have hmdba : s₃.mdb p = { s.mdb p with cdtRight := (s.mdb b).cdtLeft } := by
                  rw [hs₃, modify_mdb_of_ne hab, hs₂, modify_mdb_of_ne hab, hs₁, modify_mdb_self]
                have hmdbb : s₃.mdb b = { s.mdb b with cdtLevel := lvr + 1, cdtLeft := p } := by
                  rw [hs₃, modify_mdb_self, hs₂, modify_mdb_self, hs₁,
                    modify_mdb_of_ne (Ne.symm hab)]
                have hrw₁ : s.Rewrites s₁ [p, b] := rewrites_modify (by simp) fun _ => rfl
                have hrw₂ : s.Rewrites s₂ [p, b] :=
                  hrw₁.trans (rewrites_modify (by simp) fun _ => rfl)
                have hrw : s.Rewrites s₃ [p, b] :=
                  hrw₂.trans (rewrites_modify (by simp) fun _ => rfl)
                have hframe : ∀ {q u}, TreeAt s q u → p ∉ u.toList → b ∉ u.toList →
                    TreeAt s₃ q u :=
                  fun hu hpu hbu => hu.frame hrw fun y hy hmem => by
                    rcases List.mem_pair.mp hmem with rfl | rfl
                    · exact hpu hy
                    · exact hbu hy
                refine ⟨s₃, b, rfl, ?_, hrw.mono fun y hy => ?_⟩
                · refine .node hb hlevel hmdbb rfl ?_ (hframe hrr harr hbrr)
                  exact .node ha hlt hmdba hlv (hframe hl hal hbl) (hframe hrl harl hbrl)
                · rcases List.mem_pair.mp hy with rfl | rfl
                  · exact mem_node.mpr (.inr (.inl rfl))
                  · exact mem_node.mpr (.inr (.inr (mem_node.mpr (.inr (.inl rfl)))))
              · rw [if_neg fun hcond => hsame hcond.2.2, if_neg hsame]
                exact ⟨s, p, rfl, h, .refl⟩

/-! ## Rebalancing -/

section Subtrees

variable {lv q a : Nat} {l r r' l' : AATree Nat} {ys : List Nat}

/-- A node whose right subtree has been rewritten gets the link to what is there now. -/
theorem TreeAt.setRight (h : TreeAt s a (.node lv l a r)) (hal : a ∉ l.toList)
    (hs : s.Rewrites s' ys) (hay : a ∉ ys) (hly : ∀ y ∈ l.toList, y ∉ ys)
    (hr' : TreeAt s' q r') (har' : a ∉ r'.toList) :
    ∃ s'', s'.setRight a q = .ok s'' ∧ TreeAt s'' a (.node lv l a r') ∧ (s''.mdb a).cdtRight = q ∧
      s.Rewrites s'' (a :: ys) := by
  obtain ⟨-, ha, hlevel, hlt, hl, -⟩ := h
  rw [setRight_eq hr'.link]
  set s'' := s'.modify a fun n => { n with cdtRight := q } with hs''
  have hmdb : s''.mdb a = { s.mdb a with cdtRight := q } := by
    rw [hs'', modify_mdb_self, hs.frame a hay]
  have hlast : s'.Rewrites s'' [a] := rewrites_modify (List.mem_singleton_self a) fun _ => rfl
  have hrw : s.Rewrites s'' (a :: ys) :=
    (hs.mono fun y hy => List.mem_cons_of_mem a hy).trans (hlast.mono fun y hy => by simp_all)
  refine ⟨s'', rfl, .node ha hlt hmdb hlevel ?_ ?_, by rw [hmdb], hrw⟩
  · refine hl.frame hrw fun y hy hmem => ?_
    rcases List.mem_cons.mp hmem with rfl | hmem
    · exact hal hy
    · exact hly y hy hmem
  · exact hr'.frame hlast fun y hy hmem => har' (List.mem_singleton.mp hmem ▸ hy)

/-- A node whose left subtree has been rewritten gets the link to what is there now. -/
theorem TreeAt.setLeft (h : TreeAt s a (.node lv l a r)) (har : a ∉ r.toList)
    (hs : s.Rewrites s' ys) (hay : a ∉ ys) (hry : ∀ y ∈ r.toList, y ∉ ys)
    (hl' : TreeAt s' q l') (hal' : a ∉ l'.toList) :
    ∃ s'', s'.setLeft a q = .ok s'' ∧ TreeAt s'' a (.node lv l' a r) ∧
      s.Rewrites s'' (a :: ys) := by
  obtain ⟨-, ha, hlevel, hlt, -, hr⟩ := h
  rw [setLeft_eq hl'.link]
  set s'' := s'.modify a fun n => { n with cdtLeft := q } with hs''
  have hmdb : s''.mdb a = { s.mdb a with cdtLeft := q } := by
    rw [hs'', modify_mdb_self, hs.frame a hay]
  have hlast : s'.Rewrites s'' [a] := rewrites_modify (List.mem_singleton_self a) fun _ => rfl
  have hrw : s.Rewrites s'' (a :: ys) :=
    (hs.mono fun y hy => List.mem_cons_of_mem a hy).trans (hlast.mono fun y hy => by simp_all)
  refine ⟨s'', rfl, .node ha hlt hmdb hlevel ?_ ?_, hrw⟩
  · exact hl'.frame hlast fun y hy hmem => hal' (List.mem_singleton.mp hmem ▸ hy)
  · refine hr.frame hrw fun y hy hmem => ?_
    rcases List.mem_cons.mp hmem with rfl | hmem
    · exact har hy
    · exact hry y hy hmem

/-- A repair of the right subtree, with the link to it set. -/
theorem refines_right {f : Cdt → Nat → Except KernelFault (Cdt × Nat)}
    (h : TreeAt s a (.node lv l a r)) (hn : (AATree.node lv l a r).toList.Nodup)
    (hf : ∀ q, TreeAt s q r → Refines s r.toList (f s q) r') (hr' : r'.toList = r.toList) :
    ∃ s₁ q s₂, f s (s.mdb a).cdtRight = .ok (s₁, q) ∧ s₁.setRight a q = .ok s₂ ∧
      TreeAt s₂ a (.node lv l a r') ∧ (s₂.mdb a).cdtRight = q ∧ (q = 0 ↔ r' = .nil) ∧
      s.Rewrites s₂ (AATree.node lv l a r).toList := by
  obtain ⟨-, -, hal, har, hdisj⟩ := nodup_node hn
  obtain ⟨s₁, q, hcall, hrepr, hrw⟩ := hf _ h.2.2.2.2.2
  obtain ⟨s₂, hset, hrepr', hlink, hrw'⟩ := h.setRight hal hrw har hdisj hrepr (hr' ▸ har)
  refine ⟨s₁, q, s₂, hcall, hset, hrepr', hlink, hrepr.eq_zero_iff, hrw'.mono fun y hy => ?_⟩
  rcases List.mem_cons.mp hy with rfl | hy
  · exact mem_node.mpr (.inr (.inl rfl))
  · exact mem_node.mpr (.inr (.inr hy))

end Subtrees

theorem aaDecLevel_refines (h : TreeAt s p t) (hn : t.toList.Nodup) :
    TreeAt (aaDecLevel s p).1 (aaDecLevel s p).2 t.decLevel ∧
      s.Rewrites (aaDecLevel s p).1 t.toList := by
  cases t with
  | nil =>
      rw [show p = 0 from h]
      exact ⟨rfl, .refl⟩
  | node lv l a r =>
      obtain ⟨rfl, ha, hlevel, hlt, hl, hr⟩ := id h
      obtain ⟨-, -, hal, har, hdisj⟩ := nodup_node hn
      unfold aaDecLevel AATree.decLevel
      rw [if_neg ha.ne_zero]
      dsimp only
      rw [hl.aaLevel_eq, hr.aaLevel_eq, hlevel]
      set shouldBe := min l.level r.level + 1 with hshould
      by_cases hlow : shouldBe < lv
      · rw [if_pos hlow, if_pos hlow]
        have hsb : shouldBe < 2 ^ 5 := hlow.trans hlt
        have hmem : p ∈ (AATree.node lv l p r).toList := mem_node.mpr (.inr (.inl rfl))
        rw [setLevel_eq hsb]
        set s₁ := s.modify p fun n => { n with cdtLevel := shouldBe } with hs₁
        have hrw₁ : s.Rewrites s₁ [p] := rewrites_modify (List.mem_singleton_self p) fun _ => rfl
        have hmdb₁ : s₁.mdb p = { s.mdb p with cdtLevel := shouldBe } := by
          rw [hs₁, modify_mdb_self]
        have hsub : ∀ y ∈ [p], y ∈ (AATree.node lv l p r).toList := fun y hy =>
          List.mem_singleton.mp hy ▸ hmem
        have hl₁ : TreeAt s₁ (s.mdb p).cdtLeft l :=
          hl.frame hrw₁ fun y hy hy' => hal (List.mem_singleton.mp hy' ▸ hy)
        have hr₁ : TreeAt s₁ (s.mdb p).cdtRight r :=
          hr.frame hrw₁ fun y hy hy' => har (List.mem_singleton.mp hy' ▸ hy)
        cases r with
        | nil =>
            rw [if_neg fun hright => hright.1 (show (s.mdb p).cdtRight = 0 from hr)]
            exact ⟨.node ha hsb hmdb₁ rfl hl₁ hr₁, hrw₁.mono hsub⟩
        | node lvr rl b rr =>
            obtain ⟨hpb, hb, hlvr, hltb, hrl, hrr⟩ := id hr₁
            obtain ⟨hnl, hnr, -⟩ := nodup_node hn
            obtain ⟨-, -, hbrl, hbrr, -⟩ := nodup_node hnr
            rw [mem_node, not_or, not_or] at har
            obtain ⟨harl, hab, harr⟩ := har
            rw [hpb, hlvr]
            by_cases hright : shouldBe < lvr
            · rw [if_pos ⟨hb.ne_zero, hright⟩]
              dsimp only
              rw [if_pos hright, setLevel_eq hsb]
              set s₂ := s₁.modify b fun n => { n with cdtLevel := shouldBe } with hs₂
              have hrw₂ : s₁.Rewrites s₂ [b] :=
                rewrites_modify (List.mem_singleton_self b) fun _ => rfl
              have hmdb₂ : s₂.mdb p = { s.mdb p with cdtLevel := shouldBe } := by
                rw [hs₂, modify_mdb_of_ne hab, hmdb₁]
              have hmdbb : s₂.mdb b = { s₁.mdb b with cdtLevel := shouldBe } := by
                rw [hs₂, modify_mdb_self]
              have hframe : ∀ {q u}, TreeAt s₁ q u → b ∉ u.toList → TreeAt s₂ q u := fun hu hbu =>
                hu.frame hrw₂ fun y hy hy' => hbu (List.mem_singleton.mp hy' ▸ hy)
              have hbl : b ∉ l.toList := fun hbl => hdisj b hbl (mem_node.mpr (.inr (.inl rfl)))
              refine ⟨.node ha hsb hmdb₂ rfl (hframe hl₁ hbl) ?_, ?_⟩
              · rw [hpb]
                exact .node hb hsb hmdbb rfl (hframe hrl hbrl) (hframe hrr hbrr)
              · refine (hrw₁.mono hsub).trans (hrw₂.mono fun y hy => ?_)
                rw [List.mem_singleton.mp hy]
                exact mem_node.mpr (.inr (.inr (mem_node.mpr (.inr (.inl rfl)))))
            · rw [if_neg fun hcond => hright hcond.2]
              dsimp only
              rw [if_neg hright]
              exact ⟨.node ha hsb hmdb₁ rfl hl₁ hr₁, hrw₁.mono hsub⟩
      · rw [if_neg hlow, if_neg hlow]
        exact ⟨h, .refl⟩

theorem TreeAt.exists_node (h : TreeAt s p t) (hp : p ≠ 0) : ∃ lv l r, t = .node lv l p r := by
  cases t with
  | nil => exact absurd h hp
  | node lv l x r => exact ⟨lv, l, r, by rw [h.1]⟩

/-- The right subtree of a node changes, and the link to it stays. -/
theorem TreeAt.right {lv : Nat} {l r r' : AATree Nat} (h : TreeAt s p (.node lv l p r))
    (hn : (AATree.node lv l p r).toList.Nodup) (hs : s.Rewrites s' r.toList)
    (hr' : TreeAt s' (s.mdb p).cdtRight r') : TreeAt s' p (.node lv l p r') := by
  obtain ⟨-, hp, hlevel, hlt, hl, -⟩ := h
  obtain ⟨-, -, -, hpr, hdisj⟩ := nodup_node hn
  exact .node hp hlt (hs.frame p hpr) hlevel (hl.frame hs hdisj) hr'

/-- The second half of a rebalancing: the node is split, and then its right child. -/
theorem splits_refine (h : TreeAt s p t) (hn : t.toList.Nodup)
    (hinv : (AATree.mapRight AATree.split t.split).Inv)
    (hlevel : (AATree.mapRight AATree.split t.split).level < 2 ^ 5) (hp : p ≠ 0) :
    Refines s t.toList (do
      let (s, slot) ← aaSplit s p
      let (s, right) ← aaSplit s (s.mdb slot).cdtRight
      let s ← s.setRight slot right
      .ok (s, slot)) (AATree.mapRight AATree.split t.split) := by
  have hroot : t.split.level < 2 ^ 5 := by
    cases hs : t.split with
    | nil => exact Nat.two_pow_pos 5
    | node lv l x r =>
        rw [hs] at hlevel
        exact hlevel
  obtain ⟨s₁, p₁, hsplit, hrepr, hrw⟩ := aaSplit_refines h hn hroot
  have hn₁ : t.split.toList.Nodup := by rwa [AATree.toList_split]
  have hlist : t.split.toList = t.toList := AATree.toList_split t
  have hp₁ : p₁ ≠ 0 := by
    intro h0
    rw [hrepr.eq_zero_iff.mp h0] at hlist
    cases t with
    | nil => exact hp h
    | node => simp at hlist
  obtain ⟨lv, l, r, ht⟩ := hrepr.exists_node hp₁
  rw [ht] at hrepr hn₁ hlist hinv ⊢
  obtain ⟨-, hnr, -⟩ := nodup_node hn₁
  have hright : r.split.level < 2 ^ 5 := by
    obtain ⟨-, -, -, hlvr⟩ := hinv
    rw [ht] at hroot
    have hlt : lv < 2 ^ 5 := hroot
    omega
  obtain ⟨s₂, q, s₃, hcall, hset, hrepr₃, -, -, hrw₃⟩ := refines_right hrepr hn₁
    (fun q hq => aaSplit_refines hq hnr hright) (AATree.toList_split r)
  rw [hlist] at hrw₃
  refine ⟨s₃, p₁, ?_, hrepr₃, hrw.trans hrw₃⟩
  rw [hsplit]
  simp only [bind, Except.bind]
  rw [hcall]
  dsimp only
  rw [hset]

theorem aaRebalance_refines (h : TreeAt s p t) (hn : t.toList.Nodup) (hinv : t.rebalance.Inv)
    (hlevel : t.rebalance.level < 2 ^ 5) :
    Refines s t.toList (aaRebalance s p) t.rebalance := by
  by_cases hp : p = 0
  · rw [h.eq_zero_iff.mp hp, hp]
    exact ⟨s, 0, rfl, rfl, .refl⟩
  rw [aaRebalance, if_neg hp]
  obtain ⟨hdec, hrw₁⟩ := aaDecLevel_refines h hn
  generalize aaDecLevel s p = x₁ at hdec hrw₁
  obtain ⟨s₁, p₁⟩ := x₁
  rw [AATree.rebalance] at hinv hlevel ⊢
  have hn₁ : t.decLevel.toList.Nodup := by rwa [AATree.toList_decLevel]
  obtain ⟨s₂, p₂, hskew, hrepr₂, hrw₂⟩ := aaSkew_refines hdec hn₁
  have hn₂ : t.decLevel.skew.toList.Nodup := by rwa [AATree.toList_skew]
  have hlist₂ : t.decLevel.skew.toList = t.toList := by
    rw [AATree.toList_skew, AATree.toList_decLevel]
  rw [AATree.toList_decLevel] at hrw₂
  have hp₂ : p₂ ≠ 0 := by
    intro h0
    rw [hrepr₂.eq_zero_iff.mp h0] at hlist₂
    cases t with
    | nil => exact hp h
    | node => simp at hlist₂
  obtain ⟨lv, l, r, ht₂⟩ := hrepr₂.exists_node hp₂
  rw [ht₂] at hrepr₂ hn₂ hlist₂ hinv hlevel ⊢
  obtain ⟨-, hnr, -⟩ := nodup_node hn₂
  obtain ⟨s₃, q, s₄, hcall, hset, hrepr₄, hlink, hq, hrw₄⟩ := refines_right hrepr₂ hn₂
    (fun q hq => aaSkew_refines hq hnr) (AATree.toList_skew r)
  have hnr' : r.skew.toList.Nodup := by rwa [AATree.toList_skew]
  have hn₄ : (AATree.node lv l p₂ r.skew).toList.Nodup := by
    rwa [AATree.toList_node, AATree.toList_skew, ← AATree.toList_node lv]
  -- the right child is skewed as well, if there is one
  obtain ⟨s₅, hcall₅, hrepr₅, hrw₅⟩ : ∃ s₅, (if q ≠ 0 then do
        let (s, rightRight) ← aaSkew s₄ (s₄.mdb q).cdtRight
        s.setRight q rightRight
      else .ok s₄) = Except.ok s₅ ∧
      TreeAt s₅ p₂ (.node lv l p₂ (AATree.mapRight AATree.skew r.skew)) ∧
      s₄.Rewrites s₅ t.toList := by
    by_cases h0 : q = 0
    · refine ⟨s₄, if_neg (not_not.mpr h0), ?_, .refl⟩
      have hnil := hq.mp h0
      rw [hnil] at hrepr₄ ⊢
      exact hrepr₄
    · have hrepr' : TreeAt s₄ q r.skew := by
        rw [← hlink]
        exact hrepr₄.2.2.2.2.2
      obtain ⟨lvr, rl, rr, hr⟩ := hrepr'.exists_node h0
      rw [hr] at hrepr' hnr'
      obtain ⟨s₆, q', s₅, hcall', hset', hrepr₅, -, -, hrw₅⟩ := refines_right hrepr' hnr'
        (fun q hq => aaSkew_refines hq (nodup_node hnr').2.1) (AATree.toList_skew rr)
      rw [← hr] at hrw₅
      refine ⟨s₅, ?_, ?_, hrw₅.mono fun y hy => ?_⟩
      · rw [if_pos h0, hcall']
        exact hset'
      · refine hrepr₄.right hn₄ hrw₅ ?_
        rw [hlink, hr]
        exact hrepr₅
      · rw [← hlist₂]
        rw [AATree.toList_skew] at hy
        exact mem_node.mpr (.inr (.inr hy))
  rw [hlist₂] at hrw₄
  have hlist₅ : (AATree.node lv l p₂ (AATree.mapRight AATree.skew r.skew)).toList = t.toList := by
    rw [← hlist₂, AATree.toList_node, AATree.toList_mapRight AATree.toList_skew,
      AATree.toList_skew, AATree.toList_node]
  obtain ⟨s₇, p₇, hcall₇, hrepr₇, hrw₇⟩ := splits_refine hrepr₅ (hlist₅ ▸ hn) hinv hlevel hp₂
  rw [hlist₅] at hrw₇
  refine ⟨s₇, p₇, ?_, hrepr₇, (((hrw₁.trans hrw₂).trans hrw₄).trans hrw₅).trans hrw₇⟩
  rw [← hcall₇]
  dsimp only
  rw [hskew]
  simp only [bind, Except.bind] at hcall hset hcall₅ ⊢
  rw [hcall]
  dsimp only
  rw [hset]
  dsimp only
  rw [hcall₅]

end PartitionSeL4.Kernel
