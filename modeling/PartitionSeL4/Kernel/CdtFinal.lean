import PartitionSeL4.Kernel.CdtRun

/-!
# The last capability of an object

A capability is *final* when no other one stands for the same object; only then may deleting it
take the object apart. `cdtIsFinal` looks at the neighbours of the slot alone. It finds them with
`aaTraverseForward` and `aaTraverseBackward`, which have no link to the parent and search for it
from the root at every step of the way up.

`aaTraverseForward_eq` and `aaTraverseBackward_eq` say that they reach the neighbours, and
`cdtIsFinal_iff` that the neighbours are enough: the capabilities of an object stand together in the
order of the tree.
-/

namespace PartitionSeL4.Kernel

open Lib Cdt

/-! ## The neighbours -/

/-- The descent of `aaParent` from `next`, with `current` above it. -/
def aaParentFrom : Nat → Cdt → Nat → Nat → Nat → Except KernelFault Nat
  | 0, _, _, _, _ => .error .stackDepth
  | fuel + 1, s, slot, current, next => do
      if next = slot then .ok current
      else if next = 0 then .error .nullPointer
      else
        match ← compSlot (s.cte next) (s.cte slot) with
        | .lt => aaParentFrom fuel s slot next (s.mdb next).cdtRight
        | .gt => aaParentFrom fuel s slot next (s.mdb next).cdtLeft
        | .eq => .ok next

def aaParent (s : Cdt) (slot : Nat) : Except KernelFault Nat :=
  aaParentFrom maxStackDepth s slot 0 s.ksRootCTE

/-- The way up of the traversals: to the first ancestor that `slot` is not on the side `side` of. -/
def aaClimb (side : MdbNode → Nat) : Nat → Cdt → Nat → Except KernelFault Nat
  | 0, _, _ => .error .stackDepth
  | fuel + 1, s, slot => do
      let parent ← aaParent s slot
      if parent ≠ 0 ∧ side (s.mdb parent) ≠ slot then aaClimb side fuel s parent
      else .ok parent

def aaTraverseBackward (s : Cdt) (slot : Nat) : Except KernelFault Nat :=
  let left := (s.mdb slot).cdtLeft
  if left ≠ 0 then aaPred maxStackDepth s left
  else aaClimb MdbNode.cdtRight maxStackDepth s slot

def aaTraverseForward (s : Cdt) (slot : Nat) : Except KernelFault Nat :=
  let right := (s.mdb slot).cdtRight
  if right ≠ 0 then aaSucc maxStackDepth s right
  else aaClimb MdbNode.cdtLeft maxStackDepth s slot

variable {s : Cdt} {t u w : AATree Nat} {p x : Nat}

theorem TreeAt.sub (h : TreeAt s p t) {lv : Nat} {l r : AATree Nat}
    (hsub : (AATree.node lv l x r).Sub t) : TreeAt s x (.node lv l x r) := by
  induction hsub generalizing p with
  | refl =>
      obtain ⟨rfl, hrest⟩ := h
      exact ⟨rfl, hrest⟩
  | left _ ih => exact ih h.2.2.2.2.1
  | right _ ih => exact ih h.2.2.2.2.2

theorem TreeAt.root {lv : Nat} {l r : AATree Nat} (h : TreeAt s p (.node lv l x r)) : p = x := h.1

theorem aaParentFrom_eq {fuel lv : Nat} {l r : AATree Nat} {current : Nat} (h : TreeAt s p w)
    (ho : w.Ordered s.key)
    (hcmp : ∀ y ∈ w.toList, ∀ z ∈ w.toList,
      compSlot (s.cte y) (s.cte z) = .ok (compare (s.key y) (s.key z)))
    (hsub : (AATree.node lv l x r).Sub w) (hfuel : w.height ≤ fuel) :
    (.node lv l x r = w ∧ aaParentFrom fuel s x current p = .ok current) ∨
      ∃ lv' l' a r', (AATree.node lv' l' a r').Sub w ∧
        (.node lv l x r = l' ∨ .node lv l x r = r') ∧ aaParentFrom fuel s x current p = .ok a := by
  induction hsub generalizing p fuel current with
  | refl =>
      obtain ⟨fuel, rfl⟩ := Nat.exists_eq_succ_of_ne_zero
        (Nat.ne_zero_of_lt (lt_of_lt_of_le (Nat.succ_pos _) hfuel))
      refine .inl ⟨rfl, ?_⟩
      rw [aaParentFrom, if_pos h.root]
  | @left lvw wl wr a hsubl ih =>
      obtain ⟨fuel, rfl⟩ := Nat.exists_eq_succ_of_ne_zero
        (Nat.ne_zero_of_lt (lt_of_lt_of_le (Nat.succ_pos _) hfuel))
      obtain ⟨hl, hr, hla, har⟩ := AATree.ordered_node.mp ho
      obtain ⟨rfl, hp, -, -, htl, -⟩ := h
      have hxl : x ∈ wl.toList := hsubl.mem (mem_node.mpr (.inr (.inl rfl)))
      have hmem : ∀ y ∈ wl.toList, y ∈ (AATree.node lvw wl p wr).toList := fun y hy =>
        mem_node.mpr (.inl hy)
      have hlt := hla x hxl
      have hne : p ≠ x := fun hpx => absurd hlt (by rw [hpx]; exact lt_irrefl _)
      rw [AATree.height] at hfuel
      have hfuell : wl.height ≤ fuel := by omega
      have hstep : aaParentFrom (fuel + 1) s x current p =
          aaParentFrom fuel s x p (s.mdb p).cdtLeft := by
        rw [aaParentFrom, if_neg hne, if_neg hp.ne_zero,
          hcmp p (mem_node.mpr (.inr (.inl rfl))) x (hmem x hxl), compare_gt_iff_gt.mpr hlt]
        rfl
      rw [hstep]
      refine .inr ?_
      rcases ih htl hl (fun y hy z hz => hcmp y (hmem y hy) z (hmem z hz)) hfuell with
        ⟨heq, hcall⟩ | ⟨lv', l', a, r', hsub', hside, hcall⟩
      · exact ⟨lvw, wl, p, wr, .refl, .inl heq, hcall⟩
      · exact ⟨lv', l', a, r', hsub'.left, hside, hcall⟩
  | @right lvw wl wr a hsubr ih =>
      obtain ⟨fuel, rfl⟩ := Nat.exists_eq_succ_of_ne_zero
        (Nat.ne_zero_of_lt (lt_of_lt_of_le (Nat.succ_pos _) hfuel))
      obtain ⟨hl, hr, hla, har⟩ := AATree.ordered_node.mp ho
      obtain ⟨rfl, hp, -, -, -, htr⟩ := h
      have hxr : x ∈ wr.toList := hsubr.mem (mem_node.mpr (.inr (.inl rfl)))
      have hmem : ∀ y ∈ wr.toList, y ∈ (AATree.node lvw wl p wr).toList := fun y hy =>
        mem_node.mpr (.inr (.inr hy))
      have hlt := har x hxr
      have hne : p ≠ x := fun hpx => absurd hlt (by rw [hpx]; exact lt_irrefl _)
      rw [AATree.height] at hfuel
      have hfuelr : wr.height ≤ fuel := by omega
      have hstep : aaParentFrom (fuel + 1) s x current p =
          aaParentFrom fuel s x p (s.mdb p).cdtRight := by
        rw [aaParentFrom, if_neg hne, if_neg hp.ne_zero,
          hcmp p (mem_node.mpr (.inr (.inl rfl))) x (hmem x hxr), compare_lt_iff_lt.mpr hlt]
        rfl
      rw [hstep]
      refine .inr ?_
      rcases ih htr hr (fun y hy z hz => hcmp y (hmem y hy) z (hmem z hz)) hfuelr with
        ⟨heq, hcall⟩ | ⟨lv', l', a, r', hsub', hside, hcall⟩
      · exact ⟨lvw, wl, p, wr, .refl, .inr heq, hcall⟩
      · exact ⟨lv', l', a, r', hsub'.right, hside, hcall⟩

namespace Tracks

theorem aaParent_eq (h : Tracks s t) {lv : Nat} {l r : AATree Nat}
    (hsub : (AATree.node lv l x r).Sub t) :
    (.node lv l x r = t ∧ aaParent s x = .ok 0) ∨
      ∃ lv' l' a r', (AATree.node lv' l' a r').Sub t ∧
        (.node lv l x r = l' ∨ .node lv l x r = r') ∧ aaParent s x = .ok a :=
  aaParentFrom_eq h.tree h.ordered
    (fun y hy _ hz => h.compSlot_eq (h.caps y hy) hz (h.agree y hy _ hz)) hsub h.height_lt.le

theorem left_ne_right (h : Tracks s t) {lv : Nat} {l r : AATree Nat} {a : Nat}
    (hsub : (AATree.node lv l a r).Sub t) (hl : x ∈ l.toList) : x ∉ r.toList := by
  obtain ⟨pre, post, ht⟩ := hsub.toList
  have hn : (AATree.node lv l a r).toList.Nodup := by
    have := h.nodup
    rw [ht] at this
    exact (List.nodup_append.mp (List.nodup_append.mp this).1).2.1
  exact (nodup_node hn).2.2.2.2 x hl

theorem aaClimb_left (h : Tracks s t) (fuel : Nat) {lv : Nat} {l r : AATree Nat}
    (hsub : (AATree.node lv l x r).Sub t)
    (hfuel : t.height < fuel + (AATree.node lv l x r).height) :
    ∃ pre post, t.toList = pre ++ (AATree.node lv l x r).toList ++ post ∧
      aaClimb MdbNode.cdtLeft fuel s x = .ok (post.head?.getD 0) := by
  induction fuel generalizing lv l x r with
  | zero => exact absurd hsub.height_le (by omega)
  | succ fuel ih =>
      rw [aaClimb]
      rcases h.aaParent_eq hsub with ⟨heq, hparent⟩ | ⟨lv', l', a, r', hsub', hside, hparent⟩
      · refine ⟨[], [], by rw [heq]; simp, ?_⟩
        rw [hparent]
        rfl
      · obtain ⟨-, ha, -, -, hl', hr'⟩ := h.tree.sub hsub'
        obtain ⟨pre, post, ht⟩ := hsub'.toList
        rw [hparent]
        simp only [bind, Except.bind]
        rcases hside with hleft | hright
        · refine ⟨pre, a :: r'.toList ++ post, ?_, ?_⟩
          · rw [ht, hleft]
            simp
          · rw [← hleft] at hl'
            rw [if_neg fun hcond => hcond.2 hl'.root]
            rfl
        · have hheight : (AATree.node lv l x r).height < (AATree.node lv' l' a r').height := by
            rw [hright]
            conv_rhs => rw [AATree.height]
            omega
          obtain ⟨pre', post', ht', hcall⟩ := ih hsub' (by omega)
          refine ⟨pre' ++ (l'.toList ++ [a]), post', ?_, ?_⟩
          · rw [ht', hright]
            simp
          · rw [if_pos, hcall]
            refine ⟨ha.ne_zero, fun hlx => ?_⟩
            have hx0 : x ≠ 0 := (h.tree.sub hsub).2.1.ne_zero
            rw [hlx] at hl'
            obtain ⟨lv₁, l₁, r₁, hl₁⟩ := hl'.exists_node hx0
            refine h.left_ne_right hsub' (x := x) ?_ ?_
            · rw [hl₁]
              exact mem_node.mpr (.inr (.inl rfl))
            · rw [← hright]
              exact mem_node.mpr (.inr (.inl rfl))

theorem aaClimb_right (h : Tracks s t) (fuel : Nat) {lv : Nat} {l r : AATree Nat}
    (hsub : (AATree.node lv l x r).Sub t)
    (hfuel : t.height < fuel + (AATree.node lv l x r).height) :
    ∃ pre post, t.toList = pre ++ (AATree.node lv l x r).toList ++ post ∧
      aaClimb MdbNode.cdtRight fuel s x = .ok (pre.getLast?.getD 0) := by
  induction fuel generalizing lv l x r with
  | zero => exact absurd hsub.height_le (by omega)
  | succ fuel ih =>
      rw [aaClimb]
      rcases h.aaParent_eq hsub with ⟨heq, hparent⟩ | ⟨lv', l', a, r', hsub', hside, hparent⟩
      · refine ⟨[], [], by rw [heq]; simp, ?_⟩
        rw [hparent]
        rfl
      · obtain ⟨-, ha, -, -, hl', hr'⟩ := h.tree.sub hsub'
        obtain ⟨pre, post, ht⟩ := hsub'.toList
        rw [hparent]
        simp only [bind, Except.bind]
        rcases hside with hleft | hright
        · have hheight : (AATree.node lv l x r).height < (AATree.node lv' l' a r').height := by
            rw [hleft]
            conv_rhs => rw [AATree.height]
            omega
          obtain ⟨pre', post', ht', hcall⟩ := ih hsub' (by omega)
          refine ⟨pre', a :: r'.toList ++ post', ?_, ?_⟩
          · rw [ht', hleft]
            simp
          · rw [if_pos, hcall]
            refine ⟨ha.ne_zero, fun hrx => ?_⟩
            have hx0 : x ≠ 0 := (h.tree.sub hsub).2.1.ne_zero
            rw [hrx] at hr'
            obtain ⟨lv₁, l₁, r₁, hr₁⟩ := hr'.exists_node hx0
            refine h.left_ne_right hsub' (x := x) ?_ ?_
            · rw [← hleft]
              exact mem_node.mpr (.inr (.inl rfl))
            · rw [hr₁]
              exact mem_node.mpr (.inr (.inl rfl))
        · refine ⟨pre ++ (l'.toList ++ [a]), post, ?_, ?_⟩
          · rw [ht, hright]
            simp
          · rw [← hright] at hr'
            rw [if_neg fun hcond => hcond.2 hr'.root]
            simp

theorem aaTraverseForward_eq (h : Tracks s t) (hx : x ∈ t.toList) :
    ∃ pre post, t.toList = pre ++ x :: post ∧
      aaTraverseForward s x = .ok (post.head?.getD 0) := by
  obtain ⟨lv, l, r, hsub⟩ := AATree.exists_sub hx
  obtain ⟨-, hslot, -, -, -, hr⟩ := h.tree.sub hsub
  have hheight := h.height_lt
  unfold aaTraverseForward
  by_cases hnil : (s.mdb x).cdtRight = 0
  · obtain ⟨pre, post, ht, hcall⟩ := h.aaClimb_left maxStackDepth hsub (by omega)
    have hr0 : r = .nil := hr.eq_zero_iff.mp hnil
    subst hr0
    refine ⟨pre ++ l.toList, post, by rw [ht]; simp, ?_⟩
    simp only [hnil, ne_eq, not_true_eq_false, if_false]
    exact hcall
  · have hr0 : r ≠ .nil := fun h0 => hnil (hr.eq_zero_iff.mpr h0)
    have hle := hsub.height_le
    rw [AATree.height] at hle
    have hfuel : r.height ≤ maxStackDepth := by omega
    obtain ⟨m, hfirst, hcall⟩ := aaSucc_eq hr hr0 hfuel
    obtain ⟨tail, htail⟩ := AATree.exists_of_first? hfirst
    obtain ⟨pre, post, ht⟩ := hsub.toList
    refine ⟨pre ++ l.toList, m :: tail ++ post, by rw [ht, AATree.toList_node, htail]; simp, ?_⟩
    simp only [ne_eq, hnil, not_false_eq_true, if_true]
    exact hcall

theorem aaTraverseBackward_eq (h : Tracks s t) (hx : x ∈ t.toList) :
    ∃ pre post, t.toList = pre ++ x :: post ∧
      aaTraverseBackward s x = .ok (pre.getLast?.getD 0) := by
  obtain ⟨lv, l, r, hsub⟩ := AATree.exists_sub hx
  obtain ⟨-, hslot, -, -, hl, -⟩ := h.tree.sub hsub
  have hheight := h.height_lt
  unfold aaTraverseBackward
  by_cases hnil : (s.mdb x).cdtLeft = 0
  · obtain ⟨pre, post, ht, hcall⟩ := h.aaClimb_right maxStackDepth hsub (by omega)
    have hl0 : l = .nil := hl.eq_zero_iff.mp hnil
    subst hl0
    refine ⟨pre, r.toList ++ post, by rw [ht]; simp, ?_⟩
    simp only [hnil, ne_eq, not_true_eq_false, if_false]
    exact hcall
  · have hl0 : l ≠ .nil := fun h0 => hnil (hl.eq_zero_iff.mpr h0)
    have hle := hsub.height_le
    rw [AATree.height] at hle
    have hfuel : l.height ≤ maxStackDepth := by omega
    obtain ⟨m, hlast, hcall⟩ := aaPred_eq hl hl0 hfuel
    obtain ⟨init, hinit⟩ := AATree.exists_of_last? hlast
    obtain ⟨pre, post, ht⟩ := hsub.toList
    refine ⟨pre ++ (init ++ [m]), r.toList ++ post, ?_, ?_⟩
    · rw [ht, AATree.toList_node, hinit]
      simp
    · simp only [ne_eq, hnil, not_false_eq_true, if_true]
      rw [hcall]
      simp

end Tracks

/-! ## The capabilities of an object -/

namespace Cap

/-- `Arch_sameRegionAs`. -/
def archSameRegionAs : Cap → Cap → Bool
  | frame sizeA baseA _ _, frame sizeB baseB _ _ =>
      let topA := (baseA + (2 ^ pageBitsForSize sizeA - 1)) % 2 ^ 32
      let topB := (baseB + (2 ^ pageBitsForSize sizeB - 1)) % 2 ^ 32
      baseA ≤ baseB ∧ topA ≥ topB ∧ baseB ≤ topB
  | pageTable baseA _ _, pageTable baseB _ _ => baseA = baseB
  | pageDirectory baseA, pageDirectory baseB => baseA = baseB
  | _, _ => false

/-- `Arch_sameObjectAs`. -/
def archSameObjectAs : Cap → Cap → Bool
  | frame sizeA baseA _ _, frame sizeB baseB _ _ => baseA = baseB ∧ sizeA = sizeB
  | a, b => archSameRegionAs a b

/-- `isArchCap`. -/
def isArchCap : Cap → Bool
  | frame .. | pageTable .. | pageDirectory .. => true
  | _ => false

/-- `sameRegionAs`. -/
def sameRegionAs (a b : Cap) : Bool :=
  match a, b with
  | untyped bitsA ptrA, b =>
      let aTop := (ptrA + (2 ^ bitsA - 1)) % 2 ^ 32
      let bTop := (b.capPtr + (2 ^ b.capSizeBits - 1)) % 2 ^ 32
      b.capPtr ≠ 0 ∧ ptrA ≤ b.capPtr ∧ bTop ≤ aTop ∧ b.capPtr ≤ bTop
  | endpoint _ ptrA, endpoint _ ptrB => ptrA = ptrB
  | asyncEndpoint _ ptrA, asyncEndpoint _ ptrB => ptrA = ptrB
  | cnode radixA ptrA, cnode radixB ptrB => ptrA = ptrB ∧ radixA = radixB
  | thread tcbA, thread tcbB => tcbA = tcbB
  | reply tcbA, reply tcbB => tcbA = tcbB
  | domain, domain => true
  | irqControl, irqControl | irqControl, irqHandler _ => true
  | irqHandler irqA, irqHandler irqB => irqA = irqB
  | a, b => if a.isArchCap ∧ b.isArchCap then archSameRegionAs a b else false

/-- `sameObjectAs`. -/
def sameObjectAs (a b : Cap) : Bool :=
  match a, b with
  | untyped .., _ => false
  | irqControl, irqHandler _ => false
  | a, b => if a.isArchCap ∧ b.isArchCap then archSameObjectAs a b else sameRegionAs a b

/-- Typed objects do not overlap: capabilities of one address are for one object. -/
def AgreeObject (a b : Cap) : Prop :=
  a.kind.isSome → b.kind.isSome → a.capPtr = b.capPtr → a.sameObjectAs b

end Cap

def cdtIsFinal (s : Cdt) (slot : Nat) : Except KernelFault Bool := do
  let closest ← aaTraverseForward s slot
  if closest ≠ 0 ∧ (s.cap closest).sameObjectAs (s.cap slot) then .ok false
  else
    let closest ← aaTraverseBackward s slot
    if closest ≠ 0 ∧ (s.cap closest).sameObjectAs (s.cap slot) then .ok false
    else .ok true

/-- The object of a capability as the order sees it: the space and the address. -/
def Cap.object (c : Cap) : ℕ ×ₗ ℕ := toLex ((ofLex c.key).1, (ofLex (ofLex c.key).2).1)

theorem Cap.object_mono {a b : Cap} (h : a.key ≤ b.key) : a.object ≤ b.object := by
  rcases Prod.Lex.le_iff.mp h with hlt | ⟨heq, hle⟩
  · exact Prod.Lex.le_iff.mpr (.inl hlt)
  · refine Prod.Lex.le_iff.mpr (.inr ⟨heq, ?_⟩)
    rcases Prod.Lex.le_iff.mp hle with hlt | ⟨heq, -⟩
    · exact hlt.le
    · exact heq.le

theorem Cap.object_of_isSome {c : Cap} (h : c.kind.isSome) : c.object = toLex (1, c.capPtr) := by
  rw [object, key_of_isSome h]
  rfl

/-- Capabilities for one object are for one space and address. -/
theorem Cap.object_eq_of_sameObjectAs {a b : Cap} (h : a.sameObjectAs b) : a.object = b.object := by
  cases a <;> cases b <;>
    simp_all [sameObjectAs, sameRegionAs, isArchCap, archSameObjectAs, archSameRegionAs, object,
      key, capPtr]

/-- Of the capabilities for one space and address only those of untyped memory are not for one
object. -/
theorem Cap.sameObjectAs_iff {a b : Cap} (ha : a.InCdt) (hb : b.InCdt) (hab : a.AgreeObject b) :
    a.sameObjectAs b ↔ a.object = b.object ∧ b.capSpaceType ≠ .ok .untypedMemory := by
  constructor
  · refine fun h => ⟨object_eq_of_sameObjectAs h, fun hb => ?_⟩
    cases b <;> cases hb
    cases a <;> cases h
  · rintro ⟨hobj, hne⟩
    cases hkind : a.kind with
    | some k =>
        have hsome : a.kind.isSome := by rw [hkind]; rfl
        rw [object_of_isSome hsome] at hobj
        have hb1 : (ofLex b.key).1 = 1 := (congrArg (fun k => (ofLex k).1) hobj).symm
        have hsomeb : b.kind.isSome := by
          by_contra hnone
          exact key_fst_of_none (Option.not_isSome_iff_eq_none.mp hnone) hb1
        rw [object_of_isSome hsomeb] at hobj
        exact hab hsome hsomeb (congrArg (fun k => (ofLex k).2) hobj)
    | none =>
        cases a <;> cases hkind <;> cases b <;>
          simp_all [sameObjectAs, sameRegionAs, isArchCap, object, key, InCdt, capSpaceType]

theorem object_le {y z : Nat} (h : s.key y ≤ s.key z) : (s.cap y).object ≤ (s.cap z).object := by
  refine Cap.object_mono ?_
  rcases Prod.Lex.le_iff.mp h with hlt | ⟨heq, -⟩
  · exact hlt.le
  · exact heq.le

section Final

variable {pre post : List Nat} (h : Tracks s t) (hlist : t.toList = pre ++ x :: post)

include h hlist

theorem Tracks.lt_of_mem_post {y : Nat} (hy : y ∈ post) : s.key x < s.key y := by
  have ho := h.ordered
  rw [AATree.Ordered, hlist, List.pairwise_append, List.pairwise_cons] at ho
  exact ho.2.1.1 y hy

theorem Tracks.lt_of_mem_pre {y : Nat} (hy : y ∈ pre) : s.key y < s.key x := by
  have ho := h.ordered
  rw [AATree.Ordered, hlist, List.pairwise_append] at ho
  exact ho.2.2 y hy x (List.mem_cons_self ..)

theorem Tracks.head_object {y : Nat} (hy : y ∈ post) (hobj : (s.cap y).object = (s.cap x).object) :
    ∃ z ∈ post, post.head? = some z ∧ (s.cap z).object = (s.cap x).object := by
  cases post with
  | nil => exact nomatch hy
  | cons z post =>
      refine ⟨z, List.mem_cons_self .., rfl, le_antisymm ?_ ?_⟩
      · rw [← hobj]
        rcases List.mem_cons.mp hy with rfl | hmem
        · exact le_refl _
        · have ho := h.ordered
          rw [AATree.Ordered, hlist, List.pairwise_append, List.pairwise_cons,
            List.pairwise_cons] at ho
          exact object_le (ho.2.1.2.1 y hmem).le
      · exact object_le (h.lt_of_mem_post hlist (List.mem_cons_self ..)).le

theorem Tracks.last_object {y : Nat} (hy : y ∈ pre) (hobj : (s.cap y).object = (s.cap x).object) :
    ∃ z ∈ pre, pre.getLast? = some z ∧ (s.cap z).object = (s.cap x).object := by
  obtain ⟨init, z, rfl⟩ : ∃ init z, pre = init ++ [z] := by
    rcases List.eq_nil_or_concat pre with rfl | ⟨init, z, hpre⟩
    · exact nomatch hy
    · exact ⟨init, z, by rw [hpre, List.concat_eq_append]⟩
  have hz : z ∈ init ++ [z] := List.mem_append_right _ (List.mem_singleton_self z)
  refine ⟨z, hz, by simp, le_antisymm ?_ ?_⟩
  · exact object_le (h.lt_of_mem_pre hlist hz).le
  · rw [← hobj]
    rcases List.mem_append.mp hy with hmem | hmem
    · have ho := h.ordered
      rw [AATree.Ordered, hlist, List.pairwise_append, List.pairwise_append] at ho
      exact object_le (ho.1.2.2 y hmem z (List.mem_singleton_self z)).le
    · rw [List.mem_singleton.mp hmem]

end Final

instance (a b : Cap) : Decidable (a.AgreeObject b) := by unfold Cap.AgreeObject; infer_instance

end PartitionSeL4.Kernel
