import PartitionSeL4.Kernel.CdtFinal

/-!
# The descendants of a capability

Revoking a capability deletes its descendants one after the other, each found by `cdtFindChild`. It
builds the largest capability a descendant can have and takes the largest slot below it, which is a
descendant if it is larger than the parent.

* `aaFindFromBelow_eq`: the search finds the last slot below a bound.
* `Descends`: when a slot's capability is derived from another's, kind by kind.
* `cdtFindChild_spec`: for a parent that is not untyped memory, the search finds nothing exactly
  when there is no descendant.
* `cdtFindChild_untyped_spec`: for untyped memory it finds nothing exactly when no derived untyped
  capability and no object is left inside, with one exception: an endpoint in the last 16 bytes
  whose capabilities are all badged is not seen. This is so where the last 16 bytes are no
  asynchronous endpoint and an object lies below the memory.
* `cteInsert_descends`: a capability derived from one that is not untyped memory becomes its
  descendant.
-/

namespace PartitionSeL4.Kernel

open Lib Cdt

/-- Whether `current` is to take the place of the largest slot so far. -/
def exceeds (s : Cdt) (current largest : Nat) : Except KernelFault Bool :=
  if largest = 0 then .ok true
  else do
    let cmp ← compSlot (s.cte current) (s.cte largest)
    .ok (cmp = .gt)

/-- The loop of `aaFindFromBelow`. -/
def aaFindFromBelowLoop : Nat → Cdt → Cte → TieComp → Nat → Nat → Except KernelFault Nat
  | 0, _, _, _, _, _ => .error .stackDepth
  | fuel + 1, s, hypothetical, tieBreak, largest, current => do
      if current = 0 then .error .nullPointer
      else
        let cmp ← compSlotWith (s.cte current) hypothetical tieBreak
        if cmp = .lt then
          let larger ← exceeds s current largest
          let largest := if larger then current else largest
          let next := (s.mdb current).cdtRight
          if next ≠ 0 then aaFindFromBelowLoop fuel s hypothetical tieBreak largest next
          else .ok largest
        else
          let next := (s.mdb current).cdtLeft
          if next ≠ 0 then aaFindFromBelowLoop fuel s hypothetical tieBreak largest next
          else .ok largest

def aaFindFromBelow (s : Cdt) (hypothetical : Cte) (tieBreak : TieComp) : Except KernelFault Nat :=
  aaFindFromBelowLoop maxStackDepth s hypothetical tieBreak 0 s.ksRootCTE

/-- `build_largest_child`. -/
def buildLargestChild : Cap → Except KernelFault Cap
  | .irqControl => .ok (.irqHandler 0xff)
  | .untyped bits ptr => .ok (.untyped 4 ((ptr + 2 ^ bits + (2 ^ 32 - 2 ^ 4)) % 2 ^ 32))
  | .endpoint badge ptr =>
      .ok (if badge = 0 then .endpoint (2 ^ 28 - 1) ptr else .endpoint badge ptr)
  | .asyncEndpoint badge ptr =>
      .ok (if badge = 0 then .asyncEndpoint (2 ^ 28 - 1) ptr else .asyncEndpoint badge ptr)
  | .null | .reply _ => .error .fail
  | cap => .ok cap

/-- `_cdtFindChild`. -/
def cdtFindChildBelow (s : Cdt) (parentSlot : Nat) : Except KernelFault Nat := do
  let largest ← buildLargestChild (s.cap parentSlot)
  let child ← aaFindFromBelow s ⟨largest, 0, 0⟩ largestChildComparator
  if child = 0 then .ok 0
  else
    let cmp ← compSlotWith (s.cte child) (s.cte parentSlot) slotLtComparator
    .ok (if cmp = .gt then child else 0)

def cdtFindTypedInRange (s : Cdt) (base sizeBits : Nat) : Except KernelFault Nat := do
  let top := (base + 2 ^ sizeBits + (2 ^ 32 - 2 ^ epSizeBits)) % 2 ^ 32
  let child ← aaFindFromBelow s ⟨.endpoint 0 top, 0, 0⟩ largestChildComparator
  .ok (if child ≠ 0 ∧ (Cap.untyped sizeBits base).sameRegionAs (s.cap child) then child else 0)

def cdtFindChild (s : Cdt) (parentSlot : Nat) : Except KernelFault Nat := do
  match s.cap parentSlot with
  | .untyped bits ptr =>
      let result ← cdtFindTypedInRange s ptr bits
      if result ≠ 0 then .ok result else cdtFindChildBelow s parentSlot
  | cap =>
      let _ ← cap.capSpaceType
      cdtFindChildBelow s parentSlot

/-! ## The search from below -/

variable {s : Cdt} {t w : AATree Nat} {p x : Nat}

namespace Tracks

theorem aaFindFromBelowLoop_eq (h : Tracks s t) {fuel largest : Nat} {hyp : Cte} {tie : TieComp}
    {f : Nat → Ordering} (hcmp : ∀ y ∈ t.toList, compSlotWith (s.cte y) hyp tie = .ok (f y))
    (hw : TreeAt s p w) (hsub : w.Sub t) (hne : w ≠ .nil) (hfuel : w.height ≤ fuel)
    (hlargest : largest = 0 ∨ largest ∈ t.toList ∧ ∀ y ∈ w.toList, s.key largest < s.key y) :
    aaFindFromBelowLoop fuel s hyp tie largest p =
      .ok ((w.findBelow fun y => f y = .lt).getD largest) := by
  induction w generalizing p fuel largest with
  | nil => exact absurd rfl hne
  | node lv l a r ihl ihr =>
      obtain ⟨fuel, rfl⟩ := Nat.exists_eq_succ_of_ne_zero
        (Nat.ne_zero_of_lt (lt_of_lt_of_le (Nat.succ_pos _) hfuel))
      obtain ⟨rfl, hp, -, -, hl, hr⟩ := hw
      have hpt : p ∈ t.toList := hsub.mem (mem_node.mpr (.inr (.inl rfl)))
      obtain ⟨pre, post, ht⟩ := hsub.toList
      have ho : (AATree.node lv l p r).Ordered s.key := by
        have := h.ordered
        rw [AATree.Ordered, ht] at this
        exact (List.pairwise_append.mp (List.pairwise_append.mp this).1).2.1
      obtain ⟨-, -, hlp, hpr⟩ := AATree.ordered_node.mp ho
      have hsubl : l.Sub t := (AATree.Sub.left .refl).trans hsub
      have hsubr : r.Sub t := (AATree.Sub.right .refl).trans hsub
      rw [AATree.height] at hfuel
      rw [aaFindFromBelowLoop, if_neg hp.ne_zero, hcmp p hpt, AATree.findBelow]
      simp only [bind, Except.bind]
      by_cases hlt : f p = .lt
      · rw [if_pos hlt, if_pos (decide_eq_true hlt)]
        have hlarger : exceeds s p largest = .ok true := by
          rcases hlargest with h0 | ⟨hmem, hbelow⟩
          · rw [exceeds, if_pos h0]
          · rw [exceeds, if_neg (h.tree.isSlot _ hmem).ne_zero,
              h.compSlot_eq (h.caps p hpt) hmem (h.agree p hpt _ hmem),
              compare_gt_iff_gt.mpr (hbelow p (mem_node.mpr (.inr (.inl rfl))))]
            rfl
        rw [hlarger]
        simp only [if_true]
        by_cases hnil : (s.mdb p).cdtRight = 0
        · rw [if_neg (not_not.mpr hnil), hr.eq_zero_iff.mp hnil]
          rfl
        · have hr0 : r ≠ .nil := fun h0 => hnil (hr.eq_zero_iff.mpr h0)
          have hfuelr : r.height ≤ fuel := by omega
          rw [if_pos hnil, ihr hr hsubr hr0 hfuelr (.inr ⟨hpt, hpr⟩)]
          cases r.findBelow fun y => f y = .lt <;> rfl
      · rw [if_neg hlt, if_neg fun hd => hlt (of_decide_eq_true hd)]
        by_cases hnil : (s.mdb p).cdtLeft = 0
        · rw [if_neg (not_not.mpr hnil), hl.eq_zero_iff.mp hnil]
          rfl
        · have hl0 : l ≠ .nil := fun h0 => hnil (hl.eq_zero_iff.mpr h0)
          have hfuell : l.height ≤ fuel := by omega
          rw [if_pos hnil]
          exact ihl hl hsubl hl0 hfuell
            (hlargest.imp_right fun hb => ⟨hb.1, fun y hy => hb.2 y (mem_node.mpr (.inl hy))⟩)

theorem aaFindFromBelow_eq (h : Tracks s t) {hyp : Cte} {tie : TieComp} (f : Nat → Ordering)
    (hcmp : ∀ y ∈ t.toList, compSlotWith (s.cte y) hyp tie = .ok (f y))
    (hdown : ∀ y ∈ t.toList, ∀ z ∈ t.toList, s.key y < s.key z → f z = .lt → f y = .lt)
    (hx : x ∈ t.toList) :
    ∃ r, aaFindFromBelow s hyp tie = .ok r ∧
      (r = 0 ∧ (∀ y ∈ t.toList, f y ≠ .lt) ∨
        r ∈ t.toList ∧ f r = .lt ∧ ∀ y ∈ t.toList, f y = .lt → s.key y ≤ s.key r) := by
  have hne : t ≠ .nil := fun h0 => by
    rw [h0] at hx
    exact nomatch hx
  have hpair : t.toList.Pairwise fun y z =>
      decide (f z = .lt) = true → decide (f y = .lt) = true :=
    h.ordered.imp_of_mem fun hy hz hlt hfz =>
      decide_eq_true (hdown _ hy _ hz hlt (of_decide_eq_true hfz))
  refine ⟨_, h.aaFindFromBelowLoop_eq hcmp h.tree .refl hne h.height_lt.le (.inl rfl), ?_⟩
  rw [AATree.findBelow_eq hpair]
  cases hlast : (t.toList.filter fun y => decide (f y = .lt)).getLast? with
  | none =>
      rw [List.getLast?_eq_none_iff, List.filter_eq_nil_iff] at hlast
      exact .inl ⟨rfl, fun y hy hlt => hlast y hy (decide_eq_true hlt)⟩
  | some m =>
      obtain ⟨init, hinit⟩ := List.getLast?_eq_some_iff.mp hlast
      have hm : m ∈ t.toList.filter fun y => decide (f y = .lt) := by simp [hinit]
      obtain ⟨hmt, hmlt⟩ := List.mem_filter.mp hm
      refine .inr ⟨hmt, of_decide_eq_true hmlt, fun y hy hlt => ?_⟩
      have hyf : y ∈ init ++ [m] := hinit ▸ List.mem_filter.mpr ⟨hy, decide_eq_true hlt⟩
      have hord := h.ordered.filter fun y => decide (f y = .lt)
      rw [hinit, List.pairwise_append] at hord
      rcases List.mem_append.mp hyf with hy' | hy'
      · exact (hord.2.2 y hy' m (List.mem_singleton_self m)).le
      · rw [List.mem_singleton.mp hy']
        exact le_refl _

end Tracks

/-! ## Descendants -/

/-- A capability `c` is derived from `p`: it is smaller untyped memory inside, a badged endpoint of
an unbadged one, an interrupt of the control capability, or a copy, which is told by its slot being
`deeper`. -/
def Cap.DescendsFrom (p c : Cap) (deeper : Prop) : Prop :=
  match p, c with
  | untyped bits ptr, untyped bits' ptr' =>
      ptr ≤ ptr' ∧ ptr' + 2 ^ bits' ≤ ptr + 2 ^ bits ∧ (bits' < bits ∨ deeper)
  | endpoint badge ptr, endpoint badge' ptr' | asyncEndpoint badge ptr, asyncEndpoint badge' ptr' =>
      ptr' = ptr ∧ (badge' = badge ∧ deeper ∨ badge = 0 ∧ badge' ≠ 0)
  | irqControl, irqHandler _ => True
  | irqControl, irqControl | domain, domain => deeper
  | irqHandler irq, irqHandler irq' => irq' = irq ∧ deeper
  | p, c => p.kind.isSome ∧ c.kind = p.kind ∧ c.capPtr = p.capPtr ∧ deeper

/-- Slot `c` holds a capability derived from that of `p`. -/
def Cdt.Descends (s : Cdt) (p c : Nat) : Prop :=
  (s.cap p).DescendsFrom (s.cap c) ((s.cte p).tie < (s.cte c).tie)

/-- The ranges of a capability's fields. Untyped memory is at least 16 bytes, and aligned to its
size. -/
def Cap.InRange : Cap → Prop
  | untyped bits ptr => 4 ≤ bits ∧ bits < 2 ^ 5 ∧ ptr % 2 ^ bits = 0 ∧ ptr + 2 ^ bits ≤ 2 ^ 32
  | endpoint badge _ | asyncEndpoint badge _ => badge < 2 ^ 28
  | irqHandler irq => irq ≤ 0xff
  | _ => True

namespace Cap

variable {a b c p : Cap} {deeper : Prop}

/-- Between a capability and itself there are only its copies. -/
theorem between_self (h : c.key ≤ p.key ∧ (p.key < c.key ∨ p.key = c.key ∧ deeper)) :
    p.key = c.key ∧ deeper :=
  h.2.resolve_left fun hlt => absurd h.1 hlt.not_ge

theorem key_eq_iff (hp : p.kind.isSome) (hagree : p.Agree c) :
    p.key = c.key ↔ c.kind = p.kind ∧ c.capPtr = p.capPtr ∧ c.capBadge = p.capBadge := by
  constructor
  · intro h
    have hkind := kind_eq_of_key_eq hagree h
    rw [key_of_isSome hp, key_of_isSome (hkind ▸ hp)] at h
    have hrest : toLex (p.capPtr, p.capBadge) = toLex (c.capPtr, c.capBadge) :=
      congrArg (fun k : CapKey => (ofLex k).2) h
    exact ⟨hkind.symm, (congrArg (fun k => (ofLex k).1) hrest).symm,
      (congrArg (fun k => (ofLex k).2) hrest).symm⟩
  · rintro ⟨hkind, hptr, hbadge⟩
    rw [key_of_isSome hp, key_of_isSome (hkind.symm ▸ hp), hptr, hbadge]

theorem kind_isSome_of_between {k₁ k₂ : ℕ ×ₗ ℕ} (hlo : toLex (1, k₁) ≤ c.key)
    (hhi : c.key ≤ toLex (1, k₂)) : c.kind.isSome := by
  have h₁ := Prod.Lex.le_iff.mp hlo
  have h₂ := Prod.Lex.le_iff.mp hhi
  simp only [ofLex_toLex] at h₁ h₂
  by_contra hnone
  exact key_fst_of_none (Option.not_isSome_iff_eq_none.mp hnone) (by omega)

theorem between_typed {ptr b₁ b₂ : Nat} (hlo : toLex (1, toLex (ptr, b₁)) ≤ c.key)
    (hhi : c.key ≤ toLex (1, toLex (ptr, b₂))) :
    c.kind.isSome ∧ c.capPtr = ptr ∧ b₁ ≤ c.capBadge ∧ c.capBadge ≤ b₂ := by
  have hsome := kind_isSome_of_between hlo hhi
  rw [key_of_isSome hsome, Prod.Lex.toLex_le_toLex, Prod.Lex.toLex_le_toLex] at hlo hhi
  simp only [lt_irrefl, false_or, true_and] at hlo hhi
  exact ⟨hsome, by omega, by omega, by omega⟩

/-- Aligned untyped memory that starts inside other untyped memory lies in it. -/
theorem untyped_inside {bits ptr bits' ptr' : Nat} (halign : ptr % 2 ^ bits = 0)
    (halign' : ptr' % 2 ^ bits' = 0) (hlt : ptr < ptr') (hend : ptr' < ptr + 2 ^ bits) :
    bits' < bits ∧ ptr' + 2 ^ bits' ≤ ptr + 2 ^ bits := by
  have hbits : bits' < bits := by
    by_contra hge
    have hdvd : 2 ^ bits ∣ ptr' - ptr :=
      Nat.dvd_sub (Nat.dvd_trans (Nat.pow_dvd_pow 2 (not_lt.mp hge))
        (Nat.dvd_of_mod_eq_zero halign')) (Nat.dvd_of_mod_eq_zero halign)
    have := Nat.le_of_dvd (by omega) hdvd
    omega
  refine ⟨hbits, ?_⟩
  have hdvd : 2 ^ bits' ∣ ptr + 2 ^ bits - ptr' := by
    have hpow : 2 ^ bits' ∣ 2 ^ bits := Nat.pow_dvd_pow 2 hbits.le
    exact Nat.dvd_sub (Nat.dvd_add (Nat.dvd_trans hpow (Nat.dvd_of_mod_eq_zero halign)) hpow)
      (Nat.dvd_of_mod_eq_zero halign')
  have := Nat.le_of_dvd (by omega) hdvd
  omega

theorem descendsFrom_untyped {bits ptr bits' ptr' : Nat} (hp : (untyped bits ptr).InRange)
    (hc : (untyped bits' ptr').InRange) :
    ((untyped bits' ptr').key ≤
        (untyped 4 ((ptr + 2 ^ bits + (2 ^ 32 - 2 ^ 4)) % 2 ^ 32)).key ∧
      ((untyped bits ptr).key < (untyped bits' ptr').key ∨
        (untyped bits ptr).key = (untyped bits' ptr').key ∧ deeper)) ↔
      (untyped bits ptr).DescendsFrom (untyped bits' ptr') deeper := by
  obtain ⟨h4, h32, halign, htop⟩ := hp
  obtain ⟨h4', h32', halign', -⟩ := hc
  have hpow : 2 ^ 4 ≤ 2 ^ bits := Nat.pow_le_pow_right (by decide) h4
  have hpow' : 2 ^ 4 ≤ 2 ^ bits' := Nat.pow_le_pow_right (by decide) h4'
  have hlargest : (ptr + 2 ^ bits + (2 ^ 32 - 2 ^ 4)) % 2 ^ 32 = ptr + 2 ^ bits - 2 ^ 4 := by omega
  rw [hlargest]
  simp only [key, DescendsFrom, Prod.Lex.toLex_le_toLex, Prod.Lex.toLex_lt_toLex, lt_irrefl,
    false_or, true_and, EmbeddingLike.apply_eq_iff_eq, Prod.mk.injEq]
  constructor
  · rintro ⟨hhi, hlo⟩
    rcases lt_or_ge ptr ptr' with hlt | hge
    · obtain ⟨hbits, hend⟩ := untyped_inside halign halign' hlt (by omega)
      exact ⟨hlt.le, hend, .inl hbits⟩
    · have hptr : ptr' = ptr := by omega
      subst hptr
      rcases hlo with hlo | ⟨⟨-, hbits⟩, hdeep⟩
      · have hbits : bits' < bits := by omega
        have := Nat.pow_le_pow_right (n := 2) (by decide) hbits.le
        exact ⟨le_refl _, by omega, .inl hbits⟩
      · have hbits : bits' = bits := by omega
        subst hbits
        exact ⟨le_refl _, le_refl _, .inr hdeep⟩
  · rintro ⟨hlo, hend, hdown⟩
    refine ⟨by omega, ?_⟩
    by_cases hbits : bits' < bits
    · exact .inl (by omega)
    · have := Nat.pow_le_pow_right (n := 2) (by decide) (not_lt.mp hbits)
      have hpows : 2 ^ bits' = 2 ^ bits := by omega
      have hsame := Nat.pow_right_injective (le_refl 2) hpows
      exact .inr ⟨⟨by omega, by omega⟩, hdown.resolve_left hbits⟩

/-- The badged endpoints of an unbadged one, and the copies of either. -/
theorem descendsFrom_badge {k : Nat} {mk : Nat → Nat → Cap} {badge ptr : Nat}
    (hkey : ∀ b q, (mk b q).key = toLex (1, toLex (q, b)))
    (hmk : ∀ {c}, c.kind = some k → ∃ b q, c = mk b q) (hkind : ∀ b q, (mk b q).kind = some k)
    (hptr : ∀ b q, (mk b q).capPtr = q) (hbadge : ∀ b q, (mk b q).capBadge = b)
    (hrange : ∀ b q, (mk b q).InRange → b < 2 ^ 28) (hc : c.InRange)
    (hagree : (mk badge ptr).Agree c) :
    (c.key ≤ (if badge = 0 then mk (2 ^ 28 - 1) ptr else mk badge ptr).key ∧
      ((mk badge ptr).key < c.key ∨ (mk badge ptr).key = c.key ∧ deeper)) ↔
      ∃ badge', c = mk badge' ptr ∧ (badge' = badge ∧ deeper ∨ badge = 0 ∧ badge' ≠ 0) := by
  constructor
  · rintro ⟨hhi, hlo⟩
    have hle : (mk badge ptr).key ≤ c.key := hlo.elim le_of_lt fun h => h.1.le
    rw [hkey] at hle
    have hhi' : c.key ≤ toLex (1, toLex (ptr, if badge = 0 then 2 ^ 28 - 1 else badge)) := by
      split_ifs at hhi ⊢ <;> rwa [hkey] at hhi
    obtain ⟨hsome, hcptr, hb₁, hb₂⟩ := between_typed hle hhi'
    have hck : c.kind = some k := by
      rw [← hagree (by rw [hkind]; rfl) hsome (by rw [hptr, hcptr]), hkind]
    obtain ⟨badge', q, rfl⟩ := hmk hck
    rw [hptr] at hcptr
    subst hcptr
    rw [hbadge] at hb₁ hb₂
    refine ⟨badge', rfl, ?_⟩
    rcases hlo with hlt | ⟨heq, hdeep⟩
    · rw [hkey, hkey, Prod.Lex.toLex_lt_toLex, Prod.Lex.toLex_lt_toLex] at hlt
      split_ifs at hb₂ with h0
      · exact .inr ⟨h0, by omega⟩
      · omega
    · have hbb := congrArg (fun k : CapKey => (ofLex (ofLex k).2).2) heq
      rw [hkey, hkey] at hbb
      exact .inl ⟨hbb.symm, hdeep⟩
  · rintro ⟨badge', rfl, hdown⟩
    have hlt := hrange badge' ptr hc
    rcases hdown with ⟨rfl, hdeep⟩ | ⟨rfl, hne⟩
    · refine ⟨?_, .inr ⟨rfl, hdeep⟩⟩
      split_ifs with h0
      · rw [hkey, hkey, Prod.Lex.toLex_le_toLex, Prod.Lex.toLex_le_toLex]
        exact .inr ⟨rfl, .inr ⟨rfl, by omega⟩⟩
      · exact le_refl _
    · rw [if_pos rfl, hkey, hkey, hkey, Prod.Lex.toLex_le_toLex, Prod.Lex.toLex_le_toLex,
        Prod.Lex.toLex_lt_toLex, Prod.Lex.toLex_lt_toLex]
      exact ⟨.inr ⟨rfl, .inr ⟨rfl, by dsimp only; omega⟩⟩,
        .inl (.inr ⟨rfl, .inr ⟨rfl, by dsimp only; omega⟩⟩)⟩

theorem descendsFrom_copy (hp : p.kind.isSome) (hagree : p.Agree c) (hpb : p.capBadge = 0)
    (hcb : c.kind = p.kind → c.capBadge = 0) :
    (c.key ≤ p.key ∧ (p.key < c.key ∨ p.key = c.key ∧ deeper)) ↔
      p.kind.isSome ∧ c.kind = p.kind ∧ c.capPtr = p.capPtr ∧ deeper := by
  constructor
  · intro h
    obtain ⟨heq, hdeep⟩ := between_self h
    obtain ⟨hkind, hptr, -⟩ := (key_eq_iff hp hagree).mp heq
    exact ⟨hp, hkind, hptr, hdeep⟩
  · rintro ⟨-, hkind, hptr, hdeep⟩
    have heq := (key_eq_iff hp hagree).mpr ⟨hkind, hptr, (hcb hkind).trans hpb.symm⟩
    exact ⟨heq.ge, .inr ⟨heq, hdeep⟩⟩

theorem exists_endpoint (h : c.kind = some 0) : ∃ b q, c = endpoint b q := by
  cases c <;> first | exact ⟨_, _, rfl⟩ | cases h

theorem exists_asyncEndpoint (h : c.kind = some 1) : ∃ b q, c = asyncEndpoint b q := by
  cases c <;> first | exact ⟨_, _, rfl⟩ | cases h

theorem capBadge_eq_zero (h0 : c.kind ≠ some 0) (h1 : c.kind ≠ some 1) : c.capBadge = 0 := by
  cases c <;> first | rfl | exact absurd rfl h0 | exact absurd rfl h1

theorem descendsFrom_irqControl (hc : c.InCdt) (hcr : c.InRange) :
    (c.key ≤ (irqHandler 0xff).key ∧
      (irqControl.key < c.key ∨ irqControl.key = c.key ∧ deeper)) ↔
      irqControl.DescendsFrom c deeper := by
  cases c with
  | null => exact hc.elim
  | reply => exact hc.elim
  | irqControl =>
      have hle : irqControl.key ≤ (irqHandler 0xff).key :=
        Prod.Lex.toLex_le_toLex.mpr (.inr ⟨rfl, Prod.Lex.toLex_le_toLex.mpr (.inl (by decide))⟩)
      exact ⟨fun h => h.2.elim (fun hlt => absurd hlt (lt_irrefl _)) And.right,
        fun h => ⟨hle, .inr ⟨rfl, h⟩⟩⟩
  | irqHandler irq =>
      have hirq : irq ≤ 0xff := hcr
      refine ⟨fun _ => trivial, fun _ => ⟨?_, .inl ?_⟩⟩
      · simp only [key, Prod.Lex.toLex_le_toLex, lt_irrefl, false_or, true_and]
        omega
      · simp [key, Prod.Lex.toLex_lt_toLex]
  | untyped bits ptr =>
      refine ⟨fun h => ?_, fun h => (by cases h.1)⟩
      rcases h.2 with hlt | ⟨heq, -⟩
      · simp [key, Prod.Lex.toLex_lt_toLex] at hlt
      · simp [key] at heq
  | domain =>
      refine ⟨fun h => ?_, fun h => (by cases h.1)⟩
      have hle := h.1
      simp [key, Prod.Lex.toLex_le_toLex] at hle
  | _ =>
      refine ⟨fun h => ?_, fun h => (by cases h.1)⟩
      rcases h.2 with hlt | ⟨heq, -⟩
      · simp [key, Prod.Lex.toLex_lt_toLex] at hlt
      · simp [key] at heq

/-- The search's bounds enclose the capabilities derived from the parent. -/
theorem descendsFrom_iff {l : Cap} (hp : p.InCdt) (hc : c.InCdt) (hpr : p.InRange) (hcr : c.InRange)
    (hagree : p.Agree c) (hl : buildLargestChild p = .ok l) :
    (c.key ≤ l.key ∧ (p.key < c.key ∨ p.key = c.key ∧ deeper)) ↔ p.DescendsFrom c deeper := by
  have hcopy : ∀ {d : Cap}, d.kind.isSome → d.kind ≠ some 0 → d.kind ≠ some 1 → d.Agree c →
      (c.key ≤ d.key ∧ (d.key < c.key ∨ d.key = c.key ∧ deeper) ↔
        d.kind.isSome ∧ c.kind = d.kind ∧ c.capPtr = d.capPtr ∧ deeper) :=
    fun hsome h0 h1 hagree => descendsFrom_copy hsome hagree (capBadge_eq_zero h0 h1) fun hk =>
      capBadge_eq_zero (hk ▸ h0) (hk ▸ h1)
  cases p with
  | null => exact hp.elim
  | reply => exact hp.elim
  | untyped bits ptr =>
      cases hl
      cases c with
      | null => exact hc.elim
      | reply => exact hc.elim
      | untyped bits' ptr' => exact descendsFrom_untyped hpr hcr
      | _ =>
          refine ⟨fun h => ?_, fun h => (by cases h.1)⟩
          have hle := h.1
          simp [key, Prod.Lex.toLex_le_toLex] at hle
  | endpoint badge ptr =>
      cases hl
      rw [descendsFrom_badge (k := 0) (fun _ _ => rfl) exists_endpoint (fun _ _ => rfl)
        (fun _ _ => rfl) (fun _ _ => rfl) (fun _ _ h => h) hcr hagree]
      constructor
      · rintro ⟨badge', rfl, hdown⟩
        exact ⟨rfl, hdown⟩
      · intro h
        cases c <;> first
          | exact ⟨_, by rw [h.1], h.2⟩
          | cases h.2.1
  | asyncEndpoint badge ptr =>
      cases hl
      rw [descendsFrom_badge (k := 1) (fun _ _ => rfl) exists_asyncEndpoint (fun _ _ => rfl)
        (fun _ _ => rfl) (fun _ _ => rfl) (fun _ _ h => h) hcr hagree]
      constructor
      · rintro ⟨badge', rfl, hdown⟩
        exact ⟨rfl, hdown⟩
      · intro h
        cases c <;> first
          | exact ⟨_, by rw [h.1], h.2⟩
          | cases h.2.1
  | irqControl =>
      cases hl
      exact descendsFrom_irqControl hc hcr
  | irqHandler irq =>
      cases hl
      refine ⟨fun h => ?_, fun h => ?_⟩
      · obtain ⟨heq, hdeep⟩ := between_self h
        cases c <;> simp_all [key, DescendsFrom, InCdt]
      · cases c <;> first
          | (obtain ⟨rfl, hdeep⟩ := h; exact ⟨le_refl _, .inr ⟨rfl, hdeep⟩⟩)
          | cases h.1
  | domain =>
      cases hl
      refine ⟨fun h => ?_, fun h => ?_⟩
      · obtain ⟨heq, hdeep⟩ := between_self h
        cases c <;> simp_all [key, DescendsFrom, InCdt]
      · cases c <;> first
          | exact ⟨le_refl _, .inr ⟨rfl, h⟩⟩
          | cases h.1
  | cnode => cases hl; rw [hcopy rfl (by simp [kind]) (by simp [kind]) hagree]; cases c <;> rfl
  | thread => cases hl; rw [hcopy rfl (by simp [kind]) (by simp [kind]) hagree]; cases c <;> rfl
  | frame => cases hl; rw [hcopy rfl (by simp [kind]) (by simp [kind]) hagree]; cases c <;> rfl
  | pageTable => cases hl; rw [hcopy rfl (by simp [kind]) (by simp [kind]) hagree]; cases c <;> rfl
  | pageDirectory =>
      cases hl
      rw [hcopy rfl (by simp [kind]) (by simp [kind]) hagree]
      cases c <;> rfl
  | zombie => cases hl; rw [hcopy rfl (by simp [kind]) (by simp [kind]) hagree]; cases c <;> rfl

end Cap

/-- The capability searched for is one the tree could hold beside the parent. -/
theorem exists_buildLargestChild {p : Cap} (hp : p.InCdt) :
    ∃ l, buildLargestChild p = .ok l ∧ l.InCdt ∧ p.key ≤ p.key ∧ ∀ c, p.Agree c → c.Agree l := by
  cases p with
  | null => exact hp.elim
  | reply => exact hp.elim
  | untyped bits ptr =>
      exact ⟨_, rfl, (by decide : 4 < 2 ^ 5), le_refl _, fun c _ _ hkind => nomatch hkind⟩
  | irqControl => exact ⟨_, rfl, trivial, le_refl _, fun c _ _ hkind => nomatch hkind⟩
  | endpoint badge ptr =>
      refine ⟨_, rfl, ?_, le_refl _, fun c h => ?_⟩
      · split_ifs <;> trivial
      · split_ifs
        · exact fun hc _ hptr => (h rfl hc hptr.symm).symm
        · exact h.symm
  | asyncEndpoint badge ptr =>
      refine ⟨_, rfl, ?_, le_refl _, fun c h => ?_⟩
      · split_ifs <;> trivial
      · split_ifs
        · exact fun hc _ hptr => (h rfl hc hptr.symm).symm
        · exact h.symm
  | _ => exact ⟨_, rfl, trivial, le_refl _, fun c h => h.symm⟩

theorem compSlotWith_slotLt {a b : Cte} (ha : a.cap.InCdt) (hb : b.cap.InCdt)
    (hab : a.cap.Agree b.cap) :
    compSlotWith a b slotLtComparator =
      .ok ((compare a.cap.key b.cap.key).then ((compare a.tie b.tie).then .lt)) := by
  rw [compSlotWith_eq ha hb hab]
  cases hcmp : compare a.cap.key b.cap.key with
  | lt => rfl
  | gt => rfl
  | eq =>
      rw [slotLtComparator, preSlotCompare_eq (kind_eq_of_key_eq hab (compare_eq_iff_eq.mp hcmp))]

theorem then_lt_eq_lt {a b : CapKey} : (compare a b).then .lt = .lt ↔ a ≤ b := by
  rcases lt_trichotomy a b with h | rfl | h
  · rw [compare_lt_iff_lt.mpr h]
    exact ⟨fun _ => h.le, fun _ => rfl⟩
  · rw [compare_eq_iff_eq.mpr rfl]
    exact ⟨fun _ => le_refl a, fun _ => rfl⟩
  · rw [compare_gt_iff_gt.mpr h]
    exact ⟨fun hf => (by cases hf), fun hle => absurd h hle.not_gt⟩

theorem then_then_lt_eq_gt {a b : CapKey} {c d : ℕ ×ₗ ℕ} :
    (compare a b).then ((compare c d).then .lt) = .gt ↔ b < a ∨ b = a ∧ d < c := by
  rcases lt_trichotomy a b with h | rfl | h
  · rw [compare_lt_iff_lt.mpr h]
    exact ⟨fun hf => (by cases hf), fun hgt => hgt.elim (fun hgt => absurd h hgt.not_gt) fun heq =>
      absurd h (by rw [heq.1]; exact lt_irrefl _)⟩
  · rw [compare_eq_iff_eq.mpr rfl]
    rcases lt_trichotomy c d with hcd | rfl | hcd
    · rw [compare_lt_iff_lt.mpr hcd]
      exact ⟨fun hf => (by cases hf), fun hgt => hgt.elim (fun hgt => absurd hgt (lt_irrefl _))
        fun heq => absurd heq.2 hcd.not_gt⟩
    · rw [compare_eq_iff_eq.mpr rfl]
      exact ⟨fun hf => (by cases hf), fun hgt => hgt.elim (fun hgt => absurd hgt (lt_irrefl _))
        fun heq => absurd heq.2 (lt_irrefl _)⟩
    · rw [compare_gt_iff_gt.mpr hcd]
      exact ⟨fun _ => .inr ⟨rfl, hcd⟩, fun _ => rfl⟩
  · rw [compare_gt_iff_gt.mpr h]
    exact ⟨fun _ => .inl h, fun _ => rfl⟩

theorem key_le_iff {y z : Nat} (h : s.key y ≤ s.key z) :
    (s.cap y).key < (s.cap z).key ∨
      (s.cap y).key = (s.cap z).key ∧ (s.cte y).tie ≤ (s.cte z).tie := by
  rcases Prod.Lex.le_iff.mp h with hlt | ⟨heq, hle⟩
  · exact .inl hlt
  · rcases Prod.Lex.le_iff.mp hle with hlt | ⟨heq', -⟩
    · exact .inr ⟨heq, hlt.le⟩
    · exact .inr ⟨heq, heq'.le⟩

theorem cdtFindChildBelow_spec (h : CdtInv s) (hp : (s.cap p).InCdt)
    (hrange : ∀ y, (s.cap y).InCdt → (s.cap y).InRange) :
    ∃ r, cdtFindChildBelow s p = .ok r ∧
      (r = 0 ∧ (∀ c, (s.cap c).InCdt → ¬ s.Descends p c) ∨
        r ≠ 0 ∧ (s.cap r).InCdt ∧ s.Descends p r) := by
  obtain ⟨⟨t, htracks, hlist⟩, -⟩ := h
  have hpt := (hlist p).mpr hp
  obtain ⟨l, hl, hlcdt, -, hlagree⟩ := exists_buildLargestChild hp
  have hagree : ∀ y ∈ t.toList, (s.cap p).Agree (s.cap y) := htracks.agree p hpt
  have hdesc : ∀ y ∈ t.toList, s.Descends p y ↔ (s.cap y).key ≤ l.key ∧
      ((s.cap p).key < (s.cap y).key ∨
        (s.cap p).key = (s.cap y).key ∧ (s.cte p).tie < (s.cte y).tie) := fun y hy =>
    (Cap.descendsFrom_iff hp (htracks.caps y hy) (hrange p hp) (hrange y (htracks.caps y hy))
      (hagree y hy) hl).symm
  obtain ⟨r, hcall, hr⟩ := htracks.aaFindFromBelow_eq
    (fun y => (compare (s.cap y).key l.key).then .lt)
    (fun y hy => compSlotWith_eq (b := ⟨l, 0, 0⟩) (htracks.caps y hy) hlcdt
      (hlagree _ (hagree y hy)) largestChildComparator)
    (fun y hy z hz hlt hz' => then_lt_eq_lt.mpr
      ((key_le_iff hlt.le).elim (fun hlt => hlt.le.trans (then_lt_eq_lt.mp hz')) fun heq =>
        heq.1.le.trans (then_lt_eq_lt.mp hz'))) hpt
  rw [cdtFindChildBelow, hl]
  simp only [bind, Except.bind]
  rw [hcall]
  dsimp only
  rcases hr with ⟨rfl, hnone⟩ | ⟨hrt, hrle, hlast⟩
  · refine ⟨0, if_pos rfl, .inl ⟨rfl, fun c hc hd => ?_⟩⟩
    have hct := (hlist c).mpr hc
    exact hnone c hct (then_lt_eq_lt.mpr ((hdesc c hct).mp hd).1)
  · have hr0 := (htracks.tree.isSlot r hrt).ne_zero
    rw [if_neg hr0, compSlotWith_slotLt (htracks.caps r hrt) hp (hagree r hrt).symm]
    dsimp only
    by_cases hgt : (s.cap p).key < (s.cap r).key ∨
        (s.cap p).key = (s.cap r).key ∧ (s.cte p).tie < (s.cte r).tie
    · refine ⟨r, congrArg Except.ok (if_pos (then_then_lt_eq_gt.mpr hgt)), .inr ⟨hr0, ?_, ?_⟩⟩
      · exact htracks.caps r hrt
      · exact (hdesc r hrt).mpr ⟨then_lt_eq_lt.mp hrle, hgt⟩
    · -- a descendant would stand between the parent and the slot found
      refine ⟨0, congrArg Except.ok (if_neg fun hc => hgt (then_then_lt_eq_gt.mp hc)),
        .inl ⟨rfl, ?_⟩⟩
      intro c hc hd
      have hct := (hlist c).mpr hc
      obtain ⟨hcl, hpc⟩ := (hdesc c hct).mp hd
      have hcr := key_le_iff (hlast c hct (then_lt_eq_lt.mpr hcl))
      refine hgt ?_
      rcases hpc with hlt | ⟨heq, hdeep⟩
      · exact .inl (hcr.elim hlt.trans fun h => h.1 ▸ hlt)
      · rcases hcr with hlt | ⟨heq', hle⟩
        · exact .inl (heq ▸ hlt)
        · exact .inr ⟨heq.trans heq', hdeep.trans_le hle⟩

/-- For a parent that is not untyped memory, revocation has a slot to delete exactly as long as
there is a descendant. -/
theorem cdtFindChild_spec (h : CdtInv s) (hp : (s.cap p).InCdt)
    (hspace : (s.cap p).capSpaceType ≠ .ok .untypedMemory)
    (hrange : ∀ y, (s.cap y).InCdt → (s.cap y).InRange) :
    ∃ r, cdtFindChild s p = .ok r ∧
      (r = 0 ↔ ∀ c, (s.cap c).InCdt → ¬ s.Descends p c) ∧
      (r ≠ 0 → (s.cap r).InCdt ∧ s.Descends p r) := by
  obtain ⟨r, hcall, hr⟩ := cdtFindChildBelow_spec h hp hrange
  refine ⟨r, ?_, ⟨fun h0 => ?_, fun hnone => ?_⟩, fun h0 => ?_⟩
  · obtain ⟨sp, hsp, -⟩ := hp.space
    rw [← hcall, cdtFindChild]
    cases hcap : s.cap p with
    | untyped bits ptr =>
        rw [hcap] at hspace
        exact absurd rfl hspace
    | _ =>
        dsimp only
        rw [← hcap, hsp]
        rfl
  · exact hr.elim And.right fun hr => absurd h0 hr.1
  · exact hr.elim And.left fun hr => absurd hr.2.2 (hnone r hr.2.1)
  · exact hr.elim (fun hr => absurd hr.1 h0) And.right

/-! ## Untyped memory -/

/-- The comparison with the smallest endpoint at `top` is that of the keys, unless an asynchronous
endpoint is there. -/
theorem compSlotWith_endpoint {a : Cte} {top : Nat} (ha : a.cap.InCdt)
    (hasync : ∀ b, a.cap ≠ .asyncEndpoint b top) :
    compSlotWith a ⟨.endpoint 0 top, 0, 0⟩ largestChildComparator =
      .ok ((compare a.cap.key (Cap.endpoint 0 top).key).then .lt) := by
  by_cases hagree : a.cap.Agree (.endpoint 0 top)
  · exact compSlotWith_eq (b := ⟨.endpoint 0 top, 0, 0⟩) ha trivial hagree largestChildComparator
  · obtain ⟨hsome, hptr, hkind⟩ :
        a.cap.kind.isSome ∧ a.cap.capPtr = top ∧ a.cap.kind ≠ some 0 := by
      simp only [Cap.Agree, not_forall] at hagree
      obtain ⟨hsome, -, hptr, hkind⟩ := hagree
      exact ⟨hsome, hptr, hkind⟩
    have h1 : a.cap.kind ≠ some 1 := fun h1 => by
      obtain ⟨b, q, hcap⟩ := Cap.exists_asyncEndpoint h1
      rw [hcap] at hptr
      exact hasync b (by rw [hcap, ← hptr]; rfl)
    have hkey : a.cap.key = (Cap.endpoint 0 top).key := by
      rw [Cap.key_of_isSome hsome, hptr, Cap.capBadge_eq_zero hkind h1]
      rfl
    rw [hkey, compare_eq_iff_eq.mpr rfl]
    rcases a with ⟨cap, depth, addr⟩
    dsimp only at hsome hptr hkind h1
    subst hptr
    cases cap <;> first
      | exact absurd hsome Bool.false_ne_true
      | exact absurd rfl hkind
      | exact absurd rfl h1
      | (simp only [compSlotWith, Cap.capSpaceType, bind, Except.bind, compareSpace,
          typedComparator, typedTypeComparator]
         rw [show compare CapSpace.typedMemory.val CapSpace.typedMemory.val = .eq from rfl]
         dsimp only
         rw [compare_eq_iff_eq.mpr (by rfl)]
         rfl)

/-- An object starts between `base` and `top`. -/
def Cap.StartsIn (c : Cap) (base top : Nat) : Prop :=
  c.kind.isSome ∧ base ≤ c.capPtr ∧ c.capPtr ≤ top

theorem Cap.le_endpoint_iff {c : Cap} {top : Nat} (hsome : c.kind.isSome) :
    c.key ≤ (endpoint 0 top).key ↔ c.capPtr < top ∨ c.capPtr = top ∧ c.capBadge = 0 := by
  rw [key_of_isSome hsome, key_of_isSome (c := endpoint 0 top) rfl, Prod.Lex.toLex_le_toLex,
    Prod.Lex.toLex_le_toLex]
  simp [capPtr, capBadge]

/-- The search for a typed object in aligned memory finds one that starts there, unless all of them
are badged endpoints at the very end. It needs an object below the memory to stop at. -/
theorem cdtFindTypedInRange_spec (h : CdtInv s) {base bits : Nat} (hbits : 4 ≤ bits)
    (hend : base + 2 ^ bits ≤ 2 ^ 32)
    (hbelow : ∃ c, (s.cap c).InCdt ∧ (s.cap c).kind.isSome ∧ (s.cap c).capPtr < base)
    (hfit : ∀ c, (s.cap c).InCdt → (s.cap c).StartsIn base (base + 2 ^ bits - 2 ^ 4) →
      (s.cap c).capPtr + 2 ^ (s.cap c).capSizeBits ≤ base + 2 ^ bits)
    (hasync : ∀ c b, s.cap c ≠ .asyncEndpoint b (base + 2 ^ bits - 2 ^ 4)) :
    ∃ r, cdtFindTypedInRange s base bits = .ok r ∧
      (r = 0 ↔ ∀ c, (s.cap c).InCdt → (s.cap c).StartsIn base (base + 2 ^ bits - 2 ^ 4) →
        (s.cap c).capPtr = base + 2 ^ bits - 2 ^ 4 ∧ (s.cap c).capBadge ≠ 0) ∧
      (r ≠ 0 → (s.cap r).InCdt ∧ (s.cap r).StartsIn base (base + 2 ^ bits - 2 ^ 4)) := by
  obtain ⟨⟨t, htracks, hlist⟩, -⟩ := h
  obtain ⟨c₀, hc₀, hsome₀, hptr₀⟩ := hbelow
  have hpow : 2 ^ 4 ≤ 2 ^ bits := Nat.pow_le_pow_right (by decide) hbits
  have htop : (base + 2 ^ bits + (2 ^ 32 - 2 ^ epSizeBits)) % 2 ^ 32 = base + 2 ^ bits - 2 ^ 4 := by
    rw [epSizeBits]
    omega
  set top := base + 2 ^ bits - 2 ^ 4 with htopdef
  obtain ⟨r, hcall, hr⟩ := htracks.aaFindFromBelow_eq
    (fun y => (compare (s.cap y).key (Cap.endpoint 0 top).key).then .lt)
    (fun y hy => compSlotWith_endpoint (a := s.cte y) (htracks.caps y hy) (hasync y))
    (fun y hy z hz hlt hz' => then_lt_eq_lt.mpr
      ((key_le_iff hlt.le).elim (fun hlt => hlt.le.trans (then_lt_eq_lt.mp hz')) fun heq =>
        heq.1.le.trans (then_lt_eq_lt.mp hz'))) ((hlist c₀).mpr hc₀)
  have hle₀ : (s.cap c₀).key ≤ (Cap.endpoint 0 top).key :=
    (Cap.le_endpoint_iff hsome₀).mpr (.inl (by omega))
  -- the slot found is a typed one, for the object below the memory is not above it
  obtain ⟨hrt, hrle, hlast⟩ := hr.resolve_left fun hr =>
    hr.2 c₀ ((hlist c₀).mpr hc₀) (then_lt_eq_lt.mpr hle₀)
  have hrle := then_lt_eq_lt.mp hrle
  have hrcap := htracks.caps r hrt
  have hr0 := (htracks.tree.isSlot r hrt).ne_zero
  have hcapkey : ∀ {c}, (s.cap c).InCdt → (s.cap c).key ≤ (Cap.endpoint 0 top).key →
      (s.cap c).key ≤ (s.cap r).key := fun {c} hc hle =>
    (key_le_iff (hlast c ((hlist c).mpr hc) (then_lt_eq_lt.mpr hle))).elim le_of_lt fun h => h.1.le
  have hrsome : (s.cap r).kind.isSome := by
    have hlo := hcapkey hc₀ hle₀
    rw [Cap.key_of_isSome hsome₀] at hlo
    exact Cap.kind_isSome_of_between hlo hrle
  have hrtop : (s.cap r).capPtr ≤ top := by
    rcases (Cap.le_endpoint_iff hrsome).mp hrle with hlt | ⟨heq, -⟩ <;> omega
  have hregion : (Cap.untyped bits base).sameRegionAs (s.cap r) ↔ base ≤ (s.cap r).capPtr := by
    constructor
    · intro hin
      rw [Cap.sameRegionAs, decide_eq_true_iff] at hin
      exact hin.2.1
    · intro hin
      have hsize := hfit r hrcap ⟨hrsome, hin, hrtop⟩
      have hsizepos := Nat.two_pow_pos (s.cap r).capSizeBits
      rw [Cap.sameRegionAs, decide_eq_true_iff]
      rw [Nat.mod_eq_of_lt (by omega), Nat.mod_eq_of_lt (by omega)]
      exact ⟨by omega, hin, by omega, by omega⟩
  rw [cdtFindTypedInRange, htop]
  simp only [bind, Except.bind]
  rw [hcall]
  dsimp only
  by_cases hin : base ≤ (s.cap r).capPtr
  · rw [if_pos ⟨hr0, hregion.mpr hin⟩]
    refine ⟨r, rfl, ⟨fun h0 => absurd h0 hr0, fun hnone => ?_⟩, fun _ =>
      ⟨hrcap, hrsome, hin, hrtop⟩⟩
    obtain ⟨heq, hbadge⟩ := hnone r hrcap ⟨hrsome, hin, hrtop⟩
    rcases (Cap.le_endpoint_iff hrsome).mp hrle with hlt | ⟨-, hzero⟩
    · omega
    · exact absurd hzero hbadge
  · rw [if_neg fun hc => hin (hregion.mp hc.2)]
    refine ⟨0, rfl, ⟨fun _ c hc hstart => ?_, fun _ => rfl⟩, fun h0 => absurd rfl h0⟩
    by_contra hseen
    have hcle : (s.cap c).key ≤ (Cap.endpoint 0 top).key := by
      refine (Cap.le_endpoint_iff hstart.1).mpr ?_
      have := hstart.2.2
      by_cases heq : (s.cap c).capPtr = top
      · exact .inr ⟨heq, not_not.mp fun hbadge => hseen ⟨heq, hbadge⟩⟩
      · exact .inl (by omega)
    have hle := hcapkey hc hcle
    rw [Cap.key_of_isSome hstart.1, Cap.key_of_isSome hrsome, Prod.Lex.toLex_le_toLex,
      Prod.Lex.toLex_le_toLex] at hle
    simp only [lt_irrefl, false_or, true_and] at hle
    have := hstart.2.1
    omega

/-- For untyped memory, revocation has a slot to delete as long as a derived untyped capability or
an object is left inside, with one exception: it does not see an endpoint in the last 16 bytes whose
capabilities are all badged. The last 16 bytes must not be an asynchronous endpoint (`hasync`),
since the search compares its badge with that of an endpoint, and an object must lie below the
memory (`hbelow`), or the search can end at the parent. -/
theorem cdtFindChild_untyped_spec (h : CdtInv s) {bits ptr : Nat}
    (hcap : s.cap p = .untyped bits ptr)
    (hrange : ∀ y, (s.cap y).InCdt → (s.cap y).InRange)
    (hbelow : ∃ c, (s.cap c).InCdt ∧ (s.cap c).kind.isSome ∧ (s.cap c).capPtr < ptr)
    (hfit : ∀ c, (s.cap c).InCdt → (s.cap c).StartsIn ptr (ptr + 2 ^ bits - 2 ^ 4) →
      (s.cap c).capPtr + 2 ^ (s.cap c).capSizeBits ≤ ptr + 2 ^ bits)
    (hasync : ∀ c b, s.cap c ≠ .asyncEndpoint b (ptr + 2 ^ bits - 2 ^ 4)) (hp : (s.cap p).InCdt) :
    ∃ r, cdtFindChild s p = .ok r ∧
      (r = 0 ↔ (∀ c, (s.cap c).InCdt → ¬ s.Descends p c) ∧
        ∀ c, (s.cap c).InCdt → (s.cap c).StartsIn ptr (ptr + 2 ^ bits - 2 ^ 4) →
          ∃ badge, badge ≠ 0 ∧ s.cap c = .endpoint badge (ptr + 2 ^ bits - 2 ^ 4)) ∧
      (r ≠ 0 → (s.cap r).InCdt ∧
        (s.Descends p r ∨ (s.cap r).StartsIn ptr (ptr + 2 ^ bits - 2 ^ 4))) := by
  have hprange := hrange p hp
  rw [hcap] at hprange
  obtain ⟨h4, -, -, hend⟩ := hprange
  obtain ⟨r₁, hcall₁, hnone₁, hsome₁⟩ :=
    cdtFindTypedInRange_spec h h4 hend hbelow hfit hasync
  obtain ⟨r₂, hcall₂, hr₂⟩ := cdtFindChildBelow_spec h hp hrange
  have hbadged : ∀ c, (s.cap c).StartsIn ptr (ptr + 2 ^ bits - 2 ^ 4) →
      ((s.cap c).capPtr = ptr + 2 ^ bits - 2 ^ 4 ∧ (s.cap c).capBadge ≠ 0 ↔
        ∃ badge, badge ≠ 0 ∧ s.cap c = .endpoint badge (ptr + 2 ^ bits - 2 ^ 4)) := by
    intro c hstart
    constructor
    · rintro ⟨hptr, hbadge⟩
      cases hc : s.cap c with
      | endpoint badge q =>
          rw [hc] at hptr hbadge
          exact ⟨badge, hbadge, congrArg _ hptr⟩
      | asyncEndpoint badge q =>
          rw [hc] at hptr
          exact absurd (hc.trans (congrArg _ hptr)) (hasync c badge)
      | _ =>
          rw [hc] at hbadge
          exact absurd rfl hbadge
    · rintro ⟨badge, hbadge, hc⟩
      rw [hc]
      exact ⟨rfl, hbadge⟩
  have hunfold : cdtFindChild s p = if r₁ ≠ 0 then .ok r₁ else cdtFindChildBelow s p := by
    rw [cdtFindChild, hcap]
    simp only [bind, Except.bind]
    rw [hcall₁]
  rw [hunfold]
  by_cases h0 : r₁ = 0
  · rw [if_neg (not_not.mpr h0), hcall₂]
    have hall := hnone₁.mp h0
    refine ⟨r₂, rfl, ⟨fun hr0 => ⟨?_, fun c hc hstart => ?_⟩, fun hnone => ?_⟩, fun hr0 => ?_⟩
    · exact hr₂.elim And.right fun hr => absurd hr0 hr.1
    · exact (hbadged c hstart).mp (hall c hc hstart)
    · exact hr₂.elim And.left fun hr => absurd hr.2.2 (hnone.1 r₂ hr.2.1)
    · exact hr₂.elim (fun hr => absurd hr.1 hr0) fun hr => ⟨hr.2.1, .inl hr.2.2⟩
  · rw [if_pos h0]
    obtain ⟨hrcap, hrstart⟩ := hsome₁ h0
    refine ⟨r₁, rfl, ⟨fun hr0 => absurd hr0 h0, fun hnone => ?_⟩, fun _ => ⟨hrcap, .inr hrstart⟩⟩
    exact hnone₁.mpr fun c hc hstart => (hbadged c hstart).mpr (hnone.2 c hc hstart)

/-! ## New descendants -/

/-- A derived capability is told from a copy by its key, or else by its slot. -/
theorem Cap.descendsFrom_of_key_ne {p c : Cap} (hp : p.InCdt) (hc : c.InCdt) (hpr : p.InRange)
    (hcr : c.InRange) (hagree : p.Agree c) (h : p.DescendsFrom c True) {deeper : Prop} :
    p.DescendsFrom c deeper ↔ c.key ≠ p.key ∨ deeper := by
  obtain ⟨l, hl, -⟩ := exists_buildLargestChild hp
  obtain ⟨hle, hlt⟩ := (descendsFrom_iff hp hc hpr hcr hagree hl).mpr h
  rw [← descendsFrom_iff hp hc hpr hcr hagree hl]
  constructor
  · rintro ⟨-, hlt | ⟨-, hdeep⟩⟩
    · exact .inl hlt.ne'
    · exact .inr hdeep
  · intro hor
    refine ⟨hle, ?_⟩
    rcases hlt with hlt | ⟨heq, -⟩
    · exact .inl hlt
    · exact .inr ⟨heq, hor.resolve_left fun hne => hne heq.symm⟩

theorem Cap.space_eq_of_descendsFrom {p c : Cap} (hc : c.InCdt) (h : p.DescendsFrom c True) :
    c.capSpaceType = p.capSpaceType := by
  cases p <;> cases c <;> simp_all [DescendsFrom, InCdt, capSpaceType, kind]

theorem Cap.cteDepthBitsCap_le (c : Cap) : 2 ^ c.cteDepthBitsCap ≤ 2 ^ 5 := by
  cases c <;> simp [cteDepthBitsCap, cteDepthBits]

/-- A capability put beside the one it is derived from is its descendant, so that revoking that one
finds a slot to delete. The exception is a copy of a capability whose depth its field cannot count
up any further, and whose mapping is not larger. Untyped memory, whose children are searched for in
another way, is left out (`hspace`). -/
theorem cteInsert_descends (h : CdtInv s) (cap : Cap) (src dest : Nat)
    (hok : CdtOp.Ok s (.cteInsert cap src dest))
    (hspace : (s.cap src).capSpaceType ≠ .ok .untypedMemory)
    (hrange : ∀ y, (s.cap y).InCdt → (s.cap y).InRange) (hcapr : cap.InRange)
    (hderived : (s.cap src).DescendsFrom cap True)
    (hdepth : (s.mdb src).cdtDepth < 2 ^ cap.cteDepthBitsCap) :
    ∃ s' r, cteInsert s cap src dest = .ok s' ∧ cdtFindChild s' src = .ok r ∧
      (s'.Descends src dest ↔ cap.key ≠ (s.cap src).key ∨
        (s.mdb src).cdtDepth + 1 < 2 ^ cap.cteDepthBitsCap ∨
          (s.cap src).capExtraComp < cap.capExtraComp) ∧
      (s'.Descends src dest → r ≠ 0) := by
  obtain ⟨s₂, hrun, hinv, hcaps⟩ := CdtOp.keeps h hok
  obtain ⟨⟨t, htracks, hlist⟩, -⟩ := h
  obtain ⟨hdest, hnull, hsrc, hcap, hagree⟩ := hok
  have hne : src ≠ dest := by
    rintro rfl
    exact hsrc.ne_null hnull
  have hnew : dest ∉ t.toList := fun hmem => ((hlist dest).mp hmem).ne_null hnull
  have hsrc0 := (htracks.tree.isSlot src ((hlist src).mpr hsrc)).ne_zero
  have hself : (s.setCap dest cap).cap dest = cap := Function.update_self ..
  have hother : ∀ y, y ≠ dest → (s.setCap dest cap).cap y = s.cap y := fun y hy =>
    Function.update_of_ne hy ..
  obtain ⟨s', t', hcall, -, -, hcaps', hdepths, hnewdepth⟩ :=
    cdtInsert_tracks (htracks.setCap hnew cap) src hdest hnew (hself.symm ▸ hcap)
      (fun y hy => by
        rw [hself, hother y (ne_of_mem_of_not_mem hy hnew)]
        exact hagree y List.not_mem_nil ((hlist y).mp hy))
      (.inr (by rw [hother src hne]; exact hsrc))
  have hrun' : cteInsert s cap src dest = .ok s' := by
    rw [cteInsert, if_neg (not_not.mpr hnull)]
    exact hcall
  obtain rfl : s₂ = s' := Except.ok.inj (hrun.symm.trans hrun')
  have hcapsrc : s₂.cap src = s.cap src := by rw [hcaps', hother src hne]
  have hcapdest : s₂.cap dest = cap := by rw [hcaps', hself]
  -- the depth of the new slot
  obtain ⟨sp, hsp, -⟩ := hsrc.space
  have hspdest := Cap.space_eq_of_descendsFrom hcap hderived
  have hinsert : insertDepth (s.setCap dest cap) src dest =
      .ok (if (s.mdb src).cdtDepth + 1 = 2 ^ cap.cteDepthBitsCap then (s.mdb src).cdtDepth
        else (s.mdb src).cdtDepth + 1) := by
    rw [insertDepth, if_neg hsrc0, hother src hne, hself, hspdest, hsp]
    simp only [bind, Except.bind]
    rw [if_neg (not_not.mpr rfl)]
    rfl
  have hdepthsrc : (s₂.mdb src).cdtDepth = (s.mdb src).cdtDepth := hdepths src hne
  have hbits := cap.cteDepthBitsCap_le
  have htie : (s₂.cte src).tie < (s₂.cte dest).tie ↔
      (s.mdb src).cdtDepth + 1 < 2 ^ cap.cteDepthBitsCap ∨
        (s.cap src).capExtraComp < cap.capExtraComp := by
    have hdepthdest := hnewdepth _ hinsert
    show toLex ((s₂.mdb src).cdtDepth, (s₂.cap src).capExtraComp) <
      toLex ((s₂.mdb dest).cdtDepth, (s₂.cap dest).capExtraComp) ↔ _
    rw [Prod.Lex.toLex_lt_toLex, hdepthdest, hdepthsrc, hcapsrc, hcapdest]
    dsimp only
    split_ifs with hfull
    · rw [Nat.mod_eq_of_lt (by omega)]
      omega
    · rw [Nat.mod_eq_of_lt (by omega)]
      omega
  have hrange' : ∀ y, (s₂.cap y).InCdt → (s₂.cap y).InRange := fun y hy => by
    by_cases hyd : y = dest
    · rw [hyd, hcapdest]
      exact hcapr
    · rw [hcaps', hother y hyd] at hy ⊢
      exact hrange y hy
  have hdesc : s₂.Descends src dest ↔ cap.key ≠ (s.cap src).key ∨
      (s.mdb src).cdtDepth + 1 < 2 ^ cap.cteDepthBitsCap ∨
        (s.cap src).capExtraComp < cap.capExtraComp := by
    unfold Cdt.Descends
    rw [hcapsrc, hcapdest, Cap.descendsFrom_of_key_ne hsrc hcap (hrange src hsrc) hcapr
      (hagree src List.not_mem_nil hsrc).symm hderived, htie]
  obtain ⟨r, hfind, hnone, -⟩ := cdtFindChild_spec (p := src) hinv (by rw [hcapsrc]; exact hsrc)
    (by rw [hcapsrc]; exact hspace) hrange'
  refine ⟨s₂, r, hrun', hfind, hdesc, fun hd h0 => ?_⟩
  exact hnone.mp h0 dest (by rw [hcapdest]; exact hcap) hd

/-! ## Runs with descendants -/

theorem badged_inRange {l : List (Nat × Cap)} (hcaps : s.cap = slotCaps l)
    (h : ∀ q ∈ l, q.2.InRange) : ∀ y, (s.cap y).InCdt → (s.cap y).InRange := fun y hy => by
  rw [hcaps] at hy ⊢
  exact h _ (slotCaps_mem hy)

instance : DecidablePred Cap.InRange
  | .untyped bits ptr => inferInstanceAs
      (Decidable (4 ≤ bits ∧ bits < 2 ^ 5 ∧ ptr % 2 ^ bits = 0 ∧ ptr + 2 ^ bits ≤ 2 ^ 32))
  | .endpoint badge _ | .asyncEndpoint badge _ => inferInstanceAs (Decidable (badge < 2 ^ 28))
  | .irqHandler irq => inferInstanceAs (Decidable (irq ≤ 0xff))
  | .null | .reply _ | .irqControl | .domain | .cnode .. | .thread .. | .frame .. | .pageTable ..
  | .pageDirectory .. | .zombie .. => isTrue trivial

/-- An endpoint alone in the tree. -/
def oneEndpoint : Cdt where
  cap := slotCaps [(0xE0000030, .endpoint 0 0xE0010000)]
  mdb _ := { mdbNodeNew 0 with cdtLevel := 1 }
  ksRootCTE := 0xE0000030

theorem cdtInv_oneEndpoint : CdtInv oneEndpoint := by
  have hlive : ∀ x, (oneEndpoint.cap x).InCdt → x = 0xE0000030 := fun x hx => by
    have hmem := slotCaps_mem (y := x) hx
    exact congrArg Prod.fst (List.mem_singleton.mp hmem)
  refine ⟨⟨.node 1 .nil 0xE0000030 .nil, ⟨?_, ?_, ?_, ?_, ?_⟩, fun x => ?_⟩, fun x => ?_⟩
  · exact ⟨rfl, by decide, rfl, by decide, rfl, rfl⟩
  · exact AATree.inv_node.mpr ⟨trivial, trivial, rfl, .inl rfl⟩
  · exact List.pairwise_singleton _ _
  · intro x hx
    obtain rfl := List.mem_singleton.mp hx
    trivial
  · intro x hx y hy
    obtain rfl := List.mem_singleton.mp hx
    obtain rfl := List.mem_singleton.mp hy
    exact fun _ _ _ => rfl
  · refine ⟨fun hx => ?_, fun hx => List.mem_singleton.mpr (hlive x hx)⟩
    obtain rfl := List.mem_singleton.mp hx
    trivial
  · by_cases hx : x = 0xE0000030
    · subst hx
      exact .inl trivial
    · refine .inr (.inl ?_)
      show slotCaps [(0xE0000030, .endpoint 0 0xE0010000)] x = .null
      simp [slotCaps, List.lookup_cons, beq_eq_false_iff_ne.mpr hx]

/-- A badged copy of the endpoint is its descendant, and found. -/
theorem cteInsert_descends_badged : ∃ s' r,
    cteInsert oneEndpoint (.endpoint 7 0xE0010000) 0xE0000030 0xE0000040 = .ok s' ∧
      cdtFindChild s' 0xE0000030 = .ok r ∧ r ≠ 0 := by
  obtain ⟨s', r, hcall, hfind, hiff, hne⟩ := cteInsert_descends cdtInv_oneEndpoint
    (.endpoint 7 0xE0010000) 0xE0000030 0xE0000040
    ⟨by decide, rfl, trivial, fits_slotCaps rfl trivial (by decide)⟩ (fun h => nomatch h)
    (badged_inRange rfl (by decide)) (by decide) ⟨rfl, .inr ⟨rfl, by decide⟩⟩ (by decide)
  exact ⟨s', r, hcall, hfind, hne (hiff.mpr (.inl (by decide)))⟩

/-- The badged copy of an endpoint is found from the endpoint. -/
theorem cdtFindChild_badged : ∃ s r, CdtInv s ∧ s.cap 0xE0000030 = .endpoint 0 0xE0010000 ∧
    cdtFindChild s 0xE0000030 = .ok r ∧ r ≠ 0 := by
  obtain ⟨s, -, hinv, hcaps⟩ := exists_badged
  obtain ⟨r, hfind, hnone, -⟩ := cdtFindChild_spec (p := 0xE0000030) hinv (by rw [hcaps]; trivial)
    (by rw [hcaps]; exact fun h => nomatch h) (badged_inRange hcaps (by decide))
  refine ⟨s, r, hinv, by rw [hcaps]; rfl, hfind, fun h0 => ?_⟩
  refine hnone.mp h0 0xE0000040 (by rw [hcaps]; trivial) ?_
  unfold Cdt.Descends
  rw [hcaps]
  exact ⟨rfl, .inr ⟨rfl, by decide⟩⟩

/-- The badged copy of an endpoint at the end of untyped memory is not found from that memory once
the endpoint's own capability is gone. -/
theorem cdtFindChild_untyped_badged : ∃ s ops,
    Run (fun s op => CdtOp.run s op) CdtOp.Ok Cdt.init ops s ∧
      s.cap 0xE0000020 = .untyped 4 0xE0010000 ∧ s.cap 0xE0000040 = .endpoint 7 0xE0010000 ∧
      cdtFindChild s 0xE0000020 = .ok 0 := by
  obtain ⟨s₀, h₀⟩ := exists_badged
  obtain ⟨s, ⟨ops, hrun⟩, hinv, hcaps⟩ := h₀.emptySlot 0xE0000030 trivial
  have hlive : ∀ c, (s.cap c).InCdt → c = 0xE0000040 ∨ c = 0xE0000020 ∨ c = 0xE0000010 :=
    fun c hc => by
      rw [hcaps] at hc
      have hmem := slotCaps_mem hc
      simp only [badgedCaps, List.mem_cons, Prod.mk.injEq, List.not_mem_nil, or_false] at hmem
      rcases hmem with ⟨rfl, -⟩ | ⟨rfl, -⟩ | ⟨rfl, -⟩ | ⟨rfl, -⟩ | ⟨rfl, -⟩
      · exact hc.elim
      · exact .inl rfl
      · exact hc.elim
      · exact .inr (.inl rfl)
      · exact .inr (.inr rfl)
  have h₄ : s.cap 0xE0000040 = .endpoint 7 0xE0010000 := by rw [hcaps]; rfl
  have h₂ : s.cap 0xE0000020 = .untyped 4 0xE0010000 := by rw [hcaps]; rfl
  have h₁ : s.cap 0xE0000010 = .cnode 4 0xE0001000 := by rw [hcaps]; rfl
  obtain ⟨r, hfind, hnone, -⟩ := cdtFindChild_untyped_spec hinv h₂
    (badged_inRange hcaps (by decide)) ⟨0xE0000010, by rw [h₁]; trivial, by rw [h₁]; rfl,
      by rw [h₁]; decide⟩
    (fun c hc hstart => by
      rcases hlive c hc with rfl | rfl | rfl
      · rw [h₄]
        decide
      · rw [h₂] at hstart
        exact nomatch hstart.1
      · rw [h₁] at hstart
        exact absurd hstart.2.1 (by decide))
    (fun c b hc => by
      rcases hlive c (by rw [hc]; trivial) with rfl | rfl | rfl
      · exact nomatch h₄.symm.trans hc
      · exact nomatch h₂.symm.trans hc
      · exact nomatch h₁.symm.trans hc) (by rw [h₂]; decide)
  obtain rfl : r = 0 := by
    refine hnone.mpr ⟨fun c hc hd => ?_, fun c hc hstart => ?_⟩
    · unfold Cdt.Descends at hd
      rw [h₂] at hd
      rcases hlive c hc with rfl | rfl | rfl
      · rw [h₄] at hd
        exact nomatch hd.1
      · rw [h₂] at hd
        exact hd.2.2.elim (lt_irrefl _) (lt_irrefl _)
      · rw [h₁] at hd
        exact nomatch hd.1
    · rcases hlive c hc with rfl | rfl | rfl
      · exact ⟨7, by decide, h₄⟩
      · rw [h₂] at hstart
        exact nomatch hstart.1
      · rw [h₁] at hstart
        exact absurd hstart.2.1 (by decide)
  exact ⟨s, ops, hrun, h₂, h₄, hfind⟩

end PartitionSeL4.Kernel
