import PartitionSeL4.Kernel.Cdt

/-!
# Insertion into and removal from the derivation tree

`aaInsert` and `aaRemove` in memory are the insertion and the removal of `Lib.AATree`
(`aaInsert_refines`, `aaRemove_refines`), as long as the comparisons they make are comparisons of
keys. Their recursion is no deeper than the tree is high, and no level leaves its field.
-/

namespace PartitionSeL4.Kernel

open Lib Cdt

variable {s s' : Cdt} {p : Nat} {t : AATree Nat} {xs : List Nat}

/-! ## Insertion -/

section Insert

variable {x : Nat}

theorem insert_perm (hx : x ∉ t.toList) : (t.insert s.key x).toList.Perm (x :: t.toList) :=
  AATree.toList_insert_perm fun _ hb hkey => hx (key_injective hkey ▸ hb)

/-- A tree of fewer than `2 ^ 31` slots has levels that fit their field. -/
theorem level_lt (h : t.Inv) (hsize : t.toList.length + 1 < 2 ^ 32) : t.level < 2 ^ 5 := by
  by_contra hge
  have hpow : 2 ^ 32 ≤ 2 ^ t.level := Nat.pow_le_pow_right (by decide) (by omega)
  exact absurd (AATree.two_pow_level_le h) (by omega)

theorem skewSplit_refines {u : AATree Nat} (hu : TreeAt s' p u) (hn : u.toList.Nodup)
    (hs : s.Rewrites s' xs) (hinv : u.skew.split.Inv) (hsub : ∀ y ∈ u.toList, y ∈ xs)
    (hsize : u.toList.length + 1 < 2 ^ 32) :
    Refines s xs (do
      let (s, rootSlot) ← aaSkew s' p
      aaSplit s rootSlot) u.skew.split := by
  obtain ⟨s₁, p₁, hskew, hrepr₁, hrw₁⟩ := aaSkew_refines hu hn
  have hn₁ : u.skew.toList.Nodup := by rwa [AATree.toList_skew]
  have hlevel : u.skew.split.level < 2 ^ 5 :=
    level_lt hinv (by rwa [AATree.toList_split, AATree.toList_skew])
  obtain ⟨s₂, p₂, hsplit, hrepr₂, hrw₂⟩ := aaSplit_refines hrepr₁ hn₁ hlevel
  rw [AATree.toList_skew] at hrw₂
  refine ⟨s₂, p₂, ?_, hrepr₂, hs.trans ((hrw₁.trans hrw₂).mono hsub)⟩
  rw [hskew]
  exact hsplit

theorem aaInsert_refines {fuel : Nat} (h : TreeAt s p t) (hn : t.toList.Nodup) (hinv : t.Inv)
    (hx : IsSlot x) (hnew : x ∉ t.toList)
    (hleaf : (s.mdb x).cdtLeft = 0 ∧ (s.mdb x).cdtRight = 0)
    (hcmp : ∀ y ∈ t.toList, compSlot (s.cte x) (s.cte y) = .ok (compare (s.key x) (s.key y)))
    (hsize : t.toList.length + 2 < 2 ^ 32) (hfuel : t.height < fuel) :
    Refines s (x :: t.toList) (aaInsert fuel s p x) (t.insert s.key x) := by
  induction t generalizing p fuel with
  | nil =>
      obtain ⟨fuel, rfl⟩ := Nat.exists_eq_succ_of_ne_zero (Nat.ne_zero_of_lt hfuel)
      rw [show p = 0 from h, aaInsert, if_neg hx.ne_zero, if_neg hx.ne_zero, if_pos rfl,
        setLevel_eq (by decide)]
      refine ⟨_, x, rfl, ?_, rewrites_modify (List.mem_cons_self ..) fun _ => rfl⟩
      exact .node hx (by decide) modify_mdb_self rfl hleaf.1 hleaf.2
  | node lv l a r ihl ihr =>
      obtain ⟨fuel, rfl⟩ := Nat.exists_eq_succ_of_ne_zero (Nat.ne_zero_of_lt hfuel)
      obtain ⟨rfl, ha, hlevel, hlt, hl, hr⟩ := id h
      obtain ⟨hinvl, hinvr, -, -⟩ := id hinv
      obtain ⟨hnl, hnr, hal, har, hdisj⟩ := nodup_node hn
      have hxa : x ≠ p := fun hxa => hnew (mem_node.mpr (.inr (.inl hxa)))
      have hxl : x ∉ l.toList := fun hxl => hnew (mem_node.mpr (.inl hxl))
      have hxr : x ∉ r.toList := fun hxr => hnew (mem_node.mpr (.inr (.inr hxr)))
      have hlen : (AATree.node lv l p r).toList.length =
          l.toList.length + (r.toList.length + 1) := by
        rw [AATree.toList_node, List.length_append, List.length_cons]
      rw [AATree.height] at hfuel
      have hinsert : ((AATree.node lv l p r).insert s.key x).Inv := (AATree.Inv.insert hinv).1
      rw [aaInsert, if_neg hx.ne_zero, if_neg hxa, if_neg ha.ne_zero,
        hcmp p (mem_node.mpr (.inr (.inl rfl)))]
      rw [AATree.insert] at hinsert ⊢
      rcases lt_trichotomy (s.key x) (s.key p) with hless | heq | hgreater
      · rw [if_neg hless.not_gt, if_pos hless] at hinsert ⊢
        have hfuell : l.height < fuel := by omega
        obtain ⟨s₁, q, hcall, hrepr, hrw⟩ := ihl hl hnl hinvl hxl
          (fun y hy => hcmp y (mem_node.mpr (.inl hy))) (by omega) hfuell
        have hperm := insert_perm (s := s) hxl
        have hpl : p ∉ x :: l.toList := List.not_mem_cons_of_ne_of_not_mem (Ne.symm hxa) hal
        have hrl : ∀ y ∈ r.toList, y ∉ x :: l.toList := fun y hy =>
          List.not_mem_cons_of_ne_of_not_mem (fun hyx => hxr (hyx ▸ hy)) fun hyl => hdisj y hyl hy
        obtain ⟨s₂, hset, hrepr₂, hrw₂⟩ := h.setLeft har hrw hpl hrl hrepr
          (fun hmem => hpl (hperm.mem_iff.mp hmem))
        have hall : (AATree.node lv (l.insert s.key x) p r).toList.Perm
            (x :: (AATree.node lv l p r).toList) := by
          rw [AATree.toList_node, AATree.toList_node, ← List.cons_append]
          exact hperm.append_right _
        obtain ⟨s₃, p₃, hcall₃, hrefine⟩ := skewSplit_refines hrepr₂
          (hall.nodup_iff.mpr (List.nodup_cons.mpr ⟨hnew, hn⟩))
          (hrw₂.mono fun y hy => by
            rw [List.mem_cons, List.mem_cons] at hy
            rw [List.mem_cons, mem_node]
            exact hy.elim (fun h => .inr (.inr (.inl h))) fun h => h.imp_right .inl)
          hinsert (fun y hy => hall.mem_iff.mp hy)
          (by rw [hall.length_eq, List.length_cons]; omega)
        refine ⟨s₃, p₃, ?_, hrefine⟩
        rw [compare_lt_iff_lt.mpr hless]
        simp only [bind, Except.bind] at hcall₃ ⊢
        rw [hcall]
        dsimp only
        rw [hset]
        exact hcall₃
      · exact absurd (key_injective heq) hxa
      · rw [if_pos hgreater] at hinsert ⊢
        have hfuelr : r.height < fuel := by omega
        obtain ⟨s₁, q, hcall, hrepr, hrw⟩ := ihr hr hnr hinvr hxr
          (fun y hy => hcmp y (mem_node.mpr (.inr (.inr hy)))) (by omega) hfuelr
        have hperm := insert_perm (s := s) hxr
        have hpr : p ∉ x :: r.toList := List.not_mem_cons_of_ne_of_not_mem (Ne.symm hxa) har
        have hlr : ∀ y ∈ l.toList, y ∉ x :: r.toList := fun y hy =>
          List.not_mem_cons_of_ne_of_not_mem (fun hyx => hxl (hyx ▸ hy)) (hdisj y hy)
        obtain ⟨s₂, hset, hrepr₂, -, hrw₂⟩ := h.setRight hal hrw hpr hlr hrepr
          (fun hmem => hpr (hperm.mem_iff.mp hmem))
        have hall : (AATree.node lv l p (r.insert s.key x)).toList.Perm
            (x :: (AATree.node lv l p r).toList) := by
          rw [AATree.toList_node, AATree.toList_node]
          refine ((hperm.cons p).append_left l.toList).trans ?_
          exact ((List.Perm.swap x p r.toList).append_left l.toList).trans List.perm_middle
        obtain ⟨s₃, p₃, hcall₃, hrefine⟩ := skewSplit_refines hrepr₂
          (hall.nodup_iff.mpr (List.nodup_cons.mpr ⟨hnew, hn⟩))
          (hrw₂.mono fun y hy => by
            rw [List.mem_cons, List.mem_cons] at hy
            rw [List.mem_cons, mem_node]
            exact hy.elim (fun h => .inr (.inr (.inl h))) fun h => h.imp_right (.inr ∘ .inr))
          hinsert (fun y hy => hall.mem_iff.mp hy)
          (by rw [hall.length_eq, List.length_cons]; omega)
        refine ⟨s₃, p₃, ?_, hrefine⟩
        rw [compare_gt_iff_gt.mpr hgreater]
        simp only [bind, Except.bind] at hcall₃ ⊢
        rw [hcall]
        dsimp only
        rw [hset]
        exact hcall₃

end Insert

/-! ## Removal -/

theorem aaPred_eq {fuel : Nat} (h : TreeAt s p t) (hne : t ≠ .nil) (hfuel : t.height ≤ fuel) :
    ∃ m, t.last? = some m ∧ aaPred fuel s p = .ok m := by
  induction t generalizing p fuel with
  | nil => exact absurd rfl hne
  | node lv l a r ihl ihr =>
      obtain ⟨rfl, -, -, -, -, hr⟩ := h
      rw [AATree.height] at hfuel
      obtain ⟨fuel, rfl⟩ := Nat.exists_eq_succ_of_ne_zero (Nat.ne_zero_of_lt hfuel)
      rw [aaPred]
      cases r with
      | nil => exact ⟨p, rfl, if_pos hr⟩
      | node lvr rl b rr =>
          have hright : (s.mdb p).cdtRight ≠ 0 := by
            intro h0
            cases hr.eq_zero_iff.mp h0
          rw [if_neg hright]
          exact ihr hr (by simp) (by omega)

theorem aaSucc_eq {fuel : Nat} (h : TreeAt s p t) (hne : t ≠ .nil) (hfuel : t.height ≤ fuel) :
    ∃ m, t.first? = some m ∧ aaSucc fuel s p = .ok m := by
  induction t generalizing p fuel with
  | nil => exact absurd rfl hne
  | node lv l a r ihl ihr =>
      obtain ⟨rfl, -, -, -, hl, -⟩ := h
      rw [AATree.height] at hfuel
      obtain ⟨fuel, rfl⟩ := Nat.exists_eq_succ_of_ne_zero (Nat.ne_zero_of_lt hfuel)
      rw [aaSucc]
      cases l with
      | nil => exact ⟨p, rfl, if_pos hl⟩
      | node lvl ll b lr =>
          have hleft : (s.mdb p).cdtLeft ≠ 0 := by
            intro h0
            cases hl.eq_zero_iff.mp h0
          rw [if_neg hleft]
          exact ihl hl (by simp) (by omega)

theorem TreeAt.isSlot (h : TreeAt s p t) : ∀ y ∈ t.toList, IsSlot y := by
  induction t generalizing p with
  | nil => exact fun y hy => nomatch hy
  | node lv l a r ihl ihr =>
      obtain ⟨-, ha, -, -, hl, hr⟩ := h
      intro y hy
      rcases mem_node.mp hy with hy | rfl | hy
      · exact ihl hl y hy
      · exact ha
      · exact ihr hr y hy

section Remove

variable {x : Nat}

theorem ordered_nodup (h : t.Ordered s.key) : t.toList.Nodup :=
  h.imp fun hlt heq => absurd (congrArg s.key heq) hlt.ne

theorem mem_remove (h : t.Ordered s.key) {y : Nat} :
    y ∈ (t.remove s.key x).toList ↔ y ∈ t.toList ∧ y ≠ x := by
  rw [AATree.toList_remove h, List.mem_filter, decide_eq_true_iff, key_injective.ne_iff]

theorem rebalance_refines {u : AATree Nat} (hu : TreeAt s' p u) (hn : u.toList.Nodup)
    (hs : s.Rewrites s' t.toList) (hshrink : t.Shrinks u.rebalance) (hlevel : t.level < 2 ^ 5)
    (hsub : ∀ y ∈ u.toList, y ∈ t.toList) :
    Refines s t.toList (aaRebalance s' p) u.rebalance := by
  have hlt : u.rebalance.level < 2 ^ 5 := by
    rcases hshrink.2 with ⟨hsame, -⟩ | hdown <;> omega
  obtain ⟨s₁, p₁, hcall, hrepr, hrw⟩ := aaRebalance_refines hu hn hshrink.1 hlt
  exact ⟨s₁, p₁, hcall, hrepr, hs.trans (hrw.mono hsub)⟩

theorem replace_refines {lv ql qr : Nat} {l r : AATree Nat} (hx : IsSlot x) (hlt : lv < 2 ^ 5)
    (hl : TreeAt s ql l) (hr : TreeAt s qr r) (hxl : x ∉ l.toList) (hxr : x ∉ r.toList) :
    ∃ s₁ s₂, (s.setLevel x lv).setRight x qr = .ok s₁ ∧ s₁.setLeft x ql = .ok s₂ ∧
      TreeAt s₂ x (.node lv l x r) ∧ s.Rewrites s₂ [x] := by
  rw [setLevel_eq hlt, setRight_eq hr.link]
  refine ⟨_, _, rfl, setLeft_eq hl.link, ?_⟩
  set s₁ := s.modify x fun n => { n with cdtLevel := lv } with hs₁
  set s₂ := s₁.modify x fun n => { n with cdtRight := qr } with hs₂
  set s₃ := s₂.modify x fun n => { n with cdtLeft := ql } with hs₃
  have hmem : x ∈ [x] := List.mem_singleton_self x
  have hrw₁ : s.Rewrites s₁ [x] := rewrites_modify hmem fun _ => rfl
  have hrw₂ : s₁.Rewrites s₂ [x] := rewrites_modify hmem fun _ => rfl
  have hrw₃ : s₂.Rewrites s₃ [x] := rewrites_modify hmem fun _ => rfl
  have hrw : s.Rewrites s₃ [x] := (hrw₁.trans hrw₂).trans hrw₃
  have hmdb : s₃.mdb x = { s.mdb x with cdtLevel := lv, cdtRight := qr, cdtLeft := ql } := by
    rw [hs₃, modify_mdb_self, hs₂, modify_mdb_self, hs₁, modify_mdb_self]
  refine ⟨.node hx hlt hmdb rfl ?_ ?_, hrw⟩
  · exact hl.frame hrw fun y hy hy' => hxl (List.mem_singleton.mp hy' ▸ hy)
  · exact hr.frame hrw fun y hy hy' => hxr (List.mem_singleton.mp hy' ▸ hy)

theorem aaRemoveNode_refines {fuel lv : Nat} {l r : AATree Nat}
    {remove : Cdt → Nat → Nat → Except KernelFault (Cdt × Nat)} (h : TreeAt s x (.node lv l x r))
    (ho : (AATree.node lv l x r).Ordered s.key) (hfuell : l.height ≤ fuel)
    (hfuelr : r.height ≤ fuel)
    (hremovel : ∀ m ∈ l.toList,
      Refines s l.toList (remove s (s.mdb x).cdtLeft m) (l.remove s.key m))
    (hremover : ∀ m ∈ r.toList,
      Refines s r.toList (remove s (s.mdb x).cdtRight m) (r.remove s.key m)) :
    ∃ s' p', aaRemoveNode fuel remove s x = .ok (s', p') ∧
      TreeAt s' p' (AATree.removeRoot s.key lv l r) ∧
      (AATree.removeRoot s.key lv l r).toList.Nodup ∧
      s.Rewrites s' (AATree.node lv l x r).toList ∧
      ∀ y ∈ (AATree.removeRoot s.key lv l r).toList, y ∈ (AATree.node lv l x r).toList := by
  obtain ⟨-, hx, hlevel, hlt, hl, hr⟩ := id h
  obtain ⟨hol, hor, -, -⟩ := AATree.ordered_node.mp ho
  obtain ⟨hnl, hnr, hxl, hxr, hdisj⟩ := nodup_node (ordered_nodup ho)
  have hleft : ∀ y ∈ l.toList, y ∈ (AATree.node lv l x r).toList := fun y hy =>
    mem_node.mpr (.inl hy)
  have hright : ∀ y ∈ r.toList, y ∈ (AATree.node lv l x r).toList := fun y hy =>
    mem_node.mpr (.inr (.inr hy))
  unfold AATree.removeRoot
  rw [aaRemoveNode, hlevel]
  by_cases hlnil : l = .nil
  · have hlink : (s.mdb x).cdtLeft = 0 := hl.eq_zero_iff.mpr hlnil
    subst hlnil
    rw [if_neg (not_not.mpr hlink)]
    by_cases hrnil : r = .nil
    · have hlink' : (s.mdb x).cdtRight = 0 := hr.eq_zero_iff.mpr hrnil
      subst hrnil
      rw [if_neg (not_not.mpr hlink')]
      exact ⟨s, 0, rfl, rfl, List.nodup_nil, .refl, fun y hy => nomatch hy⟩
    · have hlink' : (s.mdb x).cdtRight ≠ 0 := fun h0 => hrnil (hr.eq_zero_iff.mp h0)
      rw [if_pos hlink']
      obtain ⟨m, hfirst, hsucc⟩ := aaSucc_eq hr hrnil hfuelr
      obtain ⟨tail, htail⟩ := AATree.exists_of_first? hfirst
      have hm : m ∈ r.toList := htail ▸ List.mem_cons_self ..
      obtain ⟨s₁, q, hcall, hrepr, hrw⟩ := hremover m hm
      have hmr : m ∉ (r.remove s.key m).toList := fun hmem => ((mem_remove hor).mp hmem).2 rfl
      have hnil : TreeAt s₁ 0 .nil := rfl
      obtain ⟨s₂, s₃, hset₂, hset₃, hrepr₃, hrw₃⟩ :=
        replace_refines (hr.isSlot m hm) hlt hnil hrepr (fun hy => nomatch hy) hmr
      rw [hfirst]
      refine ⟨s₃, m, ?_, hrepr₃, ?_, ?_, ?_⟩
      · rw [hsucc]
        simp only [bind, Except.bind]
        rw [hcall]
        dsimp only
        rw [hset₂]
        dsimp only
        rw [hset₃]
      · exact node_nodup hnl (ordered_nodup (AATree.Ordered.remove hor)) (fun hy => nomatch hy) hmr
          fun y hy => nomatch hy
      · refine (hrw.mono hright).trans (hrw₃.mono fun y hy => ?_)
        exact List.mem_singleton.mp hy ▸ hright m hm
      · intro y hy
        rcases mem_node.mp hy with hy | rfl | hy
        · exact nomatch hy
        · exact hright y hm
        · exact hright y ((mem_remove hor).mp hy).1
  · have hlink : (s.mdb x).cdtLeft ≠ 0 := fun h0 => hlnil (hl.eq_zero_iff.mp h0)
    rw [if_pos hlink]
    obtain ⟨m, hlast, hpred⟩ := aaPred_eq hl hlnil hfuell
    obtain ⟨init, hinit⟩ := AATree.exists_of_last? hlast
    have hm : m ∈ l.toList := hinit ▸ List.mem_append_right _ (List.mem_singleton_self m)
    obtain ⟨s₁, q, hcall, hrepr, hrw⟩ := hremovel m hm
    have hml : m ∉ (l.remove s.key m).toList := fun hmem => ((mem_remove hol).mp hmem).2 rfl
    have hsub : ∀ y ∈ (l.remove s.key m).toList, y ∈ l.toList := fun y hy =>
      ((mem_remove hol).mp hy).1
    obtain ⟨s₂, s₃, hset₂, hset₃, hrepr₃, hrw₃⟩ :=
      replace_refines (hl.isSlot m hm) hlt hrepr (hr.frame hrw fun y hy hyl => hdisj y hyl hy) hml
        (hdisj m hm)
    rw [hlast]
    refine ⟨s₃, m, ?_, hrepr₃, ?_, ?_, ?_⟩
    · rw [hpred]
      simp only [bind, Except.bind]
      rw [hcall]
      dsimp only
      rw [hset₂]
      dsimp only
      rw [hset₃]
    · exact node_nodup (ordered_nodup (AATree.Ordered.remove hol)) hnr hml (hdisj m hm)
        fun y hy => hdisj y (hsub y hy)
    · refine (hrw.mono hleft).trans (hrw₃.mono fun y hy => ?_)
      exact List.mem_singleton.mp hy ▸ hleft m hm
    · intro y hy
      rcases mem_node.mp hy with hy | rfl | hy
      · exact hleft y (hsub y hy)
      · exact hleft y hm
      · exact hright y hy

theorem aaRemove_refines {fuel : Nat} (h : TreeAt s p t) (ho : t.Ordered s.key) (hinv : t.Inv)
    (hx : x ∈ t.toList)
    (hcmp : ∀ y ∈ t.toList, ∀ z ∈ t.toList,
      compSlot (s.cte y) (s.cte z) = .ok (compare (s.key y) (s.key z)))
    (hfuel : t.height < fuel) :
    Refines s t.toList (aaRemove fuel s p x) (t.remove s.key x) := by
  induction t generalizing p fuel x with
  | nil => exact nomatch hx
  | node lv l a r ihl ihr =>
      obtain ⟨fuel, rfl⟩ := Nat.exists_eq_succ_of_ne_zero (Nat.ne_zero_of_lt hfuel)
      obtain ⟨rfl, ha, hlevel, hlt, hl, hr⟩ := id h
      obtain ⟨hinvl, hinvr, -, -⟩ := id hinv
      obtain ⟨hol, hor, hlp, hpr⟩ := AATree.ordered_node.mp ho
      have hn := ordered_nodup ho
      obtain ⟨hnl, hnr, hal, har, hdisj⟩ := nodup_node hn
      have hmem : p ∈ (AATree.node lv l p r).toList := mem_node.mpr (.inr (.inl rfl))
      have hleft : ∀ y ∈ l.toList, y ∈ (AATree.node lv l p r).toList := fun y hy =>
        mem_node.mpr (.inl hy)
      have hright : ∀ y ∈ r.toList, y ∈ (AATree.node lv l p r).toList := fun y hy =>
        mem_node.mpr (.inr (.inr hy))
      have hsubl : ∀ {z}, ∀ y ∈ (l.remove s.key z).toList, y ∈ l.toList := fun y hy =>
        ((mem_remove hol).mp hy).1
      have hsubr : ∀ {z}, ∀ y ∈ (r.remove s.key z).toList, y ∈ r.toList := fun y hy =>
        ((mem_remove hor).mp hy).1
      have hnl' : ∀ {z}, (l.remove s.key z).toList.Nodup :=
        ordered_nodup (AATree.Ordered.remove hol)
      have hnr' : ∀ {z}, (r.remove s.key z).toList.Nodup :=
        ordered_nodup (AATree.Ordered.remove hor)
      rw [AATree.height] at hfuel
      have hfuell : l.height < fuel := by omega
      have hfuelr : r.height < fuel := by omega
      have hshrink : (AATree.node lv l p r).Shrinks ((AATree.node lv l p r).remove s.key x) :=
        AATree.Inv.remove hinv
      rw [aaRemove, if_neg (h.isSlot x hx).ne_zero, if_neg ha.ne_zero, hcmp x hx p hmem]
      rcases lt_trichotomy (s.key x) (s.key p) with hless | heq | hgreater
      · rw [AATree.remove, if_neg hless.not_gt, if_pos hless] at hshrink ⊢
        have hxl : x ∈ l.toList := by
          rcases mem_node.mp hx with hxl | rfl | hxr
          · exact hxl
          · exact absurd hless (lt_irrefl _)
          · exact absurd (hpr x hxr) hless.not_gt
        obtain ⟨s₁, q, hcall, hrepr, hrw⟩ := ihl hl hol hinvl hxl
          (fun y hy z hz => hcmp y (hleft y hy) z (hleft z hz)) hfuell
        obtain ⟨s₂, hset, hrepr₂, hrw₂⟩ := h.setLeft har hrw hal (fun y hy hyl => hdisj y hyl hy)
          hrepr fun hy => hal (hsubl p hy)
        have hn₂ : (AATree.node lv (l.remove s.key x) p r).toList.Nodup :=
          node_nodup hnl' hnr (fun hy => hal (hsubl p hy)) har fun y hy => hdisj y (hsubl y hy)
        obtain ⟨s₃, p₃, hcall₃, hrefine⟩ := rebalance_refines hrepr₂ hn₂
          (hrw₂.mono fun y hy => by
            rcases List.mem_cons.mp hy with rfl | hy
            · exact hmem
            · exact hleft y hy) hshrink hlt
          (fun y hy => mem_node.mpr ((mem_node.mp hy).imp_left (hsubl y)))
        refine ⟨s₃, p₃, ?_, hrefine⟩
        rw [compare_lt_iff_lt.mpr hless]
        simp only [bind, Except.bind]
        rw [hcall]
        dsimp only
        rw [hset]
        exact hcall₃
      · have hxp : x = p := key_injective heq
        subst hxp
        rw [AATree.remove_root s.key rfl] at hshrink ⊢
        obtain ⟨s₁, q, hcall, hrepr, hnu, hrw, hsub⟩ := aaRemoveNode_refines h ho hfuell.le
          hfuelr.le
          (fun m hm => ihl hl hol hinvl hm (fun y hy z hz => hcmp y (hleft y hy) z (hleft z hz))
            hfuell)
          (fun m hm => ihr hr hor hinvr hm
            (fun y hy z hz => hcmp y (hright y hy) z (hright z hz)) hfuelr)
        obtain ⟨s₂, p₂, hcall₂, hrefine⟩ := rebalance_refines hrepr hnu hrw hshrink hlt hsub
        refine ⟨s₂, p₂, ?_, hrefine⟩
        rw [compare_eq_iff_eq.mpr rfl]
        simp only [bind, Except.bind]
        rw [hcall]
        exact hcall₂
      · rw [AATree.remove, if_pos hgreater] at hshrink ⊢
        have hxr : x ∈ r.toList := by
          rcases mem_node.mp hx with hxl | rfl | hxr
          · exact absurd (hlp x hxl) hgreater.not_gt
          · exact absurd hgreater (lt_irrefl _)
          · exact hxr
        obtain ⟨s₁, q, hcall, hrepr, hrw⟩ := ihr hr hor hinvr hxr
          (fun y hy z hz => hcmp y (hright y hy) z (hright z hz)) hfuelr
        obtain ⟨s₂, hset, hrepr₂, -, hrw₂⟩ := h.setRight hal hrw har hdisj hrepr
          fun hy => har (hsubr p hy)
        have hn₂ : (AATree.node lv l p (r.remove s.key x)).toList.Nodup :=
          node_nodup hnl hnr' hal (fun hy => har (hsubr p hy)) fun y hy hy' =>
            hdisj y hy (hsubr y hy')
        obtain ⟨s₃, p₃, hcall₃, hrefine⟩ := rebalance_refines hrepr₂ hn₂
          (hrw₂.mono fun y hy => by
            rcases List.mem_cons.mp hy with rfl | hy
            · exact hmem
            · exact hright y hy) hshrink hlt
          (fun y hy => mem_node.mpr ((mem_node.mp hy).imp_right (Or.imp_right (hsubr y))))
        refine ⟨s₃, p₃, ?_, hrefine⟩
        rw [compare_gt_iff_gt.mpr hgreater]
        simp only [bind, Except.bind]
        rw [hcall]
        dsimp only
        rw [hset]
        exact hcall₃

end Remove

end PartitionSeL4.Kernel
