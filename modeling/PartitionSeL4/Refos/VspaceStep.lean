import PartitionSeL4.Refos.Vspace

/-!
# What a call does to an address space

`VsChange` says once what a call can do to an address space: look up windows and unmap pages,
create, delete or resize a window, map pages. `vspaceStep_spec` says that every call does one of
these things in every address space, and keeps `VspaceOk`: every associated window is in the table
of windows, as a window of the process.
-/

namespace PartitionSeL4.Refos

open Lib

/-! ## What a call can do -/

/-- Pages are only taken out. -/
def Unmaps (pages pages' : Nat → Option Mapping) : Prop :=
  ∀ page m, pages' page = some m → pages page = some m

/-- At most the list is sorted and pages are taken out. -/
structure OnlyLooks (vs vs' : Vspace) : Prop where
  pid : vs'.pid = vs.pid
  windows : vs'.windows = vs.windows ∨ vs'.windows = wAssociateUpdate vs.windows
  pages : Unmaps vs.pages vs'.pages

/-- The change of the address space of `pid`. -/
inductive VsChange (pid : Nat) (vs vs' : Vspace) : VspaceEvent → Prop
  | lookup {e : VspaceEvent} (looks : OnlyLooks vs vs')
      (absent : ∀ wID, e = .delete pid wID → ∀ w ∈ vs.windows.associated, w.winID ≠ wID) :
      VsChange pid vs vs' e
  | create {vaddr size permissions wID : Nat} {cacheable memory : Bool} {reservation : Option Nat}
      (check : wAssociateCheck vs.windows vaddr size = true) (valid : wID < wMaxWindows)
      (windows : vs'.windows =
        { associated := (wAssociateUpdate vs.windows).associated ++ [⟨wID, vaddr, size⟩]
          updated := false })
      (pages : vs'.pages = vs.pages) :
      VsChange pid vs vs' (.create pid vaddr size permissions cacheable reservation memory)
  | delete {i : Nat} {w : AssociatedWindow}
      (found : (wAssociateUpdate vs.windows).associated[i]? = some w)
      (windows : vs'.windows =
        { associated := swapRemove (wAssociateUpdate vs.windows).associated i, updated := true })
      (pages : Unmaps (unmapFrames w.offset (roundUpNpages w.size) vs.pages) vs'.pages) :
      VsChange pid vs vs' (.delete pid w.winID)
  | resize {w : AssociatedWindow} {size : Nat} {moved : Option Nat}
      (found : wAssociateFindWinID vs.windows w.winID = some w) (pos : size ≠ 0)
      (windows : vs'.windows =
        { associated := setSize w.winID size (wAssociateUpdate vs.windows).associated
          updated := true })
      (pages : Unmaps vs.pages vs'.pages)
      (grow : w.size < size → wAssociateCheck (wAssociateUpdate vs.windows)
        (u32 (w.offset + w.size)) (size - w.size) = true)
      (shrink : size < w.size → vs'.pages = unmapFrames (pageAlign (u32 (w.offset + size)))
        (roundUpNpages (w.size - size)) vs.pages) :
      VsChange pid vs vs' (.resize pid w.winID size moved)
  | map {e : VspaceEvent} {vaddr : Nat} {frames : List Nat} {w : AssociatedWindow}
      (call : (∃ memory mapped, e = .map pid vaddr frames memory mapped) ∨
        (∃ a b c d memory mapped, e = .mapAcross a b c d memory mapped) ∧ frames.length = 1 ∧
          vaddr < 2 ^ 32)
      (found : wAssociateFindRange vs.windows (pageAlign vaddr)
        (u32 (frames.length * pageSize)) = some w)
      (windows : vs'.windows = wAssociateUpdate vs.windows)
      (pages : vs'.pages = mapFrames (pageAlign vaddr) frames vs.pages) :
      VsChange pid vs vs' e
  | load {page frame : Nat} (windows : vs'.windows = vs.windows)
      (pages : vs'.pages = Function.update vs.pages page (some ⟨frame, false⟩)) :
      VsChange pid vs vs' (.load pid page frame)

/-- Every associated window is in the table of windows, as one of the process. -/
structure VspaceOk (s : VspaceState) : Prop where
  coat : s.windowList.Ok
  pid : ∀ pid vs, s.vspaces pid = some vs → vs.pid = pid
  nodup : ∀ pid vs, s.vspaces pid = some vs →
    (vs.windows.associated.map AssociatedWindow.winID).Nodup
  live : ∀ pid vs, s.vspaces pid = some vs → ∀ w ∈ vs.windows.associated,
    ∃ window, s.windowList.table w.winID = some window ∧ window.clientOwnerPID = pid

/-! ## Page tables -/

theorem Unmaps.refl (pages : Nat → Option Mapping) : Unmaps pages pages := fun _ _ h => h

theorem Unmaps.trans {pages pages' pages'' : Nat → Option Mapping} (h : Unmaps pages pages')
    (h' : Unmaps pages' pages'') : Unmaps pages pages'' :=
  fun page m hm => h page m (h' page m hm)

theorem foldl_unmapFrame {l : List Nat} {pages : Nat → Option Mapping} {page : Nat} {m : Mapping}
    (h : l.foldl vsUnmapFrame pages page = some m) :
    page ∉ l ∧ pages page = some m := by
  induction l generalizing pages with
  | nil => exact ⟨List.not_mem_nil, h⟩
  | cons p l ih =>
      obtain ⟨hnot, hm⟩ := ih h
      rw [vsUnmapFrame] at hm
      by_cases hp : page = p
      · subst hp
        simp at hm
      · rw [Function.update_of_ne hp] at hm
        exact ⟨by simp [hp, hnot], hm⟩

theorem unmapFrames_eq_some {vaddr nFrames page : Nat} {pages : Nat → Option Mapping} {m : Mapping}
    (h : unmapFrames vaddr nFrames pages page = some m) :
    page ∉ framePages vaddr nFrames ∧ pages page = some m := foldl_unmapFrame h

theorem unmaps_unmapFrames (vaddr nFrames : Nat) (pages : Nat → Option Mapping) :
    Unmaps pages (unmapFrames vaddr nFrames pages) := fun _ _ h => (unmapFrames_eq_some h).2

theorem foldl_mapFrame {l : List (Nat × Nat)} {pages : Nat → Option Mapping} {page : Nat}
    {m : Mapping} (h : l.foldl vsMapFrame pages page = some m) :
    pages page = some m ∨ ∃ entry ∈ l, entry.1 = page := by
  induction l generalizing pages with
  | nil => exact Or.inl h
  | cons entry l ih =>
      rcases ih h with hm | ⟨entry', hentry', rfl⟩
      · by_cases hp : page = entry.1
        · exact Or.inr ⟨entry, List.mem_cons_self, hp.symm⟩
        · rw [vsMapFrame, Function.update_of_ne hp] at hm
          exact Or.inl hm
      · exact Or.inr ⟨entry', List.mem_cons_of_mem _ hentry', rfl⟩

theorem mapFrames_eq_some {vaddr page : Nat} {frames : List Nat} {pages : Nat → Option Mapping}
    {m : Mapping} (h : mapFrames vaddr frames pages page = some m) :
    pages page = some m ∨ page ∈ framePages vaddr frames.length := by
  rcases foldl_mapFrame h with hm | ⟨entry, hentry, rfl⟩
  · exact Or.inl hm
  · exact Or.inr (List.of_mem_zip hentry).1

/-! ## Lookups by id -/

theorem findWinID_some {aw : AssociatedWindowlist} {wID : Nat} {w : AssociatedWindow}
    (h : wAssociateFindWinID aw wID = some w) :
    w.winID = wID ∧ ∃ i : Nat, (wAssociateUpdate aw).associated[i]? = some w := by
  have hid := List.find?_some (p := fun w : AssociatedWindow => w.winID = wID) h
  refine ⟨of_decide_eq_true hid, ?_⟩
  exact List.mem_iff_getElem?.1 (List.mem_of_find?_eq_some h)

theorem findWinID_none {aw : AssociatedWindowlist} {wID : Nat}
    (h : wAssociateFindWinID aw wID = none) : ∀ w ∈ aw.associated, w.winID ≠ wID := by
  intro w hw
  have hnot := List.find?_eq_none.1 h w ((update_perm aw).mem_iff.2 hw)
  simpa using hnot

theorem wGetWindow_some {windowList : Coat Window} {wID : Nat} {window : Window}
    (h : wGetWindow windowList wID = some window) : windowList.table wID = some window := by
  rw [wGetWindow] at h
  split_ifs at h
  exact Coat.table_of_get h

/-! ## Calls that only look -/

section Looks

variable {s s' : VspaceState} {vs vs' : Vspace} {windowList : Coat Window}

theorem OnlyLooks.refl (vs : Vspace) : OnlyLooks vs vs := ⟨rfl, Or.inl rfl, .refl _⟩

theorem OnlyLooks.lookedUp (vs : Vspace) : OnlyLooks vs vs.lookedUp := ⟨rfl, Or.inr rfl, .refl _⟩

theorem OnlyLooks.trans {vs'' : Vspace} (h : OnlyLooks vs vs') (h' : OnlyLooks vs' vs'') :
    OnlyLooks vs vs'' := by
  refine ⟨h'.pid.trans h.pid, ?_, h.pages.trans h'.pages⟩
  rcases h.windows with hw | hw <;> rcases h'.windows with hw' | hw'
  · exact Or.inl (hw'.trans hw)
  · exact Or.inr (hw'.trans (congrArg _ hw))
  · exact Or.inr (hw'.trans hw)
  · exact Or.inr (by rw [hw', hw, update_update])

theorem OnlyLooks.perm (h : OnlyLooks vs vs') :
    vs'.windows.associated.Perm vs.windows.associated := by
  rcases h.windows with hw | hw
  · rw [hw]
  · rw [hw]
    exact update_perm _

theorem vsUnmap_spec {vaddr nFrames : Nat} {error : Err}
    (h : vsUnmap windowList vs vaddr nFrames = .ok (error, vs')) :
    OnlyLooks vs vs' ∧ vs'.windows = wAssociateUpdate vs.windows ∧
      (error = .success → vs'.pages = unmapFrames vaddr nFrames vs.pages) := by
  rw [vsUnmap] at h
  cases hfind : wAssociateFindRange vs.windows vaddr (u32 (nFrames * pageSize)) with
  | none =>
      simp only [hfind, Except.ok.injEq, Prod.mk.injEq] at h
      obtain ⟨rfl, rfl⟩ := h
      exact ⟨.lookedUp vs, rfl, fun h => nomatch h⟩
  | some awindow =>
      cases hwindow : wGetWindow windowList awindow.winID with
      | none => simp [hfind, hwindow] at h
      | some window =>
          simp only [hfind, hwindow] at h
          split_ifs at h
          obtain ⟨rfl, rfl⟩ := Prod.mk.inj (Except.ok.inj h)
          exact ⟨⟨rfl, Or.inr rfl, unmaps_unmapFrames _ _ _⟩, rfl, fun _ => rfl⟩

theorem vsUnmapWindow_spec {wID : Nat} (h : vsUnmapWindow windowList vs wID = .ok vs') :
    OnlyLooks vs vs' ∧ vs'.windows = wAssociateUpdate vs.windows ∧
      ∀ w, wAssociateFindWinID vs.windows wID = some w →
        vs'.pages = unmapFrames w.offset (roundUpNpages w.size) vs.pages := by
  rw [vsUnmapWindow] at h
  cases hfind : wAssociateFindWinID vs.windows wID with
  | none =>
      simp only [hfind, Except.ok.injEq] at h
      subst h
      exact ⟨.lookedUp vs, rfl, fun w hw => nomatch hw⟩
  | some awindow =>
      cases hwindow : wGetWindow windowList awindow.winID with
      | none => simp [hfind, hwindow] at h
      | some window =>
          simp only [hfind, hwindow] at h
          split_ifs at h
          obtain rfl := Except.ok.inj h
          refine ⟨⟨rfl, Or.inr rfl, unmaps_unmapFrames _ _ _⟩, rfl, fun w hw => ?_⟩
          obtain rfl := Option.some.inj hw
          rfl

/-- `vs_map` looks up the range, and may map its pages. -/
theorem vsMap_spec {vaddr : Nat} {frames : List Nat} {memory mapped : Bool} {error : Err}
    (h : vsMap windowList vs vaddr frames memory mapped = .ok (error, vs')) :
    OnlyLooks vs vs' ∨
      vs'.pid = vs.pid ∧ vs'.windows = wAssociateUpdate vs.windows ∧
        vs'.pages = mapFrames (pageAlign vaddr) frames vs.pages ∧
        ∃ w, wAssociateFindRange vs.windows (pageAlign vaddr)
          (u32 (frames.length * pageSize)) = some w := by
  rw [vsMap] at h
  cases hfind : wAssociateFindRange vs.windows (pageAlign vaddr)
      (u32 (frames.length * pageSize)) with
  | none =>
      simp only [hfind, Except.ok.injEq, Prod.mk.injEq] at h
      obtain ⟨rfl, rfl⟩ := h
      exact Or.inl (.lookedUp vs)
  | some awindow =>
      cases hwindow : wGetWindow windowList awindow.winID with
      | none => simp [hfind, hwindow] at h
      | some window =>
          simp only [hfind, hwindow] at h
          split_ifs at h
          · obtain ⟨rfl, rfl⟩ := Prod.mk.inj (Except.ok.inj h)
            exact Or.inl (.lookedUp vs)
          · obtain ⟨rfl, rfl⟩ := Prod.mk.inj (Except.ok.inj h)
            exact Or.inl (.lookedUp vs)
          · obtain ⟨rfl, rfl⟩ := Prod.mk.inj (Except.ok.inj h)
            exact Or.inl (.lookedUp vs)
          · obtain ⟨rfl, rfl⟩ := Prod.mk.inj (Except.ok.inj h)
            exact Or.inr ⟨rfl, rfl, rfl, awindow, rfl⟩

theorem findRange_lookedUp (vs : Vspace) (offset size : Nat) :
    wAssociateFindRange vs.lookedUp.windows offset size =
      wAssociateFindRange vs.windows offset size := by
  simp only [Vspace.lookedUp, wAssociateFindRange, wAssociateFindIndex, update_update]

theorem lookedUp_lookedUp (vs : Vspace) : vs.lookedUp.lookedUp = vs.lookedUp := by
  simp only [Vspace.lookedUp, update_update]

theorem framePages_one {vaddr : Nat} (h : vaddr < 2 ^ 32) :
    framePages (pageAlign vaddr) 1 = [vaddr / pageSize] := by
  have hpage : u32 (pageAlign vaddr + 0 * pageSize) / pageSize = vaddr / pageSize := by
    simp only [u32, pageAlign, pageSize]
    omega
  rw [framePages, List.range_one, List.map_singleton, hpage]

theorem vsMap_single {vaddr : Nat} (hvaddr : vaddr < 2 ^ 32) (frame : Nat)
    (memory mapped : Bool) :
    vsMap windowList vs vaddr [frame] memory mapped =
      match wAssociateFindRange vs.windows (pageAlign vaddr) pageSize with
      | none => .ok (.invalidWindow, vs.lookedUp)
      | some awindow =>
          match wGetWindow windowList awindow.winID with
          | none => .error .assertion
          | some window =>
              if window.clientOwnerPID ≠ vs.pid then .error .assertion
              else if (vs.pages (vaddr / pageSize)).isSome then .ok (.unmapFirst, vs.lookedUp)
              else if memory = false then .ok (.nomem, vs.lookedUp)
              else if mapped = false then .ok (.unmapFirst, vs.lookedUp)
              else
                .ok (.success, { vs.lookedUp with
                  pages := Function.update vs.pages (vaddr / pageSize) (some ⟨frame, true⟩) }) := by
  have hlen : u32 ([frame].length * pageSize) = pageSize := by
    rw [List.length_singleton, Nat.one_mul]
    exact u32_of_lt (by decide)
  have hany : ((framePages (pageAlign vaddr) [frame].length).any fun page =>
      (vs.pages page).isSome) = (vs.pages (vaddr / pageSize)).isSome := by
    rw [List.length_singleton, framePages_one hvaddr, List.any_cons, List.any_nil, Bool.or_false]
  have hpages : mapFrames (pageAlign vaddr) [frame] vs.pages =
      Function.update vs.pages (vaddr / pageSize) (some ⟨frame, true⟩) := by
    rw [mapFrames, List.length_singleton, framePages_one hvaddr]
    rfl
  rw [vsMap, hlen]
  cases wAssociateFindRange vs.windows (pageAlign vaddr) pageSize with
  | none => rfl
  | some awindow =>
      simp only
      cases wGetWindow windowList awindow.winID with
      | none => rfl
      | some window =>
          simp only
          rw [hany, hpages]

/-- Every address space at most looks. -/
def StateLooks (s s' : VspaceState) : Prop :=
  ∀ pid, (s.vspaces pid = none → s'.vspaces pid = none) ∧
    ∀ vs, s.vspaces pid = some vs → ∃ vs', s'.vspaces pid = some vs' ∧ OnlyLooks vs vs'

theorem StateLooks.of_vspaces_eq (h : s'.vspaces = s.vspaces) : StateLooks s s' := by
  intro pid
  rw [h]
  exact ⟨id, fun vs hvs => ⟨vs, hvs, .refl vs⟩⟩

theorem StateLooks.setVspace {pid : Nat} (hvs : s.vspaces pid = some vs)
    (hlooks : OnlyLooks vs vs') : StateLooks s (s.setVspace pid vs') := by
  intro q
  by_cases hq : q = pid
  · subst hq
    refine ⟨fun h => absurd (hvs.symm.trans h) (by simp), fun v hv => ?_⟩
    obtain rfl := Option.some.inj (hvs.symm.trans hv)
    exact ⟨vs', setVspace_self s q vs', hlooks⟩
  · rw [setVspace_of_ne s pid vs' hq]
    exact ⟨id, fun v hv => ⟨v, hv, .refl v⟩⟩

theorem VspaceOk.of_looks (h : VspaceOk s) (hlooks : StateLooks s s') (hcoat : s'.windowList.Ok)
    (hlive : ∀ wID window, s.windowList.table wID = some window →
      ∃ window', s'.windowList.table wID = some window' ∧
        window'.clientOwnerPID = window.clientOwnerPID) : VspaceOk s' := by
  have hback : ∀ pid vs', s'.vspaces pid = some vs' →
      ∃ vs, s.vspaces pid = some vs ∧ OnlyLooks vs vs' := by
    intro pid vs' hvs'
    cases hvs : s.vspaces pid with
    | none => exact absurd (hvs'.symm.trans ((hlooks pid).1 hvs)) (by simp)
    | some vs =>
        obtain ⟨v, hv, hlook⟩ := (hlooks pid).2 vs hvs
        obtain rfl := Option.some.inj (hvs'.symm.trans hv)
        exact ⟨vs, rfl, hlook⟩
  refine ⟨hcoat, fun pid vs' hvs' => ?_, fun pid vs' hvs' => ?_, fun pid vs' hvs' w hw => ?_⟩
  · obtain ⟨vs, hvs, hlook⟩ := hback pid vs' hvs'
    exact hlook.pid.trans (h.pid pid vs hvs)
  · obtain ⟨vs, hvs, hlook⟩ := hback pid vs' hvs'
    exact (hlook.perm.map _).nodup_iff.2 (h.nodup pid vs hvs)
  · obtain ⟨vs, hvs, hlook⟩ := hback pid vs' hvs'
    obtain ⟨window, hwindow, howner⟩ := h.live pid vs hvs w (hlook.perm.mem_iff.1 hw)
    obtain ⟨window', hwindow', heq⟩ := hlive _ window hwindow
    exact ⟨window', hwindow', heq.trans howner⟩

theorem live_of_set {t : Coat Window} {wID : Nat} {window new : Window}
    (hwindow : t.table wID = some window) (howner : new.clientOwnerPID = window.clientOwnerPID) :
    ∀ i old, t.table i = some old → ∃ old', (t.set wID new).table i = some old' ∧
      old'.clientOwnerPID = old.clientOwnerPID := by
  intro i old hold
  by_cases hi : i = wID
  · subst hi
    obtain rfl := Option.some.inj (hwindow.symm.trans hold)
    exact ⟨new, Function.update_self .., howner⟩
  · exact ⟨old, (Function.update_of_ne hi ..).trans hold, rfl⟩

theorem windowSwitchMode_spec {wID : Nat} {window : Window} {mode : WindowMode}
    (h : windowSwitchMode s wID window mode = .ok s') :
    StateLooks s s' ∧ s'.windowList = s.windowList.set wID { window with mode := mode } := by
  rw [windowSwitchMode] at h
  obtain ⟨t, ht, hs'⟩ := bind_eq_ok_iff.1 h
  obtain rfl := Except.ok.inj hs'
  rw [unmapPrevious] at ht
  split_ifs at ht with hmode
  · obtain rfl := Except.ok.inj ht
    exact ⟨.of_vspaces_eq rfl, rfl⟩
  · cases hclient : s.vspaces window.clientOwnerPID with
    | none =>
        simp only [hclient] at ht
        obtain rfl := Except.ok.inj ht
        exact ⟨.of_vspaces_eq rfl, rfl⟩
    | some client =>
        simp only [hclient] at ht
        obtain ⟨client', hunmap, ht⟩ := bind_eq_ok_iff.1 ht
        obtain rfl := Except.ok.inj ht
        have hlooks : StateLooks s (s.setVspace window.clientOwnerPID client') :=
          .setVspace hclient (vsUnmapWindow_spec hunmap).1
        exact ⟨hlooks, rfl⟩

end Looks

/-! ## Every call -/

/-- The address spaces change as a call changes them. -/
def Changes (s s' : VspaceState) (e : VspaceEvent) : Prop :=
  ∀ pid, (s.vspaces pid = none → s'.vspaces pid = none) ∧
    ∀ vs, s.vspaces pid = some vs → ∃ vs', s'.vspaces pid = some vs' ∧ VsChange pid vs vs' e

section Calls

variable {s s' : VspaceState} {vs vs' : Vspace} {e : VspaceEvent} {pid : Nat}

theorem StateLooks.changes (h : StateLooks s s')
    (habsent : ∀ pid wID, e = .delete pid wID → ∀ vs, s.vspaces pid = some vs →
      ∀ w ∈ vs.windows.associated, w.winID ≠ wID) : Changes s s' e := by
  intro pid
  refine ⟨(h pid).1, fun vs hvs => ?_⟩
  obtain ⟨vs', hvs', hlooks⟩ := (h pid).2 vs hvs
  exact ⟨vs', hvs', .lookup hlooks fun wID he => habsent pid wID he vs hvs⟩

/-- One address space changes, by a call that is not a deletion of another one's window. -/
theorem Changes.setVspace (hvs : s.vspaces pid = some vs) (hchange : VsChange pid vs vs' e)
    (hdelete : ∀ q wID, e = .delete q wID → q = pid)
    (hs' : s'.vspaces = (s.setVspace pid vs').vspaces) : Changes s s' e := by
  intro q
  rw [hs']
  by_cases hq : q = pid
  · subst hq
    refine ⟨fun h => absurd (hvs.symm.trans h) (by simp), fun v hv => ?_⟩
    obtain rfl := Option.some.inj (hvs.symm.trans hv)
    exact ⟨vs', setVspace_self s q vs', hchange⟩
  · rw [setVspace_of_ne s pid vs' hq]
    exact ⟨id, fun v hv =>
      ⟨v, hv, .lookup (.refl v) fun wID he => absurd (hdelete q wID he) hq⟩⟩

theorem Changes.of_looks {vs₁ : Vspace} (hvs : s.vspaces pid = some vs)
    (hlooks : StateLooks (s.setVspace pid vs₁) s')
    (hchange : ∀ vs', OnlyLooks vs₁ vs' → VsChange pid vs vs' e)
    (hdelete : ∀ q wID, e = .delete q wID → q = pid) : Changes s s' e := by
  intro q
  by_cases hq : q = pid
  · subst hq
    refine ⟨fun hnone => absurd (hvs.symm.trans hnone) (by simp), fun v hv => ?_⟩
    obtain rfl := Option.some.inj (hvs.symm.trans hv)
    obtain ⟨vs', hvs', hlook⟩ := (hlooks q).2 vs₁ (setVspace_self s q vs₁)
    exact ⟨vs', hvs', hchange vs' hlook⟩
  · rw [← setVspace_of_ne s pid vs₁ hq]
    refine ⟨(hlooks q).1, fun v hv => ?_⟩
    obtain ⟨v', hv', hlook⟩ := (hlooks q).2 v hv
    exact ⟨v', hv', .lookup hlook fun wID he => absurd (hdelete q wID he) hq⟩

theorem VspaceOk.winID_ne (h : VspaceOk s) (hvs : s.vspaces pid = some vs) {q : Nat} {v : Vspace}
    (hv : s.vspaces q = some v) (hq : q ≠ pid) {w u : AssociatedWindow}
    (hw : w ∈ vs.windows.associated) (hu : u ∈ v.windows.associated) : u.winID ≠ w.winID := by
  intro heq
  obtain ⟨win, hwin, howner⟩ := h.live q v hv u hu
  obtain ⟨win', hwin', howner'⟩ := h.live pid vs hvs w hw
  rw [heq, hwin'] at hwin
  obtain rfl := Option.some.inj hwin
  exact hq (howner.symm.trans howner')

/-- Looking up keeps the invariant. -/
theorem VspaceOk.setVspace (h : VspaceOk s) (hvs : s.vspaces pid = some vs)
    (hlooks : OnlyLooks vs vs') : VspaceOk (s.setVspace pid vs') :=
  h.of_looks (.setVspace hvs hlooks) h.coat fun _ window hwindow => ⟨window, hwindow, rfl⟩

theorem VspaceOk.looksUp (h : VspaceOk s) (hvs : s.vspaces pid = some vs)
    (hlooks : OnlyLooks vs vs') (hdelete : ∀ q wID, e ≠ .delete q wID) :
    VspaceOk (s.setVspace pid vs') ∧ Changes s (s.setVspace pid vs') e :=
  ⟨h.setVspace hvs hlooks,
    (StateLooks.setVspace hvs hlooks).changes fun q wID he => absurd he (hdelete q wID)⟩

/-- A new list of windows of one process, with what they need in the table. -/
theorem VspaceOk.replace (h : VspaceOk s) (hvs : s.vspaces pid = some vs) (hpid : vs'.pid = vs.pid)
    {t : Coat Window} (hcoat : t.Ok)
    (hold : ∀ i old, s.windowList.table i = some old → ∃ old', t.table i = some old' ∧
      old'.clientOwnerPID = old.clientOwnerPID)
    (hnodup : (vs'.windows.associated.map AssociatedWindow.winID).Nodup)
    (hnew : ∀ w ∈ vs'.windows.associated,
      w.winID ∈ vs.windows.associated.map AssociatedWindow.winID ∨
      ∃ window, t.table w.winID = some window ∧ window.clientOwnerPID = pid)
    (hs' : s' = { s.setVspace pid vs' with windowList := t }) : VspaceOk s' := by
  subst hs'
  have hcases : ∀ q v, (s.setVspace pid vs').vspaces q = some v →
      q = pid ∧ v = vs' ∨ s.vspaces q = some v := by
    intro q v hv
    by_cases hq : q = pid
    · subst hq
      exact Or.inl ⟨rfl, (Option.some.inj ((setVspace_self s q vs').symm.trans hv)).symm⟩
    · exact Or.inr ((setVspace_of_ne s pid vs' hq).symm.trans hv)
  have holdLive : ∀ q v, s.vspaces q = some v → ∀ w ∈ v.windows.associated,
      ∃ window, t.table w.winID = some window ∧ window.clientOwnerPID = q := by
    intro q v hv w hw
    obtain ⟨window, hwindow, howner⟩ := h.live q v hv w hw
    obtain ⟨window', hwindow', howner'⟩ := hold _ window hwindow
    exact ⟨window', hwindow', howner'.trans howner⟩
  refine ⟨hcoat, fun q v hv => ?_, fun q v hv => ?_, fun q v hv w hw => ?_⟩
  · rcases hcases q v hv with ⟨rfl, rfl⟩ | hv
    · exact hpid.trans (h.pid _ vs hvs)
    · exact h.pid q v hv
  · rcases hcases q v hv with ⟨rfl, rfl⟩ | hv
    · exact hnodup
    · exact h.nodup q v hv
  · rcases hcases q v hv with ⟨rfl, rfl⟩ | hv
    · rcases hnew w hw with hmem | hlive
      · obtain ⟨w₀, hw₀, heq⟩ := List.mem_map.1 hmem
        exact heq ▸ holdLive _ vs hvs w₀ hw₀
      · exact hlive
    · exact holdLive q v hv w hw

theorem wDeleteWindow_spec (h : VspaceOk s) {wID : Nat}
    (habsent : ∀ pid vs, s.vspaces pid = some vs → ∀ w ∈ vs.windows.associated, w.winID ≠ wID)
    (hs' : wDeleteWindow s wID = .ok s') : VspaceOk s' ∧ StateLooks s s' := by
  rw [wDeleteWindow] at hs'
  cases hdelete : s.windowList.toDelete wID with
  | none =>
      simp only [hdelete] at hs'
      obtain rfl := Except.ok.inj hs'
      exact ⟨h, .of_vspaces_eq rfl⟩
  | some window =>
      simp only [hdelete] at hs'
      obtain ⟨t, hswitch, hs'⟩ := bind_eq_ok_iff.1 hs'
      obtain rfl := Except.ok.inj hs'
      have hwindow := Coat.table_of_toDelete hdelete
      obtain ⟨hlooks, hlist⟩ := windowSwitchMode_spec hswitch
      have hset := h.coat.set (by rw [hwindow]; rfl) { window with mode := .empty }
      have hok : VspaceOk t :=
        h.of_looks hlooks (hlist ▸ hset) (hlist ▸ live_of_set hwindow rfl)
      have hentry : t.windowList.table wID = some { window with mode := .empty } := by
        rw [hlist]
        exact Function.update_self ..
      refine ⟨⟨(hok.coat.remove hentry).1, hok.pid, hok.nodup, fun pid vs hvs w hw => ?_⟩, hlooks⟩
      obtain ⟨win, hwin, howner⟩ := hok.live pid vs hvs w hw
      have hne : w.winID ≠ wID := by
        cases hvs₀ : s.vspaces pid with
        | none => exact absurd (hvs.symm.trans ((hlooks pid).1 hvs₀)) (by simp)
        | some vs₀ =>
            obtain ⟨v, hv, hlook⟩ := (hlooks pid).2 vs₀ hvs₀
            obtain rfl := Option.some.inj (hvs.symm.trans hv)
            exact habsent pid vs₀ hvs₀ w (hlook.perm.mem_iff.1 hw)
      exact ⟨win, (Function.update_of_ne hne ..).trans hwin, howner⟩

/-- A window leaves the list of its process. No list has it then. -/
theorem VspaceOk.unassociate (h : VspaceOk s) (hvs : s.vspaces pid = some vs) {i : Nat}
    {w : AssociatedWindow} (hi : (wAssociateUpdate vs.windows).associated[i]? = some w)
    (hpid : vs'.pid = vs.pid)
    (hlist : vs'.windows.associated = swapRemove (wAssociateUpdate vs.windows).associated i) :
    VspaceOk (s.setVspace pid vs') ∧ ∀ q v, (s.setVspace pid vs').vspaces q = some v →
      ∀ u ∈ v.windows.associated, u.winID ≠ w.winID := by
  have hsorted := update_perm vs.windows
  have hperm := swapRemove_perm hi
  rw [← hlist] at hperm
  have hnodup : ((wAssociateUpdate vs.windows).associated.map AssociatedWindow.winID).Nodup :=
    (hsorted.map _).nodup_iff.2 (h.nodup pid vs hvs)
  have hids := (hperm.map AssociatedWindow.winID).nodup_iff.1 hnodup
  rw [List.map_cons, List.nodup_cons] at hids
  have hsub : ∀ v ∈ vs'.windows.associated, v ∈ vs.windows.associated := fun v hv =>
    hsorted.mem_iff.1 (hperm.mem_iff.2 (List.mem_cons_of_mem w hv))
  refine ⟨h.replace hvs hpid h.coat (fun _ old hold => ⟨old, hold, rfl⟩) hids.2
    (fun v hv => Or.inl (List.mem_map_of_mem (hsub v hv))) rfl, fun q v hv u hu heq => ?_⟩
  by_cases hq : q = pid
  · subst hq
    obtain rfl := Option.some.inj ((setVspace_self s q vs').symm.trans hv)
    exact hids.1 (heq ▸ List.mem_map_of_mem hu)
  · rw [setVspace_of_ne s pid vs' hq] at hv
    have hw := hsorted.mem_iff.1 (List.mem_of_getElem? hi)
    exact h.winID_ne hvs hv hq hw hu heq

theorem vsDeleteWindow_spec (h : VspaceOk s) (hvs : s.vspaces pid = some vs) {wID : Nat}
    (hs' : vsDeleteWindow s vs wID = .ok s') :
    VspaceOk s' ∧ Changes s s' (.delete pid wID) := by
  have hpid := h.pid pid vs hvs
  rw [vsDeleteWindow, hpid] at hs'
  cases hfind : wAssociateFindWinID vs.windows wID with
  | none =>
      simp only [hfind] at hs'
      obtain rfl := Except.ok.inj hs'
      refine ⟨h.setVspace hvs (.lookedUp vs), .setVspace hvs (.lookup (.lookedUp vs) ?_)
        (fun q i he => by injection he with he; exact he.symm) rfl⟩
      intro i he
      injection he with _ he
      exact he ▸ findWinID_none hfind
  | some w =>
      simp only [hfind] at hs'
      obtain ⟨rfl, i, hi⟩ := findWinID_some hfind
      obtain ⟨vs₁, hunmap, hs'⟩ := bind_eq_ok_iff.1 hs'
      obtain ⟨hlooks, hwindows, hpages⟩ := vsUnmapWindow_spec hunmap
      have hlookup : wAssociateFindWinID vs.lookedUp.windows w.winID = some w := by
        rw [← hfind, wAssociateFindWinID, wAssociateFindWinID, Vspace.lookedUp, update_update]
      have hpages' := hpages w hlookup
      have hlist : vs₁.windows = wAssociateUpdate vs.windows :=
        hwindows.trans (update_update vs.windows)
      have hpid₁ : vs₁.pid = pid := hlooks.pid.trans hpid
      have hnodup : (vs₁.windows.associated.map AssociatedWindow.winID).Nodup := by
        rw [hlist]
        exact ((update_perm _).map _).nodup_iff.2 (h.nodup pid vs hvs)
      have hi₁ : vs₁.windows.associated[i]? = some w := hlist ▸ hi
      rw [hpid₁, wUnassociate_eq hnodup hi₁] at hs'
      let vs₂ : Vspace :=
        { pid := pid, pages := vs₁.pages
          windows := { vs₁.windows with associated := swapRemove vs₁.windows.associated i } }
      have hpid₂ : vs₂.pid = vs.pid := hpid.symm
      obtain ⟨hok, habsent⟩ := h.unassociate hvs hi hpid₂ (by simp only [vs₂, hlist])
      obtain ⟨hok', hlooks'⟩ := wDeleteWindow_spec hok habsent hs'
      have hwin₂ : vs₂.windows =
          { associated := swapRemove (wAssociateUpdate vs.windows).associated i
            updated := true } := by
        rw [← hlist]
        simp [vs₂, hlist]
      have hpages₂ : vs₂.pages = unmapFrames w.offset (roundUpNpages w.size) vs.pages := hpages'
      refine ⟨hok', .of_looks hvs hlooks' (fun vs' hlook => .delete hi ?_ ?_)
        fun q wID he => by injection he with he; exact he.symm⟩
      · -- a list that is taken for sorted is not sorted again
        rcases hlook.windows with hsame | hsorted
        · rw [hsame, hwin₂]
        · rw [hsorted, hwin₂]
          rfl
      · exact hpages₂ ▸ hlook.pages

/-- Where `w_create_window` returns, it has added a window under an id that had none. -/
theorem wCreateWindow_spec {t t' : Coat Window} {window : Window} {memory : Bool} {r : Option Nat}
    (h : t.Ok) (hcreate : wCreateWindow t window memory = .ok (r, t')) :
    ∃ wID, r = some wID ∧ t'.Ok ∧ t'.pool.stop = t.pool.stop ∧ t.table wID = none ∧
      t'.table = Function.update t.table wID (some window) := by
  rw [wCreateWindow] at hcreate
  obtain ⟨⟨new, u⟩, hnew, hcreate⟩ := bind_eq_ok_iff.1 hcreate
  obtain ⟨id, obj, rfl, halloc⟩ := h.of_create hnew
  obtain ⟨rfl, rfl⟩ := Prod.mk.inj (Except.ok.inj hcreate)
  obtain ⟨hok, htable, hfree, _, _, _, hstop⟩ := h.of_alloc_some halloc
  refine ⟨id, rfl, hok.set ?_ window, hstop, hfree, ?_⟩
  · rw [htable, Function.update_self]
    rfl
  · show Function.update u.table id (some window) = _
    rw [htable, Function.update_idem]

/-- A window under a new id joins the list of its process. -/
theorem VspaceOk.associate (h : VspaceOk s) (hvs : s.vspaces pid = some vs) {t : Coat Window}
    (hok : t.Ok) {w : AssociatedWindow} {window : Window}
    (hfree : s.windowList.table w.winID = none)
    (htable : t.table = Function.update s.windowList.table w.winID (some window))
    (howner : window.clientOwnerPID = pid) (hpid : vs'.pid = vs.pid)
    (hlist : vs'.windows.associated = (wAssociateUpdate vs.windows).associated ++ [w]) :
    VspaceOk { s.setVspace pid vs' with windowList := t } := by
  have hperm := update_perm vs.windows
  have hfresh : ∀ v ∈ (wAssociateUpdate vs.windows).associated, v.winID ≠ w.winID := by
    intro v hv heq
    obtain ⟨win, hwin, _⟩ := h.live _ vs hvs v (hperm.mem_iff.1 hv)
    rw [heq, hfree] at hwin
    cases hwin
  refine h.replace hvs hpid hok (fun i old hold => ?_) ?_ (fun v hv => ?_) rfl
  · have hne : i ≠ w.winID := by
      rintro rfl
      rw [hfree] at hold
      cases hold
    exact ⟨old, by rw [htable, Function.update_of_ne hne, hold], rfl⟩
  · rw [hlist, List.map_append, List.nodup_append]
    refine ⟨(hperm.map _).nodup_iff.2 (h.nodup _ vs hvs), by simp, ?_⟩
    intro a ha b hb
    obtain ⟨v, hv, rfl⟩ := List.mem_map.1 ha
    obtain rfl : b = w.winID := by simpa using hb
    exact hfresh v hv
  · rw [hlist] at hv
    rcases List.mem_append.1 hv with hv | hv
    · exact Or.inl (List.mem_map_of_mem (hperm.mem_iff.1 hv))
    · obtain rfl := List.mem_singleton.1 hv
      exact Or.inr ⟨window, by rw [htable, Function.update_self], howner⟩

theorem vsCreateWindow_spec (h : VspaceOk s) (hvs : s.vspaces pid = some vs)
    {vaddr size permissions : Nat} {cacheable memory : Bool} {reservation : Option Nat}
    {error : Err}
    (hs' : vsCreateWindow s vs vaddr size permissions cacheable reservation memory =
      .ok (error, s')) :
    VspaceOk s' ∧
      Changes s s' (.create pid vaddr size permissions cacheable reservation memory) := by
  obtain rfl := h.pid pid vs hvs
  have hlooked : VspaceOk (s.setVspace vs.pid vs.lookedUp) ∧ Changes s
      (s.setVspace vs.pid vs.lookedUp)
      (.create vs.pid vaddr size permissions cacheable reservation memory) :=
    h.looksUp hvs (.lookedUp vs) fun _ _ he => nomatch he
  unfold vsCreateWindow at hs'
  split_ifs at hs' with hcheck
  · obtain ⟨rfl, rfl⟩ := Prod.mk.inj (Except.ok.inj hs')
    exact hlooked
  · cases reservation with
    | none =>
        obtain ⟨rfl, rfl⟩ := Prod.mk.inj (Except.ok.inj hs')
        exact hlooked
    | some start =>
        simp only at hs'
        split at hs'
        next => cases hs'
        next t hcreate =>
          obtain ⟨_, hnone, _⟩ := wCreateWindow_spec h.coat hcreate
          cases hnone
        next wID t hcreate =>
          obtain ⟨_, hwID, hok, _, hfree, htable⟩ := wCreateWindow_spec h.coat hcreate
          obtain rfl := Option.some.inj hwID
          split at hs'
          next windows hassociate =>
            obtain ⟨rfl, rfl⟩ := Prod.mk.inj (Except.ok.inj hs')
            rw [wAssociate] at hassociate
            split_ifs at hassociate with hid
            · simp at hassociate
            · obtain ⟨_, rfl⟩ := Prod.mk.inj (Except.ok.inj hassociate)
              have hchange : VsChange vs.pid vs { vs with windows :=
                  { associated := (wAssociateUpdate vs.windows).associated ++ [⟨wID, vaddr, size⟩]
                    updated := false } } (.create vs.pid vaddr size permissions
                  cacheable (some start) memory) :=
                .create (by simpa using hcheck) (by omega) rfl rfl
              exact ⟨h.associate hvs hok hfree htable rfl rfl rfl,
                .setVspace hvs hchange (fun _ _ he => nomatch he) rfl⟩
          next => cases hs'

theorem map_winID_setSize (wID size : Nat) (l : List AssociatedWindow) :
    (setSize wID size l).map AssociatedWindow.winID = l.map AssociatedWindow.winID := by
  induction l with
  | nil => rfl
  | cons w l ih =>
      rw [setSize]
      split_ifs
      · rfl
      · rw [List.map_cons, List.map_cons, ih]

theorem resizeTo_spec (h : VspaceOk s) (hvs : s.vspaces pid = some vs) {vs₁ : Vspace}
    (hpid : vs₁.pid = pid) (hlist : vs₁.windows = wAssociateUpdate vs.windows)
    (hpages : Unmaps vs.pages vs₁.pages) {w : AssociatedWindow} {window : Window} {size : Nat}
    (hwindow : s.windowList.table w.winID = some window)
    (hfind : wAssociateFindWinID vs.windows w.winID = some w) (hpos : size ≠ 0)
    (hgrow : w.size < size → wAssociateCheck (wAssociateUpdate vs.windows)
      (u32 (w.offset + w.size)) (size - w.size) = true)
    (hshrink : size < w.size → vs₁.pages = unmapFrames (pageAlign (u32 (w.offset + size)))
      (roundUpNpages (w.size - size)) vs.pages)
    {moved : Option Nat} {error : Err}
    (hs' : resizeTo s vs₁ w.winID window size moved = (error, s')) :
    VspaceOk s' ∧ Changes s s' (.resize pid w.winID size moved) := by
  subst hpid
  have hpid := h.pid _ vs hvs
  let vs₂ : Vspace := { vs₁ with
    windows := { vs₁.windows with associated := setSize w.winID size vs₁.windows.associated } }
  have hpid₂ : vs₂.pid = vs.pid := hpid.symm
  have hids : vs₂.windows.associated.map AssociatedWindow.winID =
      (wAssociateUpdate vs.windows).associated.map AssociatedWindow.winID := by
    rw [← hlist]
    exact map_winID_setSize _ _ _
  have hnodup : (vs₂.windows.associated.map AssociatedWindow.winID).Nodup := by
    rw [hids]
    exact ((update_perm _).map _).nodup_iff.2 (h.nodup _ vs hvs)
  have hmem : ∀ v ∈ vs₂.windows.associated,
      v.winID ∈ vs.windows.associated.map AssociatedWindow.winID := by
    intro v hv
    have := List.mem_map_of_mem (f := AssociatedWindow.winID) hv
    rw [hids] at this
    exact ((update_perm vs.windows).map _).mem_iff.1 this
  have hchange : VsChange vs₁.pid vs vs₂ (.resize vs₁.pid w.winID size moved) := by
    refine .resize hfind hpos ?_ hpages hgrow hshrink
    simp only [vs₂, hlist, update_updated]
  simp only [resizeTo] at hs'
  split_ifs at hs' with hsize
  · obtain ⟨rfl, rfl⟩ := Prod.mk.inj hs'
    exact ⟨h.replace hvs hpid₂ h.coat (fun _ old hold => ⟨old, hold, rfl⟩) hnodup
      (fun v hv => Or.inl (hmem v hv)) rfl, .setVspace hvs hchange (fun _ _ he => nomatch he) rfl⟩
  · cases moved with
    | none =>
        obtain ⟨rfl, rfl⟩ := Prod.mk.inj hs'
        have hlooks : OnlyLooks vs vs₁ := ⟨hpid.symm, Or.inr hlist, hpages⟩
        exact h.looksUp hvs hlooks fun _ _ he => nomatch he
    | some start =>
        obtain ⟨rfl, rfl⟩ := Prod.mk.inj hs'
        have hcoat := h.coat.set (by rw [hwindow]; rfl)
          { window with size := size, reservation := start }
        exact ⟨h.replace hvs hpid₂ hcoat (live_of_set hwindow rfl) hnodup
          (fun v hv => Or.inl (hmem v hv)) rfl,
          .setVspace hvs hchange (fun _ _ he => nomatch he) rfl⟩

theorem vsResizeWindow_spec (h : VspaceOk s) (hvs : s.vspaces pid = some vs) {wID size : Nat}
    {moved : Option Nat} {error : Err}
    (hs' : vsResizeWindow s vs wID size moved = .ok (error, s')) :
    VspaceOk s' ∧ Changes s s' (.resize pid wID size moved) := by
  obtain rfl := h.pid pid vs hvs
  have hlooks : ∀ {vs'}, OnlyLooks vs vs' → VspaceOk (s.setVspace vs.pid vs') ∧
      Changes s (s.setVspace vs.pid vs') (.resize vs.pid wID size moved) := fun hlook =>
    h.looksUp hvs hlook fun _ _ he => nomatch he
  rw [vsResizeWindow] at hs'
  split_ifs at hs' with hzero
  · obtain ⟨rfl, rfl⟩ := Prod.mk.inj (Except.ok.inj hs')
    exact ⟨h, (StateLooks.of_vspaces_eq rfl).changes fun _ _ he => nomatch he⟩
  · cases hfind : wAssociateFindWinID vs.windows wID with
    | none =>
        simp only [hfind] at hs'
        obtain ⟨rfl, rfl⟩ := Prod.mk.inj (Except.ok.inj hs')
        exact hlooks (.lookedUp vs)
    | some w =>
        obtain ⟨rfl, _⟩ := findWinID_some hfind
        cases hget : wGetWindow s.windowList w.winID with
        | none =>
            simp only [hfind, hget] at hs'
            obtain ⟨rfl, rfl⟩ := Prod.mk.inj (Except.ok.inj hs')
            exact hlooks (.lookedUp vs)
        | some window =>
            have hwindow := wGetWindow_some hget
            have hpid : vs.lookedUp.pid = vs.pid := rfl
            simp only [hfind, hget] at hs'
            split_ifs at hs' with _ hgrow hcheck hshrink
            · exact resizeTo_spec h hvs hpid rfl (.refl _) hwindow hfind hzero (fun _ => hcheck)
                (fun hlt => by omega) (Except.ok.inj hs')
            · obtain ⟨rfl, rfl⟩ := Prod.mk.inj (Except.ok.inj hs')
              exact hlooks (.lookedUp vs)
            · obtain ⟨⟨error', vs₁⟩, hunmap, hs'⟩ := bind_eq_ok_iff.1 hs'
              obtain ⟨hlook, hlist, hpages⟩ := vsUnmap_spec hunmap
              have hlist' : vs₁.windows = wAssociateUpdate vs.windows :=
                hlist.trans (update_update vs.windows)
              have hlook' := (OnlyLooks.lookedUp vs).trans hlook
              simp only at hs'
              split_ifs at hs' with hsuccess
              · exact resizeTo_spec h hvs hlook.pid hlist' hlook.pages hwindow hfind hzero
                  (fun hlt => by omega) (fun _ => hpages hsuccess) (Except.ok.inj hs')
              · obtain ⟨rfl, rfl⟩ := Prod.mk.inj (Except.ok.inj hs')
                rw [hlook.pid]
                exact hlooks hlook'
            · exact resizeTo_spec h hvs hpid rfl (.refl _) hwindow hfind hzero
                (fun hlt => by omega) (fun hlt => by omega) (Except.ok.inj hs')

theorem vsMap_changes (h : VspaceOk s) (hvs : s.vspaces pid = some vs) {vaddr : Nat}
    {frames : List Nat} {memory mapped : Bool} {error : Err}
    (hmap : vsMap s.windowList vs vaddr frames memory mapped = .ok (error, vs'))
    (hcall : (∃ memory mapped, e = .map pid vaddr frames memory mapped) ∨
      (∃ a b c d memory mapped, e = .mapAcross a b c d memory mapped) ∧ frames.length = 1 ∧
        vaddr < 2 ^ 32) :
    VspaceOk (s.setVspace pid vs') ∧ Changes s (s.setVspace pid vs') e := by
  have hnot : ∀ q wID, e ≠ .delete q wID := by
    rintro q wID rfl
    rcases hcall with ⟨_, _, he⟩ | ⟨⟨_, _, _, _, _, _, he⟩, _⟩ <;> cases he
  rcases vsMap_spec hmap with hlook | ⟨hpid, hlist, hpages, w, hfind⟩
  · exact h.looksUp hvs hlook hnot
  · have hperm : vs'.windows.associated.Perm vs.windows.associated := by
      rw [hlist]
      exact update_perm _
    refine ⟨h.replace hvs hpid h.coat (fun _ old hold => ⟨old, hold, rfl⟩) ?_ ?_ rfl,
      .setVspace hvs (.map hcall hfind hlist hpages) (fun q wID he => absurd he (hnot q wID)) rfl⟩
    · exact (hperm.map _).nodup_iff.2 (h.nodup pid vs hvs)
    · exact fun v hv => Or.inl (List.mem_map_of_mem (hperm.mem_iff.1 hv))

/-- A list that was looked up is sorted already. -/
theorem vsMap_lookedUp (windowList : Coat Window) (vs : Vspace) (vaddr : Nat) (frames : List Nat)
    (memory mapped : Bool) :
    vsMap windowList vs.lookedUp vaddr frames memory mapped =
      vsMap windowList vs vaddr frames memory mapped := by
  simp only [vsMap, findRange_lookedUp, lookedUp_lookedUp]
  rfl

theorem vsMapAcrossVspace_spec (h : VspaceOk s) {vaddrSrc wID windowDestOffset : Nat}
    {memory mapped : Bool} {error : Err} (pidSrc : Nat)
    (hs' : vsMapAcrossVspace s vs vaddrSrc wID windowDestOffset memory mapped = .ok (error, s')) :
    VspaceOk s' ∧
      Changes s s' (.mapAcross pidSrc vaddrSrc wID windowDestOffset memory mapped) := by
  have hsame : ∀ {t}, t.vspaces = s.vspaces →
      Changes s t (.mapAcross pidSrc vaddrSrc wID windowDestOffset memory mapped) := fun ht =>
    (StateLooks.of_vspaces_eq ht).changes fun _ _ he => nomatch he
  rw [vsMapAcrossVspace] at hs'
  split at hs'
  next src windowDest _ _ =>
    split_ifs at hs' with hoffset
    · obtain ⟨rfl, rfl⟩ := Prod.mk.inj (Except.ok.inj hs')
      exact ⟨h, hsame rfl⟩
    · cases hclient : s.vspaces windowDest.clientOwnerPID with
      | none =>
          simp only [hclient] at hs'
          obtain ⟨rfl, rfl⟩ := Prod.mk.inj (Except.ok.inj hs')
          exact ⟨h, hsame rfl⟩
      | some client =>
          cases hfind : wAssociateFindWinID client.windows wID with
          | none =>
              simp only [hclient, hfind] at hs'
              obtain ⟨rfl, rfl⟩ := Prod.mk.inj (Except.ok.inj hs')
              exact h.looksUp hclient (.lookedUp client) fun _ _ he => nomatch he
          | some wa =>
              simp only [hclient, hfind] at hs'
              obtain ⟨⟨error', client'⟩, hmap, hs'⟩ := bind_eq_ok_iff.1 hs'
              obtain ⟨rfl, rfl⟩ := Prod.mk.inj (Except.ok.inj hs')
              rw [vsMap_lookedUp] at hmap
              exact vsMap_changes h hclient hmap
                (Or.inr ⟨⟨_, _, _, _, _, _, rfl⟩, rfl, Nat.mod_lt _ (by decide)⟩)
  next =>
    obtain ⟨rfl, rfl⟩ := Prod.mk.inj (Except.ok.inj hs')
    exact ⟨h, hsame rfl⟩

theorem load_changes (h : VspaceOk s) (hvs : s.vspaces pid = some vs) (page frame : Nat) :
    VspaceOk (s.setVspace pid
        { vs with pages := Function.update vs.pages page (some ⟨frame, false⟩) }) ∧
      Changes s (s.setVspace pid
        { vs with pages := Function.update vs.pages page (some ⟨frame, false⟩) })
        (.load pid page frame) := by
  let vs₁ : Vspace := { vs with pages := Function.update vs.pages page (some ⟨frame, false⟩) }
  have hpid₁ : vs₁.pid = vs.pid := rfl
  have hchange : VsChange pid vs vs₁ (.load pid page frame) := .load rfl rfl
  exact ⟨h.replace hvs hpid₁ h.coat (fun _ old hold => ⟨old, hold, rfl⟩)
    (h.nodup pid vs hvs) (fun w hw => Or.inl (List.mem_map_of_mem hw)) rfl,
    .setVspace hvs hchange (fun _ _ he => nomatch he) rfl⟩

theorem VspaceOk.ofProcess (h : VspaceOk s) {f : Vspace → Except Failure VspaceState}
    (hf : ∀ vs, s.vspaces pid = some vs → f vs = .ok s' → VspaceOk s' ∧ Changes s s' e)
    (hdelete : ∀ q wID, e = .delete q wID → q = pid)
    (hs' : (match s.vspaces pid with
      | none => .ok s
      | some vs => f vs) = Except.ok s') :
    VspaceOk s' ∧ Changes s s' e := by
  cases hvs : s.vspaces pid with
  | none =>
      simp only [hvs] at hs'
      obtain rfl := Except.ok.inj hs'
      refine ⟨h, (StateLooks.of_vspaces_eq rfl).changes fun q wID he vs hq => ?_⟩
      rw [hdelete q wID he, hvs] at hq
      cases hq
  | some vs =>
      simp only [hvs] at hs'
      exact hf vs hvs hs'

/-- **Every call.** -/
theorem vspaceStep_spec (h : VspaceOk s) (hs' : vspaceStep s e = .ok s') :
    VspaceOk s' ∧ Changes s s' e := by
  cases e with
  | create pid vaddr size permissions cacheable reservation memory =>
      refine h.ofProcess (fun vs hvs hs' => ?_) (fun _ _ he => nomatch he) hs'
      obtain ⟨⟨error, t⟩, hcreate, hs'⟩ := bind_eq_ok_iff.1 hs'
      obtain rfl := Except.ok.inj hs'
      exact vsCreateWindow_spec h hvs hcreate
  | delete pid wID =>
      refine h.ofProcess (fun vs hvs hs' => vsDeleteWindow_spec h hvs hs') (fun q i he => ?_) hs'
      injection he with he
      exact he.symm
  | resize pid wID size moved =>
      refine h.ofProcess (fun vs hvs hs' => ?_) (fun _ _ he => nomatch he) hs'
      obtain ⟨⟨error, t⟩, hresize, hs'⟩ := bind_eq_ok_iff.1 hs'
      obtain rfl := Except.ok.inj hs'
      exact vsResizeWindow_spec h hvs hresize
  | map pid vaddr frames memory mapped =>
      refine h.ofProcess (fun vs hvs hs' => ?_) (fun _ _ he => nomatch he) hs'
      obtain ⟨⟨error, vs'⟩, hmap, hs'⟩ := bind_eq_ok_iff.1 hs'
      obtain rfl := Except.ok.inj hs'
      exact vsMap_changes h hvs hmap (Or.inl ⟨memory, mapped, rfl⟩)
  | mapAcross pidSrc vaddrSrc wID windowDestOffset memory mapped =>
      refine h.ofProcess (fun vsSrc _ hs' => ?_) (fun _ _ he => nomatch he) hs'
      obtain ⟨⟨error, t⟩, hmap, hs'⟩ := bind_eq_ok_iff.1 hs'
      obtain rfl := Except.ok.inj hs'
      exact vsMapAcrossVspace_spec h pidSrc hmap
  | unmap pid vaddr nFrames =>
      refine h.ofProcess (fun vs hvs hs' => ?_) (fun _ _ he => nomatch he) hs'
      obtain ⟨⟨error, vs'⟩, hunmap, hs'⟩ := bind_eq_ok_iff.1 hs'
      obtain rfl := Except.ok.inj hs'
      exact h.looksUp hvs (vsUnmap_spec hunmap).1 fun _ _ he => nomatch he
  | switchMode wID mode =>
      simp only [vspaceStep] at hs'
      cases hget : wGetWindow s.windowList wID with
      | none =>
          simp only [hget] at hs'
          obtain rfl := Except.ok.inj hs'
          exact ⟨h, (StateLooks.of_vspaces_eq rfl).changes fun _ _ he => nomatch he⟩
      | some window =>
          simp only [hget] at hs'
          have hwindow := wGetWindow_some hget
          obtain ⟨hlooks, hlist⟩ := windowSwitchMode_spec hs'
          have hset := h.coat.set (by rw [hwindow]; rfl) { window with mode := mode }
          exact ⟨h.of_looks hlooks (hlist ▸ hset) (hlist ▸ live_of_set hwindow rfl),
            hlooks.changes fun _ _ he => nomatch he⟩
  | load pid page frame =>
      refine h.ofProcess (fun vs hvs hs' => ?_) (fun _ _ he => nomatch he) hs'
      obtain rfl := Except.ok.inj hs'
      exact load_changes h hvs page frame

theorem VspaceOk.init (pids : Nat → Bool) : VspaceOk (vspaceInit pids) := by
  have hnil : ∀ pid vs, (vspaceInit pids).vspaces pid = some vs → vs = vsInitialise pid := by
    intro pid vs hvs
    simp only [vspaceInit] at hvs
    split_ifs at hvs
    exact (Option.some.inj hvs).symm
  refine ⟨.init (by decide) (by decide), fun pid vs hvs => ?_, fun pid vs hvs => ?_,
    fun pid vs hvs w hw => ?_⟩
  · rw [hnil pid vs hvs]
    rfl
  · rw [hnil pid vs hvs]
    exact List.nodup_nil
  · rw [hnil pid vs hvs] at hw
    cases hw

end Calls

end PartitionSeL4.Refos
