import PartitionSeL4.Refos.VspaceStep

/-!
# Windows and pages over whole runs

Three results about every run of the calls of `Vspace`, each from what one change of an address
space (`VsChange`) does to it.

* `pages_inside`: a page mapped by `vs_map` lies in an associated window. Deleting a window and
  shrinking it unmap every page that `vs_map` can have accepted, for every alignment.
* `lookups_iff`: lookups are right all along a run if and only if no window is deleted that has two
  others above it. The entry that is moved into its place is then in front of the other.
* `below_kernel`: windows end below the memory of the kernel if no request wraps around and none
  resizes a window beyond. The handler for new windows adds in 32 bits, the one for sizes checks
  nothing.
-/

namespace PartitionSeL4.Refos

open Lib

/-- The windows of a process. -/
def VspaceState.associated (s : VspaceState) (pid : Nat) : List AssociatedWindow :=
  match s.vspaces pid with
  | some vs => vs.windows.associated
  | none => []

theorem associated_of_vspaces {s : VspaceState} {pid : Nat} {vs : Vspace}
    (h : s.vspaces pid = some vs) : s.associated pid = vs.windows.associated := by
  rw [VspaceState.associated, h]

theorem vspaceInit_some {pids : Nat → Bool} {pid : Nat} {vs : Vspace}
    (h : (vspaceInit pids).vspaces pid = some vs) : vs = vsInitialise pid := by
  simp only [vspaceInit] at h
  split_ifs at h
  exact (Option.some.inj h).symm

/-! ## Resized entries -/

section Resize

variable {l : List AssociatedWindow} {w v : AssociatedWindow} {winID size : Nat}

theorem mem_setSize (h : v ∈ setSize winID size l) :
    v ∈ l ∨ ∃ w ∈ l, w.winID = winID ∧ v = { w with size := size } := by
  induction l with
  | nil => cases h
  | cons u l ih =>
      rw [setSize] at h
      split_ifs at h with hid
      · rcases List.mem_cons.1 h with rfl | hv
        · exact Or.inr ⟨u, List.mem_cons_self, hid, rfl⟩
        · exact Or.inl (List.mem_cons_of_mem u hv)
      · rcases List.mem_cons.1 h with rfl | hv
        · exact Or.inl List.mem_cons_self
        · rcases ih hv with hv | ⟨w, hw, heq⟩
          · exact Or.inl (List.mem_cons_of_mem u hv)
          · exact Or.inr ⟨w, List.mem_cons_of_mem u hw, heq⟩

theorem mem_setSize_of_find (size : Nat) (hw : l.find? (fun w => w.winID = winID) = some w) :
    { w with size := size } ∈ setSize winID size l ∧
      ∀ v ∈ l, v ≠ w → v ∈ setSize winID size l := by
  induction l with
  | nil => cases hw
  | cons u l ih =>
      rw [List.find?_cons] at hw
      rw [setSize]
      by_cases hid : u.winID = winID
      · rw [if_pos hid]
        simp only [hid, decide_true, Option.some.injEq] at hw
        subst hw
        refine ⟨List.mem_cons_self, fun v hv hne => ?_⟩
        exact List.mem_cons_of_mem _ ((List.mem_cons.1 hv).resolve_left hne)
      · rw [if_neg hid]
        simp only [hid, decide_false] at hw
        obtain ⟨hnew, hrest⟩ := ih hw
        refine ⟨List.mem_cons_of_mem u hnew, fun v hv hne => ?_⟩
        rcases List.mem_cons.1 hv with rfl | hv
        · exact List.mem_cons_self
        · exact List.mem_cons_of_mem u (hrest v hv hne)

end Resize

/-! ## Pages lie in windows -/

/-- The page lies in the window. -/
def AssociatedWindow.HoldsPage (w : AssociatedWindow) (page : Nat) : Prop :=
  w.offset ≤ page * pageSize ∧ (page + 1) * pageSize ≤ w.offset + w.size

/-- Every page mapped by `vs_map` lies in one of the windows. -/
def PagesInside (vs : Vspace) : Prop :=
  ∀ page m, vs.pages page = some m → m.throughVsMap = true →
    ∃ w ∈ vs.windows.associated, w.HoldsPage page

/-- No window passes the end of the 32 bits. -/
def Extents (l : List AssociatedWindow) : Prop := ∀ w ∈ l, w.offset + w.size ≤ 2 ^ 32

/-- The windows asked for end in 32 bits, and so does what is mapped: every caller of `vs_map` maps
a single frame. -/
def RangeArgs (s : VspaceState) : VspaceEvent → Prop
  | .create _ vaddr size _ _ _ _ => vaddr + size ≤ 2 ^ 32
  | .resize pid wID size _ => ∀ w ∈ s.associated pid, w.winID = wID → w.offset + size ≤ 2 ^ 32
  | .map _ vaddr frames _ _ => pageAlign vaddr + frames.length * pageSize ≤ 2 ^ 32
  | _ => True

instance (s : VspaceState) : (e : VspaceEvent) → Decidable (RangeArgs s e)
  | .create _ _ _ _ _ _ _ | .map _ _ _ _ _ => inferInstanceAs (Decidable (_ ≤ _))
  | .resize _ _ _ _ => inferInstanceAs (Decidable (∀ w ∈ _, _))
  | .delete _ _ | .mapAcross _ _ _ _ _ _ | .unmap _ _ _ | .switchMode _ _ | .load _ _ _ =>
      inferInstanceAs (Decidable True)

section Pages

variable {vs vs' : Vspace} {w : AssociatedWindow} {page size vaddr n : Nat}

theorem mem_framePages (hle : vaddr / pageSize ≤ page) (hlt : page < vaddr / pageSize + n)
    (hend : (page + 1) * pageSize ≤ 2 ^ 32) : page ∈ framePages vaddr n := by
  refine List.mem_map.2 ⟨page - vaddr / pageSize, List.mem_range.2 (by omega), ?_⟩
  simp only [pageSize, u32] at *
  omega

theorem roundUpNpages_eq (size : Nat) : roundUpNpages size = (size + 4095) / 4096 := by
  rw [roundUpNpages]
  split_ifs with hmod
  · simp only [pageSize] at *
    omega
  · simp only [pageSize] at *
    omega

theorem mem_framePages_window (hextent : w.offset + w.size ≤ 2 ^ 32) (h : w.HoldsPage page) :
    page ∈ framePages w.offset (roundUpNpages w.size) := by
  obtain ⟨hle, hend⟩ := h
  refine mem_framePages ?_ ?_ (Nat.le_trans hend hextent)
  · simp only [pageSize] at *
    omega
  · rw [roundUpNpages_eq]
    simp only [pageSize] at *
    omega

/-- A window that shrinks loses only pages that are unmapped. -/
theorem mem_framePages_shrink (hextent : w.offset + w.size ≤ 2 ^ 32) (hlt : size < w.size)
    (h : w.HoldsPage page) (hnot : ¬({ w with size := size } : AssociatedWindow).HoldsPage page) :
    page ∈ framePages (pageAlign (u32 (w.offset + size))) (roundUpNpages (w.size - size)) := by
  obtain ⟨hle, hend⟩ := h
  have hlost : w.offset + size < (page + 1) * pageSize := by
    by_contra hin
    exact hnot ⟨hle, Nat.le_of_not_lt hin⟩
  rw [u32_of_lt (by omega)]
  refine mem_framePages ?_ ?_ (Nat.le_trans hend hextent)
  · simp only [pageSize, pageAlign] at *
    omega
  · rw [roundUpNpages_eq]
    simp only [pageSize, pageAlign] at *
    omega

/-- The pages that `vs_map` maps lie in the window that was found. -/
theorem holdsPage_of_findRange {aw : AssociatedWindowlist}
    (hrange : pageAlign vaddr + n * pageSize ≤ 2 ^ 32)
    (h : wAssociateFindRange aw (pageAlign vaddr) (u32 (n * pageSize)) = some w)
    (hpage : page ∈ framePages (pageAlign vaddr) n) : w.HoldsPage page := by
  obtain ⟨va, hva, rfl⟩ := List.mem_map.1 hpage
  rw [List.mem_range] at hva
  obtain ⟨_, ⟨hfirst, _⟩, ⟨_, hlast⟩⟩ := findRange_some h
  simp only [AssociatedWindow.HoldsPage, u32, pageAlign, pageSize] at *
  constructor <;> omega

/-- Pages stay inside windows where none is mapped anew, and every page that is left is still in a
window if it was in one. -/
theorem PagesInside.of_unmaps (h : PagesInside vs) (hpages : Unmaps vs.pages vs'.pages)
    (hkeep : ∀ page m w, vs'.pages page = some m → w ∈ vs.windows.associated → w.HoldsPage page →
      ∃ w' ∈ vs'.windows.associated, w'.HoldsPage page) : PagesInside vs' := by
  intro page m hm hvia
  obtain ⟨w, hw, hholds⟩ := h page m (hpages page m hm) hvia
  exact hkeep page m w hm hw hholds

theorem PagesInside.delete (h : PagesInside vs) (hextents : Extents vs.windows.associated) {i : Nat}
    (found : (wAssociateUpdate vs.windows).associated[i]? = some w)
    (hlist : vs'.windows.associated = swapRemove (wAssociateUpdate vs.windows).associated i)
    (pages : Unmaps (unmapFrames w.offset (roundUpNpages w.size) vs.pages) vs'.pages) :
    PagesInside vs' := by
  refine h.of_unmaps (fun page m hm => (unmapFrames_eq_some (pages page m hm)).2)
    fun page m v hm hv hholds => ?_
  have hnot := (unmapFrames_eq_some (pages page m hm)).1
  -- the page was not in the window that is gone
  have hne : v ≠ w := by
    rintro rfl
    exact hnot (mem_framePages_window (hextents v hv) hholds)
  have hv' := (swapRemove_perm found).mem_iff.1 ((update_perm vs.windows).mem_iff.2 hv)
  exact ⟨v, by rw [hlist]; exact (List.mem_cons.1 hv').resolve_left hne, hholds⟩

theorem PagesInside.resize (h : PagesInside vs) (hextents : Extents vs.windows.associated)
    (found : wAssociateFindWinID vs.windows w.winID = some w)
    (hlist : vs'.windows.associated = setSize w.winID size (wAssociateUpdate vs.windows).associated)
    (pages : Unmaps vs.pages vs'.pages)
    (shrink : size < w.size → vs'.pages = unmapFrames (pageAlign (u32 (w.offset + size)))
      (roundUpNpages (w.size - size)) vs.pages) : PagesInside vs' := by
  obtain ⟨hnew, hrest⟩ := mem_setSize_of_find size found
  refine h.of_unmaps pages fun page m v hm hv hholds => ?_
  by_cases hne : v = w
  · subst hne
    refine ⟨_, by rw [hlist]; exact hnew, ?_⟩
    by_contra hlost
    -- a page that is lost was unmapped
    have hlt : size < v.size := by
      by_contra hge
      exact hlost ⟨hholds.1, Nat.le_trans hholds.2 (by simp only; omega)⟩
    rw [shrink hlt] at hm
    exact (unmapFrames_eq_some hm).1 (mem_framePages_shrink (hextents v hv) hlt hholds hlost)
  · exact ⟨v, by rw [hlist]; exact hrest v ((update_perm vs.windows).mem_iff.2 hv) hne, hholds⟩

theorem PagesInside.map (h : PagesInside vs) {frames : List Nat}
    (hrange : pageAlign vaddr + frames.length * pageSize ≤ 2 ^ 32)
    (found : wAssociateFindRange vs.windows (pageAlign vaddr) (u32 (frames.length * pageSize)) =
      some w)
    (windows : vs'.windows = wAssociateUpdate vs.windows)
    (pages : vs'.pages = mapFrames (pageAlign vaddr) frames vs.pages) : PagesInside vs' := by
  have hperm := update_perm vs.windows
  intro page m hm hvia
  rw [pages] at hm
  rw [windows]
  rcases mapFrames_eq_some hm with hm | hpage
  · obtain ⟨v, hv, hholds⟩ := h page m hm hvia
    exact ⟨v, hperm.mem_iff.2 hv, hholds⟩
  · exact ⟨w, hperm.mem_iff.2 (findRange_some found).1, holdsPage_of_findRange hrange found hpage⟩

theorem VsChange.pagesInside {pid : Nat} {e : VspaceEvent} (h : VsChange pid vs vs' e)
    (hinside : PagesInside vs) (hextents : Extents vs.windows.associated)
    {s : VspaceState} (hvs : s.vspaces pid = some vs) (hargs : RangeArgs s e) :
    PagesInside vs' ∧ Extents vs'.windows.associated := by
  have hperm := update_perm vs.windows
  cases h with
  | lookup looks absent =>
      refine ⟨?_, fun w hw => hextents w (looks.perm.mem_iff.1 hw)⟩
      exact hinside.of_unmaps looks.pages fun _ _ w _ hw hholds =>
        ⟨w, looks.perm.mem_iff.2 hw, hholds⟩
  | @create vaddr size _ wID _ _ _ check valid windows pages =>
      constructor
      · refine hinside.of_unmaps (fun page m hm => pages ▸ hm) fun page m w _ hw hholds => ?_
        rw [windows]
        exact ⟨w, List.mem_append_left _ (hperm.mem_iff.2 hw), hholds⟩
      · intro w hw
        rw [windows] at hw
        rcases List.mem_append.1 hw with hw | hw
        · exact hextents w (hperm.mem_iff.1 hw)
        · obtain rfl := List.mem_singleton.1 hw
          exact hargs
  | @delete i w found windows pages =>
      refine ⟨hinside.delete hextents found (by rw [windows]) pages, fun v hv => ?_⟩
      rw [windows] at hv
      have hv' := (swapRemove_perm found).mem_iff.2 (List.mem_cons_of_mem w hv)
      exact hextents v (hperm.mem_iff.1 hv')
  | @resize w size _ found pos windows pages grow shrink =>
      refine ⟨hinside.resize hextents found (by rw [windows]) pages shrink, fun v hv => ?_⟩
      rw [windows] at hv
      rcases mem_setSize hv with hv | ⟨u, hu, hid, rfl⟩
      · exact hextents v (hperm.mem_iff.1 hv)
      · have hmem : u ∈ s.associated pid := by
          rw [associated_of_vspaces hvs]
          exact hperm.mem_iff.1 hu
        exact hargs u hmem hid
  | @map _ vaddr frames w call found windows pages =>
      have hrange : pageAlign vaddr + frames.length * pageSize ≤ 2 ^ 32 := by
        rcases call with ⟨_, _, rfl⟩ | ⟨_, hlen, hlt⟩
        · exact hargs
        · rw [hlen]
          simp only [pageAlign, pageSize]
          omega
      refine ⟨hinside.map hrange found windows pages, fun v hv => ?_⟩
      rw [windows] at hv
      exact hextents v (hperm.mem_iff.1 hv)
  | @load page frame windows pages =>
      rw [windows]
      refine ⟨fun p m hm hvia => ?_, hextents⟩
      rw [windows]
      rw [pages] at hm
      by_cases hp : p = page
      · subst hp
        rw [Function.update_self] at hm
        rw [← Option.some.inj hm] at hvia
        cases hvia
      · rw [Function.update_of_ne hp] at hm
        exact hinside p m hm hvia

end Pages

/-- What holds of an address space and of what every change makes of it holds in every state. -/
theorem run_vspaces {ok : VspaceState → VspaceEvent → Prop} {P : Vspace → Prop} {pids : Nat → Bool}
    {evs : List VspaceEvent} {s : VspaceState}
    (hrun : Run vspaceStep ok (vspaceInit pids) evs s) (hinit : ∀ pid, P (vsInitialise pid))
    (hstep : ∀ t e pid vs vs', t.vspaces pid = some vs → P vs → ok t e → VsChange pid vs vs' e →
      P vs') :
    ∀ pid vs, s.vspaces pid = some vs → P vs := by
  refine (hrun.invariant (I := fun s => VspaceOk s ∧ ∀ pid vs, s.vspaces pid = some vs → P vs)
    ⟨.init pids, fun pid vs hvs => ?_⟩ fun t e u ⟨hok, hP⟩ hadm hu => ?_).2
  · exact vspaceInit_some hvs ▸ hinit pid
  · obtain ⟨hok', hchanges⟩ := vspaceStep_spec hok hu
    refine ⟨hok', fun pid vs' hvs' => ?_⟩
    cases hvs : t.vspaces pid with
    | none => exact absurd (hvs'.symm.trans ((hchanges pid).1 hvs)) (by simp)
    | some vs =>
        obtain ⟨v, hv, hchange⟩ := (hchanges pid).2 vs hvs
        obtain rfl := Option.some.inj (hvs'.symm.trans hv)
        exact hstep t e pid vs vs' hvs (hP pid vs hvs) hadm hchange

/-- **Mapped pages stay inside windows.** -/
theorem pages_inside {pids : Nat → Bool} {evs : List VspaceEvent} {s : VspaceState}
    (hrun : Run vspaceStep RangeArgs (vspaceInit pids) evs s) {pid : Nat} {vs : Vspace}
    (hvs : s.vspaces pid = some vs) : PagesInside vs := by
  refine (run_vspaces (P := fun vs => PagesInside vs ∧ Extents vs.windows.associated) hrun
    (fun pid => ⟨?_, ?_⟩) ?_ pid vs hvs).1
  · intro page m hm
    cases hm
  · intro w hw
    cases hw
  · intro t e pid vs vs' hvs hP hargs hchange
    exact hchange.pagesInside hP.1 hP.2 hvs hargs

/-- A window whose size is not aligned: a page is mapped at its base, one at its end, and then the
window shrinks. -/
def shrinkingWindow : List VspaceEvent :=
  [.create 1 0x10000 0x3800 3 true (some 0x10000) true, .map 1 0x10000 [7] true true,
    .map 1 0x12fff [8] true true, .resize 1 1 0x2800 (some 0x10000)]

/-- The pages of a process that are mapped, of the first `n`. -/
def VspaceState.mapped (s : VspaceState) (pid n : Nat) : List Nat :=
  match s.vspaces pid with
  | some vs => (List.range n).filter fun page => (vs.pages page).isSome
  | none => []

theorem pages_inside_shrunk :
    ∃ s, Run vspaceStep RangeArgs (vspaceInit (· = 1)) shrinkingWindow s ∧
      (s.mapped 1 32 = [0x10] ∧ s.associated 1 = [⟨1, 0x10000, 0x2800⟩]) ∧
      ∀ vs, s.vspaces 1 = some vs → PagesInside vs := by
  obtain ⟨s, hrun, hs⟩ : ∃ s, Run vspaceStep RangeArgs (vspaceInit (· = 1)) shrinkingWindow s ∧
      (s.mapped 1 32 = [0x10] ∧ s.associated 1 = [⟨1, 0x10000, 0x2800⟩]) :=
    Run.exists_of_exec (by decide +kernel)
  exact ⟨s, hrun, hs, fun vs hvs => pages_inside hrun hvs⟩

/-! ## Lookups -/

/-- The windows asked for are not empty and end below the end of the 32 bits. -/
def FitsArgs (s : VspaceState) : VspaceEvent → Prop
  | .create _ vaddr size _ _ _ _ => 0 < size ∧ vaddr + size < 2 ^ 32
  | .resize pid wID size _ => ∀ w ∈ s.associated pid, w.winID = wID → w.offset + size < 2 ^ 32
  | _ => True

instance (s : VspaceState) : (e : VspaceEvent) → Decidable (FitsArgs s e)
  | .create _ _ _ _ _ _ _ => inferInstanceAs (Decidable (_ ∧ _))
  | .resize _ _ _ _ => inferInstanceAs (Decidable (∀ w ∈ _, _))
  | .map _ _ _ _ _ | .delete _ _ | .mapAcross _ _ _ _ _ _ | .unmap _ _ _ | .switchMode _ _
  | .load _ _ _ => inferInstanceAs (Decidable True)

/-- The windows of a list that start above a window. -/
def windowsAbove (l : List AssociatedWindow) (w : AssociatedWindow) : List AssociatedWindow :=
  l.filter fun v => w.offset < v.offset

/-- A window that is deleted has at most one other above it. -/
def DeletesHigh (s : VspaceState) : VspaceEvent → Prop
  | .delete pid wID => ∀ w ∈ s.associated pid, w.winID = wID →
      (windowsAbove (s.associated pid) w).length ≤ 1
  | _ => True

instance (s : VspaceState) : (e : VspaceEvent) → Decidable (DeletesHigh s e)
  | .delete _ _ => inferInstanceAs (Decidable (∀ w ∈ _, _))
  | .create _ _ _ _ _ _ _ | .resize _ _ _ _ | .map _ _ _ _ _ | .mapAcross _ _ _ _ _ _
  | .unmap _ _ _ | .switchMode _ _ | .load _ _ _ => inferInstanceAs (Decidable True)

/-- Lookups are right in every address space. -/
def AllLookupsRight (s : VspaceState) : Prop :=
  ∀ pid vs, s.vspaces pid = some vs → LookupsRight vs.windows

section Lookups

variable {aw : AssociatedWindowlist} {l : List AssociatedWindow} {w : AssociatedWindow}
  {i size : Nat}

/-- Sorting a list keeps lookups right. -/
theorem lookupsRight_update (hfits : Fits aw.associated) (h : LookupsRight aw) :
    LookupsRight (wAssociateUpdate aw) := by
  obtain ⟨hapart, horder⟩ := (lookupsRight_iff hfits).1 h
  have hperm := update_perm aw
  exact (lookupsRight_iff (hfits.perm hperm.symm)).2
    ⟨apart_of_perm hperm.symm hapart, fun _ => update_inOrder hfits hapart horder⟩

theorem lookupsRight_create (hfits : Fits aw.associated) (h : LookupsRight aw) {wID vaddr : Nat}
    (hpos : 0 < size) (hend : vaddr + size < 2 ^ 32)
    (hcheck : wAssociateCheck aw vaddr size = true) :
    Fits ((wAssociateUpdate aw).associated ++ [⟨wID, vaddr, size⟩]) ∧
      LookupsRight
        { associated := (wAssociateUpdate aw).associated ++ [⟨wID, vaddr, size⟩]
          updated := false } := by
  have hperm := update_perm aw
  have hnew : Fits ((wAssociateUpdate aw).associated ++ [⟨wID, vaddr, size⟩]) := by
    intro v hv
    rcases List.mem_append.1 hv with hv | hv
    · exact hfits v (hperm.mem_iff.1 hv)
    · obtain rfl := List.mem_singleton.1 hv
      exact ⟨hpos, hend⟩
  refine ⟨hnew, (lookupsRight_iff hnew).2 ⟨?_, fun hupdated => nomatch hupdated⟩⟩
  refine List.pairwise_append.2 ⟨apart_of_perm hperm.symm h.apart, List.pairwise_singleton _ _, ?_⟩
  intro v hv u hu
  obtain rfl := List.mem_singleton.1 hu
  exact h.check wID vaddr size hpos hend hcheck v (hperm.mem_iff.1 hv)

/-- Removing an entry keeps lookups right only if at most one window is above it. -/
theorem lookupsRight_delete_iff (hfits : Fits aw.associated) (h : LookupsRight aw)
    (hw : (wAssociateUpdate aw).associated[i]? = some w) :
    Fits (swapRemove (wAssociateUpdate aw).associated i) ∧
      (LookupsRight
          { associated := swapRemove (wAssociateUpdate aw).associated i, updated := true } ↔
        (windowsAbove aw.associated w).length ≤ 1) := by
  obtain ⟨hapart, horder⟩ := (lookupsRight_iff hfits).1 h
  have hperm := update_perm aw
  have hswap := swapRemove_perm hw
  have hsorted := update_inOrder hfits hapart horder
  have hnew : Fits (swapRemove (wAssociateUpdate aw).associated i) := fun v hv =>
    hfits v (hperm.mem_iff.1 (hswap.mem_iff.2 (List.mem_cons_of_mem w hv)))
  have hapart' : (swapRemove (wAssociateUpdate aw).associated i).Pairwise Apart :=
    (apart_of_perm hswap (apart_of_perm hperm.symm hapart)).of_cons
  refine ⟨hnew, ?_⟩
  rw [lookupsRight_iff hnew, windowsAbove, ← (hperm.filter _).length_eq,
    length_filter_above hsorted hw]
  have hmove := inOrder_swapRemove_iff hsorted hw
  constructor
  · intro ⟨_, hstale⟩
    have := hmove.1 (hstale rfl)
    omega
  · intro hlen
    exact ⟨hapart', fun _ => hmove.2 (by omega)⟩

/-- Resizing within what was accepted keeps lookups right. -/
theorem lookupsRight_resize (hfits : Fits aw.associated) (h : LookupsRight aw)
    (hnodup : (aw.associated.map AssociatedWindow.winID).Nodup)
    (hfind : wAssociateFindWinID aw w.winID = some w) (hpos : size ≠ 0)
    (hend : w.offset + size < 2 ^ 32)
    (hgrow : w.size < size → wAssociateCheck (wAssociateUpdate aw) (u32 (w.offset + w.size))
      (size - w.size) = true) :
    Fits (setSize w.winID size (wAssociateUpdate aw).associated) ∧
      LookupsRight
        { associated := setSize w.winID size (wAssociateUpdate aw).associated
          updated := true } := by
  have hperm := update_perm aw
  have hfits' := hfits.perm hperm.symm
  have hright := lookupsRight_update hfits h
  obtain ⟨hapart, horder⟩ := (lookupsRight_iff hfits').1 hright
  have hw : w ∈ (wAssociateUpdate aw).associated := List.mem_of_find?_eq_some hfind
  have hids := (hperm.map AssociatedWindow.winID).nodup_iff.2 hnodup
  have hunique : ∀ v ∈ (wAssociateUpdate aw).associated, v.winID = w.winID → v = w := fun v hv =>
    List.inj_on_of_nodup_map hids hv hw
  -- a window apart from the old one is apart from the new one
  have hnew : ∀ v ∈ (wAssociateUpdate aw).associated, v ≠ w → Apart v w →
      Apart v { w with size := size } := by
    intro v hv _ hvw
    simp only [Apart] at hvw ⊢
    by_cases hlt : w.size < size
    · have hcheck := hgrow hlt
      rw [u32_of_lt (hfits' w hw).2] at hcheck
      have hrest := hright.check w.winID _ _ (by omega) (by omega) hcheck v hv
      have hvpos := (hfits' v hv).1
      simp only [Apart] at hrest
      omega
    · omega
  have hfitsNew : Fits (setSize w.winID size (wAssociateUpdate aw).associated) := by
    intro v hv
    rcases mem_setSize hv with hv | ⟨u, hu, hid, rfl⟩
    · exact hfits' v hv
    · obtain rfl := hunique u hu hid
      exact ⟨Nat.pos_of_ne_zero hpos, hend⟩
  refine ⟨hfitsNew, (lookupsRight_iff hfitsNew).2 ⟨?_, fun _ => ?_⟩⟩
  · rw [setSize_eq_map hids, List.pairwise_map]
    refine (hapart.and hids.of_map).imp_of_mem fun {a b} ha hb hboth => ?_
    obtain ⟨hab, hne⟩ := hboth
    split_ifs with hida hidb hidb
    · exact absurd ((hunique a ha hida).trans (hunique b hb hidb).symm) hne
    · obtain rfl := hunique a ha hida
      exact (hnew b hb hne.symm hab.symm).symm
    · obtain rfl := hunique b hb hidb
      exact hnew a ha hne hab
    · exact hab
  · have hoffsets := horder (update_updated aw)
    simp only [InOrder, setSize_eq_map hids, List.pairwise_map]
    refine List.Pairwise.imp (fun {a b} hab => ?_) hoffsets
    split_ifs <;> exact hab

theorem VsChange.lookupsRight_iff {pid : Nat} {vs vs' : Vspace} {e : VspaceEvent}
    (h : VsChange pid vs vs' e) {s : VspaceState} (hvs : s.vspaces pid = some vs)
    (hnodup : (vs.windows.associated.map AssociatedWindow.winID).Nodup)
    (hfits : Fits vs.windows.associated) (hright : LookupsRight vs.windows)
    (hargs : FitsArgs s e) :
    Fits vs'.windows.associated ∧
      (LookupsRight vs'.windows ↔ ∀ wID, e = .delete pid wID →
        ∀ w ∈ vs.windows.associated, w.winID = wID →
          (windowsAbove vs.windows.associated w).length ≤ 1) := by
  have hperm := update_perm vs.windows
  have hupdate := hfits.perm hperm.symm
  have hsorted := lookupsRight_update hfits hright
  cases h with
  | lookup looks absent =>
      refine ⟨hfits.perm looks.perm.symm, iff_of_true ?_ ?_⟩
      · rcases looks.windows with hw | hw
        · rwa [hw]
        · rwa [hw]
      · exact fun wID he w hw hid => absurd hid (absent wID he w hw)
  | create check valid windows pages =>
      obtain ⟨hpos, hend⟩ := hargs
      rw [windows]
      obtain ⟨hfits', hright'⟩ := lookupsRight_create hfits hright hpos hend check
      exact ⟨hfits', iff_of_true hright' fun _ he => nomatch he⟩
  | @delete i w found windows pages =>
      rw [windows]
      obtain ⟨hfits', hiff⟩ := lookupsRight_delete_iff hfits hright found
      refine ⟨hfits', hiff.trans ⟨?_, fun hall => ?_⟩⟩
      · intro hlen wID he v hv hid
        have hw : w ∈ vs.windows.associated := hperm.mem_iff.1 (List.mem_of_getElem? found)
        injection he with _ he
        obtain rfl : v = w := List.inj_on_of_nodup_map hnodup hv hw (hid.trans he.symm)
        exact hlen
      · exact hall w.winID rfl w (hperm.mem_iff.1 (List.mem_of_getElem? found)) rfl
  | @resize w size _ found pos windows pages grow shrink =>
      have hw : w ∈ s.associated pid := by
        rw [associated_of_vspaces hvs]
        exact hperm.mem_iff.1 (List.mem_of_find?_eq_some found)
      rw [windows]
      obtain ⟨hfits', hright'⟩ :=
        lookupsRight_resize hfits hright hnodup found pos (hargs w hw rfl) grow
      exact ⟨hfits', iff_of_true hright' fun _ he => nomatch he⟩
  | map call found windows pages =>
      rw [windows]
      refine ⟨hupdate, iff_of_true hsorted ?_⟩
      rintro wID rfl
      rcases call with ⟨_, _, he⟩ | ⟨⟨_, _, _, _, _, _, he⟩, _⟩ <;> cases he
  | load windows pages =>
      rw [windows]
      exact ⟨hfits, iff_of_true hright fun _ he => nomatch he⟩

theorem allLookupsRight_init (pids : Nat → Bool) : AllLookupsRight (vspaceInit pids) := by
  intro pid vs hvs
  rw [vspaceInit_some hvs]
  have hempty : Fits (vsInitialise pid).windows.associated := fun _ hw => by cases hw
  exact (Refos.lookupsRight_iff hempty).2
    ⟨List.Pairwise.nil, fun _ => List.Pairwise.nil⟩

/-- **When lookups stay right.** -/
theorem lookups_iff {pids : Nat → Bool} {evs : List VspaceEvent} {s : VspaceState}
    (hrun : Run vspaceStep FitsArgs (vspaceInit pids) evs s) :
    Steps vspaceStep (fun _ _ s' => AllLookupsRight s') evs (vspaceInit pids) ↔
      Steps vspaceStep (fun s e _ => DeletesHigh s e) evs (vspaceInit pids) := by
  refine hrun.steps_iff
    (I := fun s => VspaceOk s ∧ ∀ pid vs, s.vspaces pid = some vs → Fits vs.windows.associated)
    ⟨.init pids, fun pid vs hvs => ?_⟩ (allLookupsRight_init pids) ?_
  · rw [vspaceInit_some hvs]
    exact fun _ hw => nomatch hw
  · intro t e u ⟨hok, hfits⟩ hright hargs hu
    obtain ⟨hok', hchanges⟩ := vspaceStep_spec hok hu
    -- every address space of the next state is one of this state, changed
    have hback : ∀ pid vs', u.vspaces pid = some vs' →
        ∃ vs, t.vspaces pid = some vs ∧ VsChange pid vs vs' e := by
      intro pid vs' hvs'
      cases hvs : t.vspaces pid with
      | none => exact absurd (hvs'.symm.trans ((hchanges pid).1 hvs)) (by simp)
      | some vs =>
          obtain ⟨v, hv, hchange⟩ := (hchanges pid).2 vs hvs
          obtain rfl := Option.some.inj (hvs'.symm.trans hv)
          exact ⟨vs, rfl, hchange⟩
    have hiff : ∀ pid vs vs', t.vspaces pid = some vs → VsChange pid vs vs' e → _ :=
      fun pid vs vs' hvs hchange => hchange.lookupsRight_iff hvs (hok.nodup pid vs hvs)
        (hfits pid vs hvs) (hright pid vs hvs) hargs
    refine ⟨⟨hok', fun pid vs' hvs' => ?_⟩, fun hall => ?_, fun hhigh pid vs' hvs' => ?_⟩
    · obtain ⟨vs, hvs, hchange⟩ := hback pid vs' hvs'
      exact (hiff pid vs vs' hvs hchange).1
    · cases e with
      | delete pid wID =>
          intro w hw hid
          cases hvs : t.vspaces pid with
          | none => simp [VspaceState.associated, hvs] at hw
          | some vs =>
              rw [associated_of_vspaces hvs] at hw ⊢
              obtain ⟨vs', hvs', hchange⟩ := (hchanges pid).2 vs hvs
              exact (hiff pid vs vs' hvs hchange).2.1 (hall pid vs' hvs') wID rfl w hw hid
      | _ => trivial
    · obtain ⟨vs, hvs, hchange⟩ := hback pid vs' hvs'
      refine (hiff pid vs vs' hvs hchange).2.2 ?_
      rintro wID rfl w hw hid
      have hhigh' : ∀ w ∈ t.associated pid, w.winID = wID →
          (windowsAbove (t.associated pid) w).length ≤ 1 := hhigh
      rw [associated_of_vspaces hvs] at hhigh'
      exact hhigh' w hw hid

end Lookups

/-- Three windows, each above the ones before. -/
def threeWindows : List VspaceEvent :=
  [.create 1 0x10000 0x1000 3 true (some 0x10000) true,
    .create 1 0x20000 0x1000 3 true (some 0x20000) true,
    .create 1 0x30000 0x1000 3 true (some 0x30000) true]

/-- The second of three windows is deleted, and lookups stay right. -/
theorem lookups_iff_second : ∃ s, Run vspaceStep FitsArgs (vspaceInit (· = 1))
      (threeWindows ++ [.delete 1 2]) s ∧
    Steps vspaceStep (fun _ _ s' => AllLookupsRight s') (threeWindows ++ [.delete 1 2])
      (vspaceInit (· = 1)) := by
  obtain ⟨s, hrun, _⟩ : ∃ s, Run vspaceStep (fun s e => FitsArgs s e ∧ DeletesHigh s e)
      (vspaceInit (· = 1)) (threeWindows ++ [.delete 1 2]) s ∧ True :=
    Run.exists_of_exec (by decide +kernel)
  have hrun' : Run vspaceStep FitsArgs _ _ s := hrun.mono fun _ _ h => h.1
  exact ⟨s, hrun', (lookups_iff hrun').2 (hrun.steps fun _ _ _ h _ => h.2)⟩

/-- The first of three windows is deleted. The third is moved to the front of the list and not found
any more, and another window can be created over it. -/
theorem window_lost :
    ¬∀ (evs : List VspaceEvent) (s : VspaceState),
      Run vspaceStep FitsArgs (vspaceInit (· = 1)) evs s →
        Steps vspaceStep (fun _ _ s' => AllLookupsRight s') evs (vspaceInit (· = 1)) := by
  intro hall
  obtain ⟨s, hrun, hs⟩ : ∃ s, Run vspaceStep FitsArgs (vspaceInit (· = 1))
      (threeWindows ++ [.delete 1 1, .create 1 0x30000 0x1000 3 true (some 0x30000) true]) s ∧
        ¬(s.associated 1).Pairwise Apart :=
    Run.exists_of_exec (by decide +kernel)
  have hright := hrun.of_steps (allLookupsRight_init _) (hall _ s hrun)
  cases hvs : s.vspaces 1 with
  | none => simp [VspaceState.associated, hvs] at hs
  | some vs =>
      rw [associated_of_vspaces hvs] at hs
      exact hs (hright 1 vs hvs).apart

/-! ## The memory of the kernel -/

/-- No window of any process reaches into the memory of the kernel. -/
def BelowKernel (s : VspaceState) : Prop :=
  ∀ pid, ∀ w ∈ s.associated pid, w.offset + w.size ≤ processKernelReserved

/-- A new window does not wrap around, and a window is not resized beyond. -/
def NoWrap (s : VspaceState) : MemEvent → Prop
  | .createMemWindow _ vaddr size _ _ _ _ => vaddr + size < 2 ^ 32
  | .resizeMemWindow pid wID size _ =>
      ∀ w ∈ s.associated pid, w.winID = wID → w.offset + size ≤ processKernelReserved
  | .deleteMemWindow _ _ => True

instance (s : VspaceState) : (e : MemEvent) → Decidable (NoWrap s e)
  | .createMemWindow _ _ _ _ _ _ _ => inferInstanceAs (Decidable (_ < _))
  | .resizeMemWindow _ _ _ _ => inferInstanceAs (Decidable (∀ w ∈ _, _))
  | .deleteMemWindow _ _ => inferInstanceAs (Decidable True)

theorem VsChange.belowKernel {pid : Nat} {vs vs' : Vspace} {e : VspaceEvent} {bound : Nat}
    (h : VsChange pid vs vs' e)
    (hbelow : ∀ w ∈ vs.windows.associated, w.offset + w.size ≤ bound)
    (hcreate : ∀ vaddr size permissions cacheable reservation memory,
      e = .create pid vaddr size permissions cacheable reservation memory → vaddr + size ≤ bound)
    (hresize : ∀ wID size moved, e = .resize pid wID size moved →
      ∀ w ∈ vs.windows.associated, w.winID = wID → w.offset + size ≤ bound) :
    ∀ w ∈ vs'.windows.associated, w.offset + w.size ≤ bound := by
  have hperm := update_perm vs.windows
  cases h with
  | lookup looks absent => exact fun w hw => hbelow w (looks.perm.mem_iff.1 hw)
  | create check valid windows pages =>
      rw [windows]
      intro w hw
      rcases List.mem_append.1 hw with hw | hw
      · exact hbelow w (hperm.mem_iff.1 hw)
      · obtain rfl := List.mem_singleton.1 hw
        exact hcreate _ _ _ _ _ _ rfl
  | @delete i w found windows pages =>
      rw [windows]
      intro v hv
      have hv' := (swapRemove_perm found).mem_iff.2 (List.mem_cons_of_mem w hv)
      exact hbelow v (hperm.mem_iff.1 hv')
  | resize found pos windows pages grow shrink =>
      rw [windows]
      intro v hv
      rcases mem_setSize hv with hv | ⟨u, hu, hid, rfl⟩
      · exact hbelow v (hperm.mem_iff.1 hv)
      · exact hresize _ _ _ rfl u (hperm.mem_iff.1 hu) hid
  | map call found windows pages =>
      rw [windows]
      exact fun w hw => hbelow w (hperm.mem_iff.1 hw)
  | load windows pages =>
      rw [windows]
      exact hbelow

theorem belowKernel_step {s s' : VspaceState} {e : VspaceEvent} (h : VspaceOk s)
    (hbelow : BelowKernel s) (hs' : vspaceStep s e = .ok s')
    (hcreate : ∀ pid vaddr size permissions cacheable reservation memory,
      e = .create pid vaddr size permissions cacheable reservation memory →
        vaddr + size ≤ processKernelReserved)
    (hresize : ∀ pid wID size moved, e = .resize pid wID size moved →
      ∀ w ∈ s.associated pid, w.winID = wID → w.offset + size ≤ processKernelReserved) :
    VspaceOk s' ∧ BelowKernel s' := by
  obtain ⟨hok', hchanges⟩ := vspaceStep_spec h hs'
  refine ⟨hok', fun pid w hw => ?_⟩
  cases hvs : s.vspaces pid with
  | none => simp [VspaceState.associated, (hchanges pid).1 hvs] at hw
  | some vs =>
      obtain ⟨vs', hvs', hchange⟩ := (hchanges pid).2 vs hvs
      rw [associated_of_vspaces hvs'] at hw
      have hassociated := associated_of_vspaces hvs
      refine hchange.belowKernel (hassociated ▸ hbelow pid) (hcreate pid) ?_ w hw
      exact fun wID size moved he => hassociated ▸ hresize pid wID size moved he

/-- **No window reaches the kernel, without wrapping and resizing beyond.** -/
theorem below_kernel {pids : Nat → Bool} {evs : List MemEvent} {s : VspaceState}
    (hrun : Run memStep NoWrap (vspaceInit pids) evs s) : BelowKernel s := by
  refine (hrun.invariant (I := fun s => VspaceOk s ∧ BelowKernel s) ⟨.init pids, ?_⟩ ?_).2
  · intro pid w hw
    cases hvs : (vspaceInit pids).vspaces pid with
    | none => simp [VspaceState.associated, hvs] at hw
    | some vs =>
        rw [associated_of_vspaces hvs, vspaceInit_some hvs] at hw
        cases hw
  · intro t e u ⟨hok, hbelow⟩ hargs hu
    cases e with
    | createMemWindow pid vaddr size permissions cached reservation memory =>
        rw [memStep] at hu
        split_ifs at hu with hcheck
        · obtain rfl := Except.ok.inj hu
          exact ⟨hok, hbelow⟩
        · refine belowKernel_step hok hbelow hu ?_ fun _ _ _ _ he => nomatch he
          intro _ _ _ _ _ _ _ he
          injection he with _ hvaddr hsize
          subst hvaddr
          subst hsize
          have hlt : vaddr + size < 2 ^ 32 := hargs
          rw [Nat.add_comm size vaddr, u32_of_lt hlt] at hcheck
          omega
    | resizeMemWindow pid wID size moved =>
        rw [memStep] at hu
        refine belowKernel_step hok hbelow hu (fun _ _ _ _ _ _ _ he => nomatch he) ?_
        intro _ _ _ _ he
        injection he with hpid hwID hsize
        subst hpid
        subst hwID
        subst hsize
        exact hargs
    | deleteMemWindow pid wID =>
        rw [memStep] at hu
        exact belowKernel_step hok hbelow hu (fun _ _ _ _ _ _ _ he => nomatch he)
          fun _ _ _ _ he => nomatch he

/-- A window just below the kernel, and one that grows. -/
def lowWindows : List MemEvent :=
  [.createMemWindow 1 0xDFFFF000 0x1000 3 true (some 0xDFFFF000) true,
    .createMemWindow 1 0x1000 0x1000 3 true (some 0x1000) true,
    .resizeMemWindow 1 2 0x5000 (some 0x1000)]

theorem below_kernel_low : ∃ s, Run memStep NoWrap (vspaceInit (· = 1)) lowWindows s ∧
    s.associated 1 = [⟨2, 0x1000, 0x5000⟩, ⟨1, 0xDFFFF000, 0x1000⟩] ∧ BelowKernel s := by
  obtain ⟨s, hrun, hs⟩ : ∃ s, Run memStep NoWrap (vspaceInit (· = 1)) lowWindows s ∧
      s.associated 1 = [⟨2, 0x1000, 0x5000⟩, ⟨1, 0xDFFFF000, 0x1000⟩] :=
    Run.exists_of_exec (by decide +kernel)
  exact ⟨s, hrun, hs, below_kernel hrun⟩

theorem not_belowKernel {s : VspaceState} {pid : Nat} {w : AssociatedWindow}
    (hs : s.associated pid = [w]) (hend : processKernelReserved < w.offset + w.size) :
    ¬BelowKernel s := by
  intro hbelow
  have := hbelow pid w (by rw [hs]; exact List.mem_singleton.2 rfl)
  omega

/-- A window is resized over the memory of the kernel, and up to the end of the 32 bits; and one is
created whose end wraps around. -/
theorem window_over_kernel :
    (∃ s, Run memStep (fun _ _ => True) (vspaceInit (· = 1))
      [.createMemWindow 1 0x1000 0x1000 3 true (some 0x1000) true,
        .resizeMemWindow 1 1 0xE0000000 (some 0x1000)] s ∧
      s.associated 1 = [⟨1, 0x1000, 0xE0000000⟩] ∧ ¬BelowKernel s) ∧
    (∃ s, Run memStep (fun _ _ => True) (vspaceInit (· = 1))
      [.createMemWindow 1 0x1000 0x1000 3 true (some 0x1000) true,
        .resizeMemWindow 1 1 0xFFFFF000 (some 0x1000)] s ∧
      s.associated 1 = [⟨1, 0x1000, 0xFFFFF000⟩] ∧ ¬BelowKernel s) ∧
    ∃ s, Run memStep (fun _ _ => True) (vspaceInit (· = 1))
      [.createMemWindow 1 0xD0000000 0x40000000 3 true (some 0xD0000000) true] s ∧
      s.associated 1 = [⟨1, 0xD0000000, 0x40000000⟩] ∧ ¬BelowKernel s := by
  refine ⟨?_, ?_, ?_⟩
  · obtain ⟨s, hrun, hs⟩ : ∃ s, Run memStep (fun _ _ => True) (vspaceInit (· = 1))
        [.createMemWindow 1 0x1000 0x1000 3 true (some 0x1000) true,
          .resizeMemWindow 1 1 0xE0000000 (some 0x1000)] s ∧
        s.associated 1 = [⟨1, 0x1000, 0xE0000000⟩] := Run.exists_of_exec (by decide +kernel)
    exact ⟨s, hrun, hs, not_belowKernel hs (by decide)⟩
  · obtain ⟨s, hrun, hs⟩ : ∃ s, Run memStep (fun _ _ => True) (vspaceInit (· = 1))
        [.createMemWindow 1 0x1000 0x1000 3 true (some 0x1000) true,
          .resizeMemWindow 1 1 0xFFFFF000 (some 0x1000)] s ∧
        s.associated 1 = [⟨1, 0x1000, 0xFFFFF000⟩] := Run.exists_of_exec (by decide +kernel)
    exact ⟨s, hrun, hs, not_belowKernel hs (by decide)⟩
  · obtain ⟨s, hrun, hs⟩ : ∃ s, Run memStep (fun _ _ => True) (vspaceInit (· = 1))
        [.createMemWindow 1 0xD0000000 0x40000000 3 true (some 0xD0000000) true] s ∧
        s.associated 1 = [⟨1, 0xD0000000, 0x40000000⟩] := Run.exists_of_exec (by decide +kernel)
    exact ⟨s, hrun, hs, not_belowKernel hs (by decide)⟩

end PartitionSeL4.Refos
