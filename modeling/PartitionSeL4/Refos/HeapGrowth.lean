import PartitionSeL4.Refos.ContentInit
import PartitionSeL4.Refos.VspaceStep

/-!
# Growing the heap

`refosio_morecore_expand` has the dataspace of the heap expanded and then the window on it resized.
Where the window is refused, because another one is in the way, the dataspace stays as it is: the
process server does not contract dataspaces, and says so by refusing any size of fewer pages. A
request for less is refused from then on although the window could grow, until one asks for as many
pages as the refused one (`AfterRefusal`). Where the dataspace is refused in the first place,
nothing is lost.

The IPC buffer is saved before the first request and restored only after the second, so that a
failure takes up one of `IPC_SAVESTACK_MAXLEVELS` places of the stack of saved ones.
-/

namespace PartitionSeL4.Refos

open Lib

/-! ## `morecore.c` -/

/-- `IPC_SAVESTACK_MAXLEVELS` -/
def ipcSavestackMaxlevels : Nat := 4

/-- `sl_dataspace_t`; the capability of the window is given by the id of the window. -/
structure SlDataspace where
  dataspace : Nat
  window : Nat
  vaddr : Nat
  size : Nat
  deriving DecidableEq, Repr

/-- The region of the heap, and what it stands for in the process server: its dataspace, and the
address space of the process that has its window. -/
structure HeapState where
  region : SlDataspace
  ipcBufferBackupStack : Nat
  dspace : RamDspace
  pid : Nat
  server : VspaceState

/-- What is not up to the sizes: whether the arrays of the dataspace can be reallocated, and where
the reservation of the window is moved, if it can be. -/
structure ExpandOutcome where
  pages : Bool
  bitmask : Bool
  moved : Option Nat
  deriving DecidableEq, Repr

/-- `proc_resize_mem_window_handler` -/
def procResizeMemWindow (s : VspaceState) (pid wID size : Nat) (moved : Option Nat) :
    Except Failure (Err × VspaceState) :=
  match s.vspaces pid with
  | none => .error .fault
  | some vs => vsResizeWindow s vs wID size moved

/-- `region->size + sizeAdd` -/
def HeapState.newSize (h : HeapState) (sizeAdd : Nat) : Nat := u32 (h.region.size + sizeAdd)

/-- `refosio_morecore_expand` -/
def refosioMorecoreExpand (h : HeapState) (sizeAdd : Nat) (o : ExpandOutcome) :
    Except Failure (Err × HeapState) :=
  if h.region.dataspace = 0 ∨ h.region.vaddr = 0 then .error .assertion
  else if sizeAdd = 0 then .ok (.success, h)
  else if ipcSavestackMaxlevels ≤ h.ipcBufferBackupStack then .error .assertion
  else
    let size := h.newSize sizeAdd
    let (error, dspace) := ramDspaceExpand h.dspace size o.pages o.bitmask
    -- the IPC buffer has been saved, and is restored only at the end
    let saved := { h with ipcBufferBackupStack := h.ipcBufferBackupStack + 1, dspace := dspace }
    if error ≠ .success then .ok (error, saved)
    else if h.region.window = 0 then .error .assertion
    else do
      let (error, server) ← procResizeMemWindow h.server h.pid h.region.window size o.moved
      if error ≠ .success then return (error, { saved with server := server })
      return (.success,
        { saved with
          ipcBufferBackupStack := h.ipcBufferBackupStack
          server := server
          region := { h.region with size := size } })

/-! ## Sizes -/

namespace HeapState

/-- The window of the region has a size: in the address space of the process and in the table of
windows. -/
def WindowHas (h : HeapState) (size : Nat) : Prop :=
  ∃ vs awindow window, h.server.vspaces h.pid = some vs ∧ vs.pid = h.pid ∧
    wAssociateFindWinID vs.windows h.region.window = some awindow ∧ awindow.size = size ∧
    wGetWindow h.server.windowList h.region.window = some window ∧ window.size = size

/-- Region, window and dataspace are of one size. -/
structure SameSize (h : HeapState) : Prop where
  word : h.region.size < 2 ^ 32
  window : h.WindowHas h.region.size
  dspace : h.dspace.npages * pageSize = h.region.size

/-- The expansion of the dataspace is refused. -/
def DspaceRefused (h : HeapState) (sizeAdd : Nat) (o : ExpandOutcome) : Prop :=
  (ramDspaceExpand h.dspace (h.newSize sizeAdd) o.pages o.bitmask).1 ≠ .success

/-- A later state, in which the windows may be different, and other dataspaces; there is room to
save the IPC buffer. -/
structure Later (t u : HeapState) : Prop where
  region : u.region = t.region
  dspace : u.dspace = t.dspace
  room : u.ipcBufferBackupStack < ipcSavestackMaxlevels

/-- The window can grow to the size asked for. -/
def CanGrow (u : HeapState) (sizeAdd : Nat) (moved : Option Nat) : Prop :=
  u.region.size < u.newSize sizeAdd ∧
    ∃ server, procResizeMemWindow u.server u.pid u.region.window (u.newSize sizeAdd) moved =
      .ok (.success, server)

/-- The request succeeds, where there is memory. -/
def Succeeds (u : HeapState) (sizeAdd : Nat) (moved : Option Nat) : Prop :=
  ∃ v, refosioMorecoreExpand u sizeAdd ⟨true, true, moved⟩ = .ok (.success, v)

end HeapState

/-- What a request that has failed leaves behind. The region and its window keep their size. If the
dataspace was refused it does so too, and later requests succeed for which the window can grow; if
it was the window, the dataspace has the pages of the size that was asked for, and later requests
succeed that ask for as many pages. -/
structure AfterRefusal (h t : HeapState) (sizeAdd : Nat) (o : ExpandOutcome) : Prop where
  region : t.region = h.region
  window : t.WindowHas t.region.size
  dspaceRefused : h.DspaceRefused sizeAdd o → t.SameSize ∧
    ∀ u sizeAdd' moved, t.Later u → u.CanGrow sizeAdd' moved → u.Succeeds sizeAdd' moved
  windowRefused : ¬h.DspaceRefused sizeAdd o → t.dspace.npages = roundUpNpages (h.newSize sizeAdd) ∧
    ∀ u sizeAdd' moved, t.Later u → u.CanGrow sizeAdd' moved →
      (u.Succeeds sizeAdd' moved ↔ roundUpNpages (h.newSize sizeAdd) ≤
        roundUpNpages (u.newSize sizeAdd'))

/-! ## The two requests -/

theorem ramDspaceExpand_npages (dataspace : RamDspace) (size : Nat) (pages bitmask : Bool) :
    (ramDspaceExpand dataspace size pages bitmask).2.npages =
      if (ramDspaceExpand dataspace size pages bitmask).1 = .success then roundUpNpages size
      else dataspace.npages := by
  rw [ramDspaceExpand]
  dsimp only
  split_ifs <;> first | rfl | exact Eq.symm ‹_› | contradiction

/-- With memory, an expansion is refused only if it would contract the dataspace. -/
theorem ramDspaceExpand_success_iff (dataspace : RamDspace) (size : Nat) :
    (ramDspaceExpand dataspace size true true).1 = .success ↔
      dataspace.npages ≤ roundUpNpages size := by
  rw [ramDspaceExpand]
  dsimp only
  by_cases hless : roundUpNpages size < dataspace.npages
  · rw [if_pos hless]
    exact iff_of_false Err.noConfusion (Nat.not_le_of_lt hless)
  rw [if_neg hless]
  refine iff_of_true ?_ (Nat.le_of_not_lt hless)
  split_ifs with _ hpages _
  · rfl
  · cases hpages
  · rfl
  · rfl

/-- What is left of an address space in which a window was looked up, and no more. -/
def AfterLookup (s : VspaceState) (vs : Vspace) (s' : VspaceState) : Prop :=
  s'.windowList = s.windowList ∧ (s' = s ∨ ∃ vs', s' = s.setVspace vs.pid vs' ∧
    vs'.pid = vs.pid ∧ vs'.windows = wAssociateUpdate vs.windows)

theorem AfterLookup.setVspace {s : VspaceState} {vs vs' : Vspace} (hpid : vs'.pid = vs.pid)
    (hwindows : vs'.windows = wAssociateUpdate vs.windows) :
    AfterLookup s vs (s.setVspace vs.pid vs') :=
  ⟨rfl, Or.inr ⟨vs', rfl, hpid, hwindows⟩⟩

theorem resizeTo_refused {s s' : VspaceState} {vs : Vspace} {wID size : Nat} {window : Window}
    {moved : Option Nat} {error : Err} (h : resizeTo s vs wID window size moved = (error, s'))
    (herr : error ≠ .success) : s' = s.setVspace vs.pid vs := by
  simp only [resizeTo] at h
  split_ifs at h with hsize
  · exact absurd (Prod.mk.inj h).1.symm herr
  · cases moved with
    | none => exact (Prod.mk.inj h).2.symm
    | some start => exact absurd (Prod.mk.inj h).1.symm herr

/-- A resize that is refused does no more than look up the window. -/
theorem vsResizeWindow_refused {s s' : VspaceState} {vs : Vspace} {wID size : Nat}
    {moved : Option Nat} {error : Err}
    (h : vsResizeWindow s vs wID size moved = .ok (error, s')) (herr : error ≠ .success) :
    AfterLookup s vs s' := by
  rw [vsResizeWindow] at h
  by_cases hzero : size = 0
  · rw [if_pos hzero] at h
    obtain ⟨_, rfl⟩ := Prod.mk.inj (Except.ok.inj h)
    exact ⟨rfl, Or.inl rfl⟩
  rw [if_neg hzero] at h
  cases hfind : wAssociateFindWinID vs.windows wID with
  | none =>
      rw [hfind] at h
      obtain ⟨_, rfl⟩ := Prod.mk.inj (Except.ok.inj h)
      exact .setVspace rfl rfl
  | some awindow =>
      rw [hfind] at h
      cases hget : wGetWindow s.windowList wID with
      | none =>
          rw [hget] at h
          obtain ⟨_, rfl⟩ := Prod.mk.inj (Except.ok.inj h)
          exact .setVspace rfl rfl
      | some window =>
          rw [hget] at h
          dsimp only at h
          split_ifs at h with _ hgrow hcheck hshrink
          · rw [resizeTo_refused (Except.ok.inj h) herr]
            exact .setVspace rfl rfl
          · obtain ⟨_, rfl⟩ := Prod.mk.inj (Except.ok.inj h)
            exact .setVspace rfl rfl
          · obtain ⟨⟨error', vs₁⟩, hunmap, h⟩ := bind_eq_ok_iff.1 h
            obtain ⟨hlook, hlist, _⟩ := vsUnmap_spec hunmap
            have hpid : vs₁.pid = vs.pid := hlook.pid
            have hwindows := hlist.trans (update_update vs.windows)
            dsimp only at h
            split_ifs at h with hsuccess
            · rw [resizeTo_refused (Except.ok.inj h) herr, hpid]
              exact .setVspace hpid hwindows
            · obtain ⟨_, rfl⟩ := Prod.mk.inj (Except.ok.inj h)
              rw [hpid]
              exact .setVspace hpid hwindows
          · rw [resizeTo_refused (Except.ok.inj h) herr]
            exact .setVspace rfl rfl

/-! ## Failure and success -/

section

variable {h t u : HeapState} {sizeAdd : Nat} {o : ExpandOutcome} {error : Err}

theorem HeapState.WindowHas.window_ne {size : Nat} (hwindow : h.WindowHas size) :
    h.region.window ≠ 0 := by
  obtain ⟨_, _, _, _, _, _, _, hget, _⟩ := hwindow
  rintro hzero
  rw [wGetWindow, if_pos (Or.inl hzero)] at hget
  cases hget

theorem HeapState.WindowHas.afterLookup {size : Nat} (hwindow : h.WindowHas size)
    (hregion : t.region = h.region) (hpid : t.pid = h.pid)
    (hserver : ∀ vs, h.server.vspaces h.pid = some vs → AfterLookup h.server vs t.server) :
    t.WindowHas size := by
  obtain ⟨vs, awindow, window, hvs, hvspid, hfind, hsize, hget, hwsize⟩ := hwindow
  obtain ⟨hlist, hsame⟩ := hserver vs hvs
  rcases hsame with heq | ⟨vs', heq, hpid', hwindows⟩
  · refine ⟨vs, awindow, window, ?_, hvspid.trans hpid.symm, ?_, hsize, ?_, hwsize⟩
    · rw [heq, hpid, hvs]
    · rw [hregion, hfind]
    · rw [hlist, hregion, hget]
  · refine ⟨vs', awindow, window, ?_, ?_, ?_, hsize, ?_, hwsize⟩
    · rw [heq, hpid, ← hvspid, setVspace_self]
    · rw [hpid', hvspid, hpid]
    · rw [hregion, wAssociateFindWinID, hwindows, update_update]
      exact hfind
    · rw [hlist, hregion, hget]

theorem valid_of_expand {r : Err × HeapState} (hr : refosioMorecoreExpand h sizeAdd o = .ok r) :
    h.region.dataspace ≠ 0 ∧ h.region.vaddr ≠ 0 := by
  rw [refosioMorecoreExpand] at hr
  split_ifs at hr with hnull <;> exact not_or.1 hnull

/-- Either the dataspace is refused and nothing has happened, or it has been expanded and the window
is refused. -/
theorem expand_failed (hfail : refosioMorecoreExpand h sizeAdd o = .ok (error, t))
    (herr : error ≠ .success) :
    t.region = h.region ∧ t.pid = h.pid ∧
      (h.DspaceRefused sizeAdd o ∧ t.server = h.server ∧ t.dspace.npages = h.dspace.npages ∨
        ¬h.DspaceRefused sizeAdd o ∧ t.dspace.npages = roundUpNpages (h.newSize sizeAdd) ∧
          procResizeMemWindow h.server h.pid h.region.window (h.newSize sizeAdd) o.moved =
            .ok (error, t.server)) := by
  have hnpages := ramDspaceExpand_npages h.dspace (h.newSize sizeAdd) o.pages o.bitmask
  rw [refosioMorecoreExpand] at hfail
  by_cases hnull : h.region.dataspace = 0 ∨ h.region.vaddr = 0
  · rw [if_pos hnull] at hfail
    cases hfail
  rw [if_neg hnull] at hfail
  by_cases hzero : sizeAdd = 0
  · rw [if_pos hzero] at hfail
    exact absurd (Prod.mk.inj (Except.ok.inj hfail)).1.symm herr
  rw [if_neg hzero] at hfail
  by_cases hstack : ipcSavestackMaxlevels ≤ h.ipcBufferBackupStack
  · rw [if_pos hstack] at hfail
    cases hfail
  rw [if_neg hstack] at hfail
  dsimp only at hfail
  rw [HeapState.DspaceRefused]
  by_cases hrefused : (ramDspaceExpand h.dspace (h.newSize sizeAdd) o.pages o.bitmask).1 = .success
  · rw [if_pos hrefused] at hnpages
    rw [if_neg (not_not.2 hrefused)] at hfail
    by_cases hwindow : h.region.window = 0
    · rw [if_pos hwindow] at hfail
      cases hfail
    rw [if_neg hwindow] at hfail
    obtain ⟨⟨error', server⟩, hresize, hfail⟩ := bind_eq_ok_iff.1 hfail
    dsimp only at hfail
    by_cases herr' : error' = .success
    · rw [if_neg (not_not.2 herr')] at hfail
      exact absurd (Prod.mk.inj (Except.ok.inj hfail)).1.symm herr
    · rw [if_pos herr'] at hfail
      obtain ⟨rfl, rfl⟩ := Prod.mk.inj (Except.ok.inj hfail)
      exact ⟨rfl, rfl, Or.inr ⟨not_not.2 hrefused, hnpages, hresize⟩⟩
  · rw [if_neg hrefused] at hnpages
    rw [if_pos hrefused] at hfail
    obtain ⟨_, rfl⟩ := Prod.mk.inj (Except.ok.inj hfail)
    exact ⟨rfl, rfl, Or.inl ⟨hrefused, rfl, hnpages⟩⟩

/-- A request for which the window can grow succeeds unless it contracts the dataspace. -/
theorem succeeds_iff {moved : Option Nat} (hdspace : u.region.dataspace ≠ 0)
    (hvaddr : u.region.vaddr ≠ 0) (hwindow : u.region.window ≠ 0)
    (hroom : u.ipcBufferBackupStack < ipcSavestackMaxlevels) (hsize : u.region.size < 2 ^ 32)
    (hgrow : u.CanGrow sizeAdd moved) :
    u.Succeeds sizeAdd moved ↔ u.dspace.npages ≤ roundUpNpages (u.newSize sizeAdd) := by
  obtain ⟨hlt, server, hresize⟩ := hgrow
  have hzero : sizeAdd ≠ 0 := by
    rintro rfl
    rw [HeapState.newSize, Nat.add_zero, u32_of_lt hsize] at hlt
    exact Nat.lt_irrefl _ hlt
  rw [← ramDspaceExpand_success_iff, HeapState.Succeeds, refosioMorecoreExpand,
    if_neg (not_or.2 ⟨hdspace, hvaddr⟩), if_neg hzero, if_neg (Nat.not_le_of_lt hroom)]
  dsimp only
  by_cases hexpand : (ramDspaceExpand u.dspace (u.newSize sizeAdd) true true).1 = .success
  · rw [if_neg (not_not.2 hexpand), if_neg hwindow, hresize]
    exact iff_of_true ⟨_, rfl⟩ hexpand
  · rw [if_pos hexpand]
    refine iff_of_false ?_ hexpand
    rintro ⟨v, hv⟩
    exact hexpand (Prod.mk.inj (Except.ok.inj hv)).1

theorem npages_le_roundUpNpages {npages size : Nat} (h : npages * pageSize ≤ size) :
    npages ≤ roundUpNpages size := by
  have hdiv : npages ≤ size / pageSize := (Nat.le_div_iff_mul_le (by decide)).2 h
  exact Nat.le_trans hdiv (Nat.le_add_right _ _)

end

/-- **After a failed expansion of the heap.** For every region whose window and dataspace have its
size, and every request that fails: region and window keep their size, and later requests for
which the window can grow succeed if the dataspace was refused, and otherwise if and only if they
ask for as many pages as the one that failed. -/
theorem after_refusal (h t : HeapState) (sizeAdd : Nat) (o : ExpandOutcome) (error : Err)
    (hsame : h.SameSize) (hfail : refosioMorecoreExpand h sizeAdd o = .ok (error, t))
    (herr : error ≠ .success) : AfterRefusal h t sizeAdd o := by
  obtain ⟨hdspace, hvaddr⟩ := valid_of_expand hfail
  obtain ⟨hregion, hpid, hcases⟩ := expand_failed hfail herr
  have hlater : ∀ u sizeAdd' moved, t.Later u → u.CanGrow sizeAdd' moved →
      (u.Succeeds sizeAdd' moved ↔ t.dspace.npages ≤ roundUpNpages (u.newSize sizeAdd')) := by
    intro u sizeAdd' moved hu hgrow
    have hregionu : u.region = h.region := hu.region.trans hregion
    rw [← hu.dspace]
    apply succeeds_iff _ _ _ hu.room _ hgrow <;> rw [hregionu]
    · exact hdspace
    · exact hvaddr
    · exact hsame.window.window_ne
    · exact hsame.word
  have hwindow : t.WindowHas t.region.size := by
    rw [hregion]
    refine hsame.window.afterLookup hregion hpid fun vs hvs => ?_
    rcases hcases with ⟨_, hserver, _⟩ | ⟨_, _, hresize⟩
    · rw [hserver]
      exact ⟨rfl, Or.inl rfl⟩
    · rw [procResizeMemWindow, hvs] at hresize
      exact vsResizeWindow_refused hresize herr
  refine ⟨hregion, hwindow, fun hrefused => ?_, fun hrefused => ?_⟩
  · obtain ⟨_, _, hnpages⟩ := hcases.resolve_right fun hr => hr.1 hrefused
    have hpages : t.dspace.npages * pageSize = t.region.size := by
      rw [hnpages, hregion, hsame.dspace]
    refine ⟨⟨hregion ▸ hsame.word, hwindow, hpages⟩, fun u sizeAdd' moved hu hgrow => ?_⟩
    apply (hlater u sizeAdd' moved hu hgrow).2
    apply npages_le_roundUpNpages
    rw [hpages, ← hu.region]
    exact Nat.le_of_lt hgrow.1
  · obtain ⟨_, hnpages, _⟩ := hcases.resolve_left fun hr => hrefused hr.1
    refine ⟨hnpages, fun u sizeAdd' moved hu hgrow => ?_⟩
    rw [hlater u sizeAdd' moved hu hgrow, hnpages]

/-! ## A window in the way -/

/-- A heap of one page, in the address space of process 1. -/
def onePageHeap (server : VspaceState) : HeapState where
  region := { dataspace := 5, window := 1, vaddr := 0x10000, size := 0x1000 }
  ipcBufferBackupStack := 0
  dspace := ramDspaceOatCreate 0x1000
  pid := 1
  server := server

/-- Another window two pages above: two more pages are refused, and then one more is refused too,
although the window could grow by one. -/
theorem window_in_the_way : ∃ h t : HeapState, h.SameSize ∧
    refosioMorecoreExpand h 0x2000 ⟨true, true, some 0x10000⟩ = .ok (.invalidParam, t) ∧
    t.dspace.npages = 3 ∧ t.Later t ∧ t.CanGrow 0x1000 (some 0x10000) ∧
    ¬t.Succeeds 0x1000 (some 0x10000) := by
  obtain ⟨s, _, hvspace, hwindow, hexpand⟩ : ∃ s, Run vspaceStep (fun _ _ => True)
      (vspaceInit (· = 1)) [.create 1 0x10000 0x1000 3 true (some 0x10000) true,
        .create 1 0x12000 0x1000 3 true (some 0x12000) true] s ∧
      ((s.vspaces 1).map fun vs => (vs.pid, wAssociateFindWinID vs.windows 1)) =
        some (1, some ⟨1, 0x10000, 0x1000⟩) ∧
      (wGetWindow s.windowList 1).map Window.size = some 0x1000 ∧
      ((refosioMorecoreExpand (onePageHeap s) 0x2000 ⟨true, true, some 0x10000⟩).toOption.any
        fun r => r.1 = .invalidParam ∧ r.2.dspace.npages = 3 ∧ r.2.region.size = 0x1000 ∧
          r.2.ipcBufferBackupStack < ipcSavestackMaxlevels ∧
          (procResizeMemWindow r.2.server r.2.pid r.2.region.window 0x2000
            (some 0x10000)).toOption.map Prod.fst = some .success ∧
          (refosioMorecoreExpand r.2 0x1000 ⟨true, true, some 0x10000⟩).toOption.map Prod.fst =
            some .invalidParam) = true := by
    apply Run.exists_of_exec
    decide +kernel
  obtain ⟨⟨error, t⟩, ht, hfacts⟩ := (Option.any_eq_true _ _).1 hexpand
  obtain ⟨rfl, hnpages, hsize, hroom, hresize, hagain⟩ := of_decide_eq_true hfacts
  have hsame : (onePageHeap s).SameSize := by
    obtain ⟨vs, hvs, heq⟩ := Option.map_eq_some_iff.1 hvspace
    obtain ⟨hpid, hfind⟩ := Prod.mk.inj heq
    obtain ⟨window, hget, hwsize⟩ := Option.map_eq_some_iff.1 hwindow
    exact ⟨(by decide : 0x1000 < 2 ^ 32), ⟨vs, _, window, hvs, hpid, hfind, rfl, hget, hwsize⟩,
      (by decide : roundUpNpages 0x1000 * pageSize = 0x1000)⟩
  have hnew : t.newSize 0x1000 = 0x2000 := by
    rw [HeapState.newSize, hsize]
    rfl
  refine ⟨onePageHeap s, t, hsame, eq_ok_of_toOption ht, hnpages, ⟨rfl, rfl, hroom⟩, ⟨?_, ?_⟩, ?_⟩
  · rw [hsize, hnew]
    decide
  · obtain ⟨⟨_, server⟩, hok, rfl⟩ := Option.map_eq_some_iff.1 hresize
    rw [hnew]
    exact ⟨server, eq_ok_of_toOption hok⟩
  · rintro ⟨v, hv⟩
    rw [hv] at hagain
    cases hagain

/-- The heap of one page with another window two pages above. -/
theorem after_refusal_one : ∃ h t, AfterRefusal h t 0x2000 ⟨true, true, some 0x10000⟩ := by
  obtain ⟨h, t, hsame, hfail, _⟩ := window_in_the_way
  exact ⟨h, t, after_refusal h t 0x2000 ⟨true, true, some 0x10000⟩ .invalidParam hsame hfail
    (by decide)⟩

/-- What is asked for is not true of it: the sizes differ after the failure, and a request for less
fails. -/
theorem growth_not_recovered :
    ¬∀ (h t : HeapState) (sizeAdd : Nat) (o : ExpandOutcome) (error : Err), h.SameSize →
      refosioMorecoreExpand h sizeAdd o = .ok (error, t) → error ≠ .success →
        t.SameSize ∧ ∀ u sizeAdd' moved, sizeAdd' < sizeAdd → t.Later u →
          u.CanGrow sizeAdd' moved → u.Succeeds sizeAdd' moved := by
  intro hall
  obtain ⟨h, t, hsame, hfail, _, hlater, hgrow, hnot⟩ := window_in_the_way
  obtain ⟨_, hrecovers⟩ := hall h t _ _ _ hsame hfail (by decide)
  exact hnot (hrecovers t 0x1000 _ (by decide) hlater hgrow)

end PartitionSeL4.Refos
