import PartitionSeL4.Refos.Permissions
import PartitionSeL4.Refos.Search

/-!
# Faults in windows on dataspaces

`handle_vm_fault_dspace` finds the page of the dataspace from the address of the fault, the mapping
offset of the window and the base of the window rounded down to a page; `vs_map` then maps it at the
address rounded down to a page, if one window holds all of that page.

Neither the base, nor the size, nor the mapping offset of a window has to be aligned.
`anonymous_fault_iff` says when a fault is served, and when all faults on a page of the window ask
for the same page of the dataspace: the page has to lie in the window, and the dataspace must not
change from one page to the next inside it.
-/

namespace PartitionSeL4.Refos

open Lib

/-! ## The property -/

/-- The frame is mapped at the page of the fault, and no other page changes. -/
structure MapsPage (s : FaultServ) (f : VmFault) (frame : Nat) (s' : FaultServ) : Prop where
  page : (s'.vspaceState.vspaces f.pid).map Vspace.pages =
    (s.vspaceState.vspaces f.pid).map fun vs =>
      Function.update vs.pages (f.faultAddr / pageSize) (some ⟨frame, true⟩)
  others : ∀ pid, pid ≠ f.pid → (s'.vspaceState.vspaces pid).map Vspace.pages =
    (s.vspaceState.vspaces pid).map Vspace.pages

/-- The dataspace is large enough for the byte. -/
def HoldsByte (dspace : RamDspace) (offset : Nat) : Prop :=
  offset < dspace.npages * pageSize ∧ offset < 2 ^ 32

/-- The byte of the dataspace that an address of the window stands for. -/
def FaultServ.byteOf (s : FaultServ) (aw : AssociatedWindow) (addr : Nat) : Nat :=
  (s.targets aw.winID).ramDataspaceOffset + (addr - pageAlign aw.offset)

/-- The fault is on an address of the window, in a mode that maps a dataspace, which has the byte;
no other window of the process holds the address, and nothing is mapped there. -/
structure InDspaceWindow (s : FaultServ) (f : VmFault) (pcb : FaultPcb) (vs : Vspace)
    (aw : AssociatedWindow) (ID : Nat) (dspace : RamDspace) : Prop where
  process : s.pcbs f.pid = some pcb
  space : s.vspaceState.vspaces f.pid = some vs
  idle : pcb.faultReply = 0
  word : f.faultAddr < 2 ^ 32
  associated : aw ∈ vs.windows.associated
  inside : aw.Holds f.faultAddr
  only : ∀ w ∈ vs.windows.associated, w.Holds f.faultAddr → w = aw
  mode : ∀ window, wGetWindow s.vspaceState.windowList aw.winID = some window →
    window.mode = .anonymous
  target : (s.targets aw.winID).ramDataspace = some ID
  live : s.dspaceList.table ID = some dspace
  byte : HoldsByte dspace (s.byteOf aw f.faultAddr)
  unmapped : (vs.pages (f.faultAddr / pageSize)).isSome = false

/-- The fault is served: its page is mapped, and the client gets a reply. All faults on this page of
the window ask for one page of the dataspace. -/
structure AnonymousRight (s : FaultServ) (f : VmFault) (pcb : FaultPcb) (vs : Vspace)
    (aw : AssociatedWindow) (dspace : RamDspace) : Prop where
  served : ∃ frame s', f.frame = some frame ∧
    s.handleVmFault f pcb vs = .ok (.replied, s') ∧ MapsPage s f frame s'
  page : ∀ addr, aw.Holds addr → addr / pageSize = f.faultAddr / pageSize →
    HoldsByte dspace (s.byteOf aw addr) →
    s.npage { f with faultAddr := addr } aw dspace = s.npage f aw dspace

/-! ## The condition -/

/-- The address in the page of the fault at which the next page of the dataspace begins. -/
def FaultServ.boundary (s : FaultServ) (f : VmFault) (aw : AssociatedWindow) : Nat :=
  pageAlign f.faultAddr + (pageSize - (s.targets aw.winID).ramDataspaceOffset % pageSize)

/-- In the page of the fault, the window goes from one page of the dataspace to the next. -/
structure Straddles (s : FaultServ) (f : VmFault) (aw : AssociatedWindow) (dspace : RamDspace) :
    Prop where
  unaligned : (s.targets aw.winID).ramDataspaceOffset % pageSize ≠ 0
  before : aw.Holds (s.boundary f aw - 1)
  behind : aw.Holds (s.boundary f aw)
  byte : HoldsByte dspace (s.byteOf aw (s.boundary f aw))

/-- The searches find a window for the address and for its page, and the page does not straddle two
pages of the dataspace. -/
structure FitsPages (s : FaultServ) (f : VmFault) (vs : Vspace) (aw : AssociatedWindow)
    (dspace : RamDspace) : Prop where
  found : (wAssociateFind vs.windows f.faultAddr).isSome = true
  page : (wAssociateFindRange vs.windows (pageAlign f.faultAddr) pageSize).isSome = true
  straddles : ¬Straddles s f aw dspace

section Anonymous

variable {s : FaultServ} {f : VmFault} {pcb : FaultPcb} {vs : Vspace} {aw : AssociatedWindow}
  {ID : Nat} {dspace : RamDspace}

/-! ## Bytes and pages -/

/-- The offset that `handle_vm_fault_dspace` calculates is that of the byte. -/
theorem dspaceOffset_eq (hin : aw.Holds f.faultAddr)
    (hbyte : s.byteOf aw f.faultAddr < 2 ^ 32) :
    (s.dspaceFault f aw dspace).dspaceOffset = s.byteOf aw f.faultAddr := by
  have halign : pageAlign aw.offset ≤ f.faultAddr := by
    have hle : pageAlign aw.offset ≤ aw.offset := Nat.sub_le _ _
    exact Nat.le_trans hle hin.1
  show u32 (f.faultAddr + (s.targets aw.winID).ramDataspaceOffset + 2 ^ 32 -
    pageAlign aw.offset) = _
  simp only [FaultServ.byteOf, u32] at *
  omega

theorem npage_eq (hin : aw.Holds f.faultAddr) (hbyte : s.byteOf aw f.faultAddr < 2 ^ 32) :
    s.npage f aw dspace = s.byteOf aw f.faultAddr / pageSize := by
  rw [FaultServ.npage, dspaceOffset_eq hin hbyte]

/-- The pages of the dataspace that the addresses of a page of the window stand for are one page, if
and only if that page does not straddle two. -/
theorem samePage_iff (hin : aw.Holds f.faultAddr)
    (hbyte : HoldsByte dspace (s.byteOf aw f.faultAddr)) :
    (∀ addr, aw.Holds addr → addr / pageSize = f.faultAddr / pageSize →
      HoldsByte dspace (s.byteOf aw addr) →
      s.byteOf aw addr / pageSize = s.byteOf aw f.faultAddr / pageSize) ↔
      ¬Straddles s f aw dspace := by
  simp only [HoldsByte, AssociatedWindow.Holds] at hin hbyte
  constructor
  · intro hsame hstraddles
    obtain ⟨hunaligned, hbefore, hbehind, hlimit⟩ := hstraddles
    have hfirst := hsame _ hbefore
    have hsecond := hsame _ hbehind
    simp only [HoldsByte, AssociatedWindow.Holds, FaultServ.byteOf, FaultServ.boundary, pageAlign,
      pageSize] at *
    omega
  · intro hnot addr haddr hpage hlimit
    by_contra hne
    refine hnot ⟨fun haligned => hne ?_, ?_, ?_, ?_⟩ <;>
      simp only [HoldsByte, AssociatedWindow.Holds, FaultServ.byteOf, FaultServ.boundary, pageAlign,
        pageSize] at * <;> omega

/-! ## One page -/

/-- `vs_map` of one frame, where no call outside fails. -/
theorem vsMap_one {t : VspaceState} (h : Findable t) {pid : Nat} (hvs : t.vspaces pid = some vs)
    {vaddr : Nat} (hvaddr : vaddr < 2 ^ 32)
    (hunmapped : (vs.pages (vaddr / pageSize)).isSome = false) (frame : Nat) :
    vsMap t.windowList vs vaddr [frame] true true =
      if (wAssociateFindRange vs.windows (pageAlign vaddr) pageSize).isSome then
        .ok (.success, { vs.lookedUp with
          pages := Function.update vs.pages (vaddr / pageSize) (some ⟨frame, true⟩) })
      else .ok (.invalidWindow, vs.lookedUp) := by
  rw [vsMap_single hvaddr]
  cases hfind : wAssociateFindRange vs.windows (pageAlign vaddr) pageSize with
  | none => rfl
  | some w =>
      obtain ⟨found, hget, howner⟩ := h.get hvs (findRange_some hfind).1
      simp only [hget, howner, h.pid _ vs hvs, ne_eq, not_true_eq_false, if_false, hunmapped,
        Bool.false_eq_true, reduceCtorEq, Option.isSome_some, if_true]

/-! ## Faults -/

theorem InDspaceWindow.found_eq (h : InDspaceWindow s f pcb vs aw ID dspace)
    {w : AssociatedWindow} (hfind : wAssociateFind vs.windows f.faultAddr = some w) : w = aw :=
  h.only w (find_some hfind).1 (contains_holds (find_some hfind).2).1

theorem InDspaceWindow.segfault (h : InDspaceWindow s f pcb vs aw ID dspace) (hok : s.Ok)
    (hnone : wAssociateFind vs.windows f.faultAddr = none) :
    ∃ s', s.handleVmFault f pcb vs = .ok (.segfault, s') := by
  have hnot : ∀ w window, ¬s.Reaches f pcb vs w window := by
    intro w window hreach
    rw [hreach.found] at hnone
    cases hnone
  rcases hok.refused h.space hnot with heq | heq
  · exact ⟨_, heq⟩
  · exact ⟨_, heq⟩

theorem InDspaceWindow.reaches (h : InDspaceWindow s f pcb vs aw ID dspace) (hok : s.Ok)
    (hfind : wAssociateFind vs.windows f.faultAddr = some aw) :
    s.handleVmFault f pcb vs =
      (s.setVspace f.pid vs.lookedUp).handleVmFaultDspace f pcb vs.lookedUp aw := by
  obtain ⟨window, hwindow, _⟩ := hok.findable.get h.space h.associated
  have hreach : s.Reaches f pcb vs aw window := ⟨h.idle, hfind, hwindow, h.unmapped⟩
  rw [hreach.eq, h.mode window hwindow]

theorem InDspaceWindow.npage_lt (h : InDspaceWindow s f pcb vs aw ID dspace) :
    s.npage f aw dspace < dspace.npages := by
  have hbyte := h.byte.1
  rw [npage_eq h.inside h.byte.2]
  exact Nat.div_lt_of_lt_mul (Nat.mul_comm _ _ ▸ hbyte)

/-- `ram_dspace_get_page` gets the frame. -/
theorem InDspaceWindow.mapDspacePage_eq (h : InDspaceWindow s f pcb vs aw ID dspace)
    {frame : Nat} (hframe : f.frame = some frame) :
    mapDspacePage ⟨dspace, []⟩ (s.dspaceFault f aw dspace) = (.success, ⟨dspace, []⟩) := by
  have hlt : (s.dspaceFault f aw dspace).dspaceOffset / pageSize < dspace.npages := h.npage_lt
  have hsome : (s.dspaceFault f aw dspace).frame = true := by
    show f.frame.isSome = true
    rw [hframe]
    rfl
  rw [mapDspacePage, pageAccess, if_neg (Nat.not_le.2 hlt), hsome]
  rfl

theorem FaultServ.setDspace_self (hlive : s.dspaceList.table ID = some dspace) :
    s.setDspace ID dspace = s := by
  have htable : Function.update s.dspaceList.table ID (some dspace) = s.dspaceList.table := by
    rw [← hlive, Function.update_eq_self]
  rw [FaultServ.setDspace, Coat.set, htable]

theorem FaultServ.setVspace_setVspace (s : FaultServ) (pid : Nat) (vs vs' : Vspace) :
    (s.setVspace pid vs).setVspace pid vs' = s.setVspace pid vs' := by
  simp only [FaultServ.setVspace, VspaceState.setVspace, Function.update_idem]

/-- A fault on a page that can be mapped, where no call outside fails. -/
theorem InDspaceWindow.map_eq (h : InDspaceWindow s f pcb vs aw ID dspace) (hok : s.Ok)
    (hcontent : Refos.handleVmFaultDspace ⟨dspace, []⟩ (s.dspaceFault f aw dspace) =
      .ok (.success, ⟨dspace, []⟩))
    {frame : Nat} (hframe : f.frame = some frame) (hmemory : f.memory = true)
    (hmapped : f.mapped = true) (hfind : wAssociateFind vs.windows f.faultAddr = some aw) :
    s.handleVmFault f pcb vs =
      .ok (if (wAssociateFindRange vs.windows (pageAlign f.faultAddr) pageSize).isSome then
        (.replied, s.setVspace f.pid { vs.lookedUp with
          pages := Function.update vs.pages (f.faultAddr / pageSize) (some ⟨frame, true⟩) })
      else (.segfault, s.setVspace f.pid vs.lookedUp)) := by
  obtain ⟨t, ht⟩ : ∃ t, t = s.setVspace f.pid vs.lookedUp := ⟨_, rfl⟩
  have htarget : (t.targets aw.winID).ramDataspace = some ID := ht ▸ h.target
  have hlive : t.dspaceList.table ID = some dspace := ht ▸ h.live
  have hcontent' : Refos.handleVmFaultDspace ⟨dspace, []⟩ (t.dspaceFault f aw dspace) =
      .ok (.success, ⟨dspace, []⟩) := ht ▸ hcontent
  have hspace : t.vspaceState.vspaces f.pid = some vs.lookedUp := by
    rw [ht]
    exact setVspace_self _ _ _
  have hfindable : Findable t.vspaceState := by
    rw [ht]
    exact hok.findable.setVspace h.space (.lookedUp vs)
  have hmap := vsMap_one hfindable hspace h.word h.unmapped frame
  rw [findRange_lookedUp, lookedUp_lookedUp] at hmap
  have hset : ∀ vs', t.setVspace f.pid vs' = s.setVspace f.pid vs' := fun vs' => by
    rw [ht, FaultServ.setVspace_setVspace]
  rw [h.reaches hok hfind, ← ht]
  simp only [FaultServ.handleVmFaultDspace, htarget, hlive, hcontent',
    FaultServ.setDspace_self hlive, FaultServ.finishVmFaultDspace, hframe, hmemory, hmapped, bind,
    Except.bind]
  rw [hmap]
  split_ifs with hrange
  · exact congrArg (fun u => Except.ok (FaultEnd.replied, u)) (hset _)
  · exact congrArg (fun u => Except.ok (FaultEnd.segfault, u)) ((hset _).trans ht.symm)

theorem InDspaceWindow.handle_eq (h : InDspaceWindow s f pcb vs aw ID dspace) (hok : s.Ok)
    (hplain : dspace.contentInitEnabled = false) {frame : Nat} (hframe : f.frame = some frame)
    (hmemory : f.memory = true) (hmapped : f.mapped = true)
    (hfind : wAssociateFind vs.windows f.faultAddr = some aw) :
    ∃ s', s.handleVmFault f pcb vs =
        .ok (if (wAssociateFindRange vs.windows (pageAlign f.faultAddr) pageSize).isSome then
          .replied else .segfault, s') ∧
      ((wAssociateFindRange vs.windows (pageAlign f.faultAddr) pageSize).isSome = true →
        MapsPage s f frame s') := by
  have hcontent : Refos.handleVmFaultDspace ⟨dspace, []⟩ (s.dspaceFault f aw dspace) =
      .ok (.success, ⟨dspace, []⟩) := by
    rw [handleVmFaultDspace_disabled _ hplain, h.mapDspacePage_eq hframe]
  rw [h.map_eq hok hcontent hframe hmemory hmapped hfind]
  split_ifs with hrange
  · refine ⟨_, rfl, fun _ => ⟨?_, fun pid hne => ?_⟩⟩
    · rw [h.space]
      exact congrArg (Option.map Vspace.pages) (setVspace_self _ _ _)
    · exact congrArg (Option.map Vspace.pages) (setVspace_of_ne _ _ _ hne)
  · exact ⟨_, rfl, fun hsome => absurd hsome hrange⟩

/-- In a list of disjoint windows that is in order, or is sorted first, the condition is that the
window holds the whole page, and that the mapping offset is aligned or the next page is not one of
the dataspace. -/
theorem fitsPages_iff (hfits : Fits vs.windows.associated)
    (hapart : vs.windows.associated.Pairwise Apart) (horder : InOrderOrStale vs.windows)
    (h : InDspaceWindow s f pcb vs aw ID dspace) :
    FitsPages s f vs aw dspace ↔ aw.HoldsRange (pageAlign f.faultAddr) pageSize ∧
      ((s.targets aw.winID).ramDataspaceOffset % pageSize = 0 ∨
        ¬HoldsByte dspace (s.byteOf aw (s.boundary f aw))) := by
  have hword := h.word
  have hin : pageAlign f.faultAddr ≤ f.faultAddr ∧
      f.faultAddr < pageAlign f.faultAddr + pageSize := by
    simp only [pageAlign, pageSize]
    omega
  have hend : pageAlign f.faultAddr + pageSize ≤ 2 ^ 32 := by
    simp only [pageAlign, pageSize]
    omega
  have hrange : ∀ w, wAssociateFindRange vs.windows (pageAlign f.faultAddr) pageSize = some w ↔
      w ∈ vs.windows.associated ∧ w.HoldsRange (pageAlign f.faultAddr) pageSize := fun w =>
    findRange_eq_some_iff hfits hapart horder (by decide) hend
  constructor
  · intro hcond
    obtain ⟨w, hw⟩ := Option.isSome_iff_exists.1 hcond.page
    obtain ⟨hmem, hholds⟩ := (hrange w).1 hw
    obtain rfl : w = aw := h.only w hmem (hholds _ hin.1 hin.2)
    refine ⟨hholds, ?_⟩
    by_contra hnot
    obtain ⟨hunaligned, hbyte⟩ := not_or.1 hnot
    have hmod : (s.targets w.winID).ramDataspaceOffset % pageSize < pageSize :=
      Nat.mod_lt _ (by decide)
    refine hcond.straddles ⟨hunaligned, hholds _ ?_ ?_, hholds _ ?_ ?_, not_not.1 hbyte⟩ <;>
      simp only [FaultServ.boundary] <;> omega
  · rintro ⟨hholds, hbyte⟩
    have hfind := find_of_holds hfits hapart horder h.associated h.inside
    refine ⟨by rw [hfind]; rfl, ?_, fun hstraddles => ?_⟩
    · rw [(hrange aw).2 ⟨h.associated, hholds⟩]
      rfl
    · rcases hbyte with haligned | hbyte
      · exact hstraddles.unaligned haligned
      · exact hbyte hstraddles.byte

end Anonymous

/-- **Faults in anonymous windows.** In every reachable state, take a fault on an address of a
window on a dataspace without content initialisation, which is large enough, where no call outside
fails. The page is mapped and the client gets a reply, and all faults on that page of the window ask
for the same page of the dataspace, if and only if the searches find a window for the address and
for its page, and the page does not straddle two pages of the dataspace. -/
theorem anonymous_fault_iff {pids : Nat → Bool} (hpids : pids 0 = false) {evs : List ServEvent}
    {s : FaultServ} (hrun : Run faultServStep (fun _ _ => True) (faultServInit pids) evs s)
    {f : VmFault} {pcb : FaultPcb} {vs : Vspace} {aw : AssociatedWindow} {ID : Nat}
    {dspace : RamDspace} (h : InDspaceWindow s f pcb vs aw ID dspace)
    (hplain : dspace.contentInitEnabled = false) (hframe : f.frame.isSome = true)
    (hmemory : f.memory = true) (hmapped : f.mapped = true) :
    AnonymousRight s f pcb vs aw dspace ↔ FitsPages s f vs aw dspace := by
  have hok := faultServ_ok hpids hrun
  obtain ⟨frame, hframe⟩ := Option.isSome_iff_exists.1 hframe
  have hpages : (∀ addr, aw.Holds addr → addr / pageSize = f.faultAddr / pageSize →
      HoldsByte dspace (s.byteOf aw addr) →
      s.npage { f with faultAddr := addr } aw dspace = s.npage f aw dspace) ↔
        ¬Straddles s f aw dspace := by
    rw [← samePage_iff h.inside h.byte]
    refine forall_congr' fun addr => forall_congr' fun haddr => forall_congr' fun _ =>
      forall_congr' fun hbyte => ?_
    rw [npage_eq h.inside h.byte.2]
    exact Eq.congr_left (npage_eq (f := { f with faultAddr := addr }) haddr hbyte.2)
  constructor
  · intro hright
    obtain ⟨frame', s', -, hreplied, -⟩ := hright.served
    cases hfind : wAssociateFind vs.windows f.faultAddr with
    | none =>
        obtain ⟨s'', hsegfault⟩ := h.segfault hok hfind
        rw [hreplied] at hsegfault
        cases hsegfault
    | some w =>
        obtain rfl := h.found_eq hfind
        obtain ⟨s'', heq, -⟩ := h.handle_eq hok hplain hframe hmemory hmapped hfind
        refine ⟨by rw [hfind]; rfl, ?_, hpages.1 hright.page⟩
        by_contra hno
        rw [if_neg hno, hreplied] at heq
        cases heq
  · intro hcond
    obtain ⟨w, hfind⟩ := Option.isSome_iff_exists.1 hcond.found
    obtain rfl := h.found_eq hfind
    obtain ⟨s', heq, hmaps⟩ := h.handle_eq hok hplain hframe hmemory hmapped hfind
    rw [if_pos hcond.page] at heq
    exact ⟨⟨frame, s', hframe, heq, hmaps hcond.page⟩, hpages.2 hcond.straddles⟩

/-! ### Aligned and unaligned windows -/

instance (w : AssociatedWindow) (addr : Nat) : Decidable (w.Holds addr) :=
  inferInstanceAs (Decidable (_ ∧ _))

instance (dspace : RamDspace) (offset : Nat) : Decidable (HoldsByte dspace offset) :=
  inferInstanceAs (Decidable (_ ∧ _))

/-- What a fault on a dataspace is about. -/
structure DspaceLookup where
  pcb : FaultPcb
  vs : Vspace
  aw : AssociatedWindow
  window : Window
  ID : Nat
  dspace : RamDspace

/-- The process, the window and the dataspace of a fault. -/
def FaultServ.dspaceLookup (s : FaultServ) (f : VmFault) : Option DspaceLookup := do
  let pcb ← s.pcbs f.pid
  let vs ← s.vspaceState.vspaces f.pid
  let aw ← wAssociateFind vs.windows f.faultAddr
  let window ← wGetWindow s.vspaceState.windowList aw.winID
  let ID ← (s.targets aw.winID).ramDataspace
  let dspace ← s.dspaceList.table ID
  return ⟨pcb, vs, aw, window, ID, dspace⟩

/-- The other conditions of a fault in a window on a dataspace. -/
def FaultServ.inDspaceWindow (s : FaultServ) (f : VmFault) (r : DspaceLookup) : Bool :=
  r.pcb.faultReply = 0 ∧ f.faultAddr < 2 ^ 32 ∧ r.aw.Holds f.faultAddr ∧
    (∀ w ∈ r.vs.windows.associated, w.Holds f.faultAddr → w = r.aw) ∧
    r.window.mode = .anonymous ∧ HoldsByte r.dspace (s.byteOf r.aw f.faultAddr) ∧
    (r.vs.pages (f.faultAddr / pageSize)).isSome = false

theorem inDspaceWindow_of_lookup {s : FaultServ} {f : VmFault} {r : DspaceLookup}
    (hlookup : s.dspaceLookup f = some r) (hcheck : s.inDspaceWindow f r = true) :
    InDspaceWindow s f r.pcb r.vs r.aw r.ID r.dspace := by
  simp only [FaultServ.dspaceLookup, Option.bind_eq_bind, Option.bind_eq_some_iff, Option.pure_def,
    Option.some.injEq] at hlookup
  obtain ⟨pcb, hpcb, vs, hvs, aw, hfind, window, hwindow, ID, hID, dspace, hdspace, rfl⟩ := hlookup
  obtain ⟨hidle, hword, hinside, honly, hmode, hbyte, hunmapped⟩ := of_decide_eq_true hcheck
  refine ⟨hpcb, hvs, hidle, hword, (find_some hfind).1, hinside, honly, fun window' hwindow' => ?_,
    hID, hdspace, hbyte, hunmapped⟩
  obtain rfl := Option.some.inj (hwindow.symm.trans hwindow')
  exact hmode

/-- A window of process 1, whose reservation starts at a page, and a dataspace of two pages mapped
to it. -/
def mappedWindow (base size offset : Nat) : List ServEvent :=
  [.window (.createMemWindow 1 base size 3 true (some (pageAlign base)) true),
    .call (.dataOpen "anon" 0x2000 none), .call (.dataDatamap 1 1 offset)]

theorem exists_mappedWindow (base size offset : Nat) (f : VmFault)
    {P : FaultServ → DspaceLookup → Bool}
    (h : ((Run.exec faultServStep (fun _ _ => True) (mappedWindow base size offset)
      (faultServInit fun pid => pid = 1)).any fun s =>
        (s.dspaceLookup f).any fun r =>
          s.inDspaceWindow f r && !r.dspace.contentInitEnabled && P s r) = true) :
    ∃ (s : FaultServ) (r : DspaceLookup), Run faultServStep (fun _ _ => True)
        (faultServInit fun pid => pid = 1) (mappedWindow base size offset) s ∧
      InDspaceWindow s f r.pcb r.vs r.aw r.ID r.dspace ∧ r.dspace.contentInitEnabled = false ∧
      P s r = true := by
  obtain ⟨s, hexec, hs⟩ := (Option.any_eq_true _ _).1 h
  obtain ⟨r, hlookup, hr⟩ := (Option.any_eq_true _ _).1 hs
  simp only [Bool.and_eq_true, Bool.not_eq_true'] at hr
  exact ⟨s, r, .of_exec hexec, inDspaceWindow_of_lookup hlookup hr.1.1, hr.1.2, hr.2⟩

/-- In an aligned window of one page. -/
theorem anonymous_fault_iff_aligned :
    ∃ (s : FaultServ) (r : DspaceLookup), Run faultServStep (fun _ _ => True)
        (faultServInit fun pid => pid = 1) (mappedWindow 0x10000 0x1000 0x1000) s ∧
      AnonymousRight s (faultAt 0x10900 true) r.pcb r.vs r.aw r.dspace := by
  obtain ⟨s, r, hrun, hin, hplain, hcheck⟩ := exists_mappedWindow 0x10000 0x1000 0x1000
    (faultAt 0x10900 true) (P := fun s r => (wAssociateFind r.vs.windows 0x10900).isSome &&
      (wAssociateFindRange r.vs.windows 0x10000 pageSize).isSome &&
        (s.targets r.aw.winID).ramDataspaceOffset % pageSize = 0)
    (show _ = true by decide +kernel)
  simp only [Bool.and_eq_true, decide_eq_true_eq] at hcheck
  exact ⟨s, r, hrun, (anonymous_fault_iff rfl hrun hin hplain rfl rfl rfl).2
    ⟨hcheck.1.1, hcheck.1.2, fun hstraddles => hstraddles.unaligned hcheck.2⟩⟩

/-- In a window at half a page, a fault is a segmentation fault. In an aligned window with a mapping
offset of half a page, two faults on one page ask for different pages of the dataspace. -/
theorem unaligned_window_fails :
    (∃ (s : FaultServ) (r : DspaceLookup), Run faultServStep (fun _ _ => True)
        (faultServInit fun pid => pid = 1) (mappedWindow 0x10800 0x800 0) s ∧
      InDspaceWindow s (faultAt 0x10900 true) r.pcb r.vs r.aw r.ID r.dspace ∧
      r.dspace.contentInitEnabled = false ∧
      ¬AnonymousRight s (faultAt 0x10900 true) r.pcb r.vs r.aw r.dspace) ∧
    ∃ (s : FaultServ) (r : DspaceLookup), Run faultServStep (fun _ _ => True)
        (faultServInit fun pid => pid = 1) (mappedWindow 0x10000 0x1000 0x800) s ∧
      InDspaceWindow s (faultAt 0x10000 true) r.pcb r.vs r.aw r.ID r.dspace ∧
      r.dspace.contentInitEnabled = false ∧
      ¬AnonymousRight s (faultAt 0x10000 true) r.pcb r.vs r.aw r.dspace := by
  constructor
  · obtain ⟨s, r, hrun, hin, hplain, hcheck⟩ := exists_mappedWindow 0x10800 0x800 0
      (faultAt 0x10900 true) (P := fun s r =>
        (s.handleVmFault (faultAt 0x10900 true) r.pcb r.vs).toOption.any fun e => e.1 = .segfault)
      (show _ = true by decide +kernel)
    refine ⟨s, r, hrun, hin, hplain, fun hright => ?_⟩
    obtain ⟨frame, s', -, hreplied, -⟩ := hright.served
    rw [hreplied] at hcheck
    cases hcheck
  · obtain ⟨s, r, hrun, hin, hplain, hcheck⟩ := exists_mappedWindow 0x10000 0x1000 0x800
      (faultAt 0x10000 true) (P := fun s r =>
        r.aw.Holds 0x10900 && HoldsByte r.dspace (s.byteOf r.aw 0x10900) &&
        s.npage (faultAt 0x10900 true) r.aw r.dspace ≠ s.npage (faultAt 0x10000 true) r.aw r.dspace)
      (show _ = true by decide +kernel)
    simp only [Bool.and_eq_true, decide_eq_true_eq] at hcheck
    exact ⟨s, r, hrun, hin, hplain, fun hright =>
      hcheck.2 (hright.page 0x10900 hcheck.1.1 (by decide +kernel) hcheck.1.2)⟩

end PartitionSeL4.Refos
