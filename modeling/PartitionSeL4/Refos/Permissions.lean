import PartitionSeL4.Refos.FaultProof

/-!
# Permissions of windows

`handle_vm_fault` tests the permissions of a window with `|` where `&` is meant, so the test never
refuses a fault (`FaultServ.Reaches.eq`). `permissions_enforced_iff` says what is left: a fault that
the window does not permit ends without an effect if and only if another check refuses it.
-/

namespace PartitionSeL4.Refos

open Lib

/-! ## The property -/

/-- The window has the permission for a read or a write. -/
def Window.Permits (window : Window) (read : Bool) : Prop :=
  window.permissions &&& (if read then wPermissionRead else wPermissionWrite) ≠ 0

/-- No page is mapped or unmapped, nobody waits who did not before, and no notification is
written. -/
structure NoEffect (s s' : FaultServ) : Prop where
  pages : ∀ pid, (s'.vspaceState.vspaces pid).map Vspace.pages =
    (s.vspaceState.vspaces pid).map Vspace.pages
  waiters : ∀ ID, (s'.dspaceList.table ID).map RamDspace.contentInitWaitingList =
    (s.dspaceList.table ID).map RamDspace.contentInitWaitingList
  notifications : ∀ pid, (s'.pcbs pid).map FaultPcb.notificationBuffer =
    (s.pcbs pid).map FaultPcb.notificationBuffer

/-- A fault that the window does not permit is a segmentation fault without an effect. -/
def PermissionsEnforced (s : FaultServ) (f : VmFault) : Prop :=
  ∀ pcb vs aw window, s.pcbs f.pid = some pcb → s.vspaceState.vspaces f.pid = some vs →
    wAssociateFind vs.windows f.faultAddr = some aw →
    wGetWindow s.vspaceState.windowList aw.winID = some window → ¬window.Permits f.read →
      ∃ s', s.handleVmFault f pcb vs = .ok (.segfault, s') ∧ NoEffect s s'

/-! ## Why faults are refused -/

/-- The page of the fault. -/
def FaultServ.npage (s : FaultServ) (f : VmFault) (aw : AssociatedWindow) (dspace : RamDspace) :
    Nat :=
  (s.dspaceFault f aw dspace).dspaceOffset / pageSize

/-- The dataspace has the page, and as far as content initialisation is on, it is provided. -/
def PageProvided (dspace : RamDspace) (offset : Nat) : Prop :=
  dspace.contentInitEnabled = true → dspace.contentInitBitmask.isSome = true ∧
    offset ≤ ramDspaceGetSize dspace ∧ dspace.provided (offset / pageSize) = true

/-- Why a fault in a window on a dataspace is refused. -/
inductive DspaceRefuses (s : FaultServ) (f : VmFault) (vs : Vspace) (aw : AssociatedWindow)
    (dspace : RamDspace) : Prop
  /-- There is no content-init state for the page. -/
  | state (enabled : dspace.contentInitEnabled = true)
      (h : dspace.contentInitBitmask = none ∨
        ramDspaceGetSize dspace < (s.dspaceFault f aw dspace).dspaceOffset)
  /-- The fault cannot be delegated. -/
  | delegate (enabled : dspace.contentInitEnabled = true)
      (bitmask : dspace.contentInitBitmask.isSome = true)
      (inSize : (s.dspaceFault f aw dspace).dspaceOffset ≤ ramDspaceGetSize dspace)
      (missing : dspace.provided (s.npage f aw dspace) = false)
      (h : u32 (aw.offset + aw.size) ≤
          u32 (f.faultAddr + (s.targets aw.winID).ramDataspaceOffset) ∨
        s.pcbs dspace.contentInitPID = none ∨ f.callerReply = none ∨
        f.memory = false ∧ s.npage f aw dspace < dspace.npages)
  /-- The page cannot be mapped. -/
  | page (provided : PageProvided dspace (s.dspaceFault f aw dspace).dspaceOffset)
      (h : dspace.npages ≤ s.npage f aw dspace ∨ f.frame = none ∨
        wAssociateFindRange vs.windows (pageAlign f.faultAddr) pageSize = none ∨
        f.memory = false ∨ f.mapped = false)

/-- Why a fault in a window with a pager is refused. -/
def PagerRefuses (s : FaultServ) (f : VmFault) (aw : AssociatedWindow) : Prop :=
  (∀ pcb, s.pcbs (s.targets aw.winID).pagerPID = some pcb → pcb.notificationBuffer = none) ∨
    f.callerReply = none ∨ f.written = false

/-- Why a fault in a window is refused, permissions apart. -/
inductive Refuses (s : FaultServ) (f : VmFault) (pcb : FaultPcb) (vs : Vspace)
    (aw : AssociatedWindow) (window : Window) : Prop
  | blocked (h : pcb.faultReply ≠ 0)
  | mapped (h : (vs.pages (f.faultAddr / pageSize)).isSome = true)
  | empty (mode : window.mode = .empty)
  | dspace {ID : Nat} {dspace : RamDspace} (mode : window.mode = .anonymous)
      (target : (s.targets aw.winID).ramDataspace = some ID)
      (live : s.dspaceList.table ID = some dspace) (h : DspaceRefuses s f vs aw dspace)
  | pager (mode : window.mode = .pager) (h : PagerRefuses s f aw)

section Permissions

variable {s s' : FaultServ} {f : VmFault} {pcb : FaultPcb} {vs : Vspace} {aw : AssociatedWindow}
  {window : Window} {dspace : RamDspace} {pid ID : Nat}

theorem NoEffect.refl (s : FaultServ) : NoEffect s s := ⟨fun _ => rfl, fun _ => rfl, fun _ => rfl⟩

theorem NoEffect.trans {s'' : FaultServ} (h : NoEffect s s') (h' : NoEffect s' s'') :
    NoEffect s s'' where
  pages pid := (h'.pages pid).trans (h.pages pid)
  waiters ID := (h'.waiters ID).trans (h.waiters ID)
  notifications pid := (h'.notifications pid).trans (h.notifications pid)

theorem NoEffect.setVspace {vs' : Vspace} (hvs : s.vspaceState.vspaces pid = some vs)
    (hpages : vs'.pages = vs.pages) : NoEffect s (s.setVspace pid vs') where
  pages q := by
    by_cases hq : q = pid
    · subst hq
      simp [FaultServ.setVspace, hvs, hpages]
    · simp [FaultServ.setVspace, setVspace_of_ne _ _ _ hq]
  waiters _ := rfl
  notifications _ := rfl

theorem NoEffect.setDspace {dspace' : RamDspace} (hdspace : s.dspaceList.table ID = some dspace) :
    NoEffect s (s.setDspace ID dspace') ↔
      dspace'.contentInitWaitingList = dspace.contentInitWaitingList := by
  constructor
  · intro h
    simpa [FaultServ.setDspace, Coat.set, hdspace] using h.waiters ID
  · refine fun hwaiters => ⟨fun _ => rfl, fun i => ?_, fun _ => rfl⟩
    by_cases hi : i = ID
    · subst hi
      simp [FaultServ.setDspace, Coat.set, hdspace, hwaiters]
    · simp [FaultServ.setDspace, Coat.set, hi]

theorem NoEffect.setPcb {pcb' : FaultPcb} (hpcb : s.pcbs pid = some pcb)
    (hsame : pcb'.notificationBuffer = pcb.notificationBuffer) :
    NoEffect s (s.setPcb pid pcb') where
  pages _ := rfl
  waiters _ := rfl
  notifications q := by
    by_cases hq : q = pid
    · subst hq
      simp [FaultServ.setPcb, hpcb, hsame]
    · simp [FaultServ.setPcb, hq]

/-! ## Notifications -/

theorem procSaveCaller_spec (hpcb : s.pcbs f.pid = some pcb) :
    NoEffect s (s.procSaveCaller f pcb).2 ∧
      ((s.procSaveCaller f pcb).1 = .success ↔ f.callerReply.isSome = true) ∧
      (s.procSaveCaller f pcb).2.dspaceList = s.dspaceList := by
  rw [FaultServ.procSaveCaller, VmFault.callerReply]
  cases f.cslot with
  | none =>
      refine ⟨.setPcb hpcb rfl, ?_, rfl⟩
      cases f.saved <;> simp
  | some cslot =>
      refine ⟨.setPcb hpcb rfl, ?_, rfl⟩
      cases f.saved <;> simp

theorem faultDelegateNotification_dspaceList (delegationPID : Nat) (delegationPCB : FaultPcb)
    (notification : ProcNotification) (hpcb : s.pcbs f.pid = some pcb) (saveReply : Bool) :
    (s.faultDelegateNotification f pcb delegationPID delegationPCB notification
      saveReply).2.dspaceList = s.dspaceList := by
  have hsaved : (if saveReply then s.procSaveCaller f pcb else (.success, s)).2.dspaceList =
      s.dspaceList := by
    split_ifs
    · exact (procSaveCaller_spec hpcb).2.2
    · rfl
  have hwrite : ∀ t : FaultServ, (t.rbWrite delegationPID notification).dspaceList =
      t.dspaceList := by
    intro t
    rw [FaultServ.rbWrite]
    split <;> rfl
  simp only [FaultServ.faultDelegateNotification]
  generalize (if saveReply = true then s.procSaveCaller f pcb else (.success, s)) = r at hsaved
  split_ifs
  · rfl
  · exact hsaved
  · exact hsaved
  · exact (hwrite r.2).trans hsaved

/-- A pager is not notified if and only if it has no buffer or a call fails. -/
theorem delegate_refuses_iff (hpcb : s.pcbs f.pid = some pcb) (delegationPID : Nat)
    (delegationPCB : FaultPcb) (notification : ProcNotification) :
    (∃ s', s.faultDelegateNotification f pcb delegationPID delegationPCB notification true =
        (.segfault, s') ∧ NoEffect s s') ↔
      delegationPCB.notificationBuffer = none ∨ f.callerReply = none ∨ f.written = false := by
  obtain ⟨hnone, hsuccess, _⟩ := procSaveCaller_spec hpcb
  simp only [FaultServ.faultDelegateNotification, if_true]
  generalize s.procSaveCaller f pcb = r at hnone hsuccess
  by_cases hbuffer : delegationPCB.notificationBuffer = none
  · rw [if_pos hbuffer]
    exact iff_of_true ⟨s, rfl, .refl s⟩ (Or.inl hbuffer)
  rw [if_neg hbuffer]
  by_cases herror : r.1 = .success
  · have hreply : f.callerReply ≠ none := Option.isSome_iff_ne_none.1 (hsuccess.1 herror)
    rw [if_neg (not_not.2 herror)]
    cases hwritten : f.written with
    | false => exact iff_of_true ⟨r.2, rfl, hnone⟩ (Or.inr (Or.inr rfl))
    | true =>
        refine iff_of_false ?_ ?_
        · rintro ⟨s', heq, _⟩
          cases heq
        · rintro (h | h | h)
          · exact hbuffer h
          · exact hreply h
          · cases h
  · have hreply : f.callerReply = none := by
      rw [← Option.not_isSome_iff_eq_none]
      exact fun hsome => herror (hsuccess.2 hsome)
    rw [if_pos herror]
    exact iff_of_true ⟨r.2, rfl, hnone⟩ (Or.inr (Or.inl hreply))

theorem pager_refuses_iff (hpcb : s.pcbs f.pid = some pcb)
    (hpager : (s.targets aw.winID).pagerPID ≠ 0) (window : Window) :
    (∃ s', s.handleVmFaultPager f pcb aw window = .ok (.segfault, s') ∧ NoEffect s s') ↔
      PagerRefuses s f aw := by
  simp only [FaultServ.handleVmFaultPager, if_neg hpager, PagerRefuses]
  cases hpagerPCB : s.pcbs (s.targets aw.winID).pagerPID with
  | none => exact iff_of_true ⟨s, rfl, .refl s⟩ (Or.inl (by simp))
  | some pagerPCB =>
      simp only [Except.ok.injEq, Option.some.injEq, forall_eq']
      exact delegate_refuses_iff hpcb _ pagerPCB _

/-! ## Pages -/

theorem vsMap_page {t : VspaceState} (h : Findable t) (hvs : t.vspaces pid = some vs) {vaddr : Nat}
    (hvaddr : vaddr < 2 ^ 32) (hunmapped : (vs.pages (vaddr / pageSize)).isSome = false)
    (frame : Nat) (memory mapped : Bool) :
    ∃ error vs', vsMap t.windowList vs vaddr [frame] memory mapped = .ok (error, vs') ∧
      (error ≠ .success → vs'.pages = vs.pages) ∧
      (error ≠ .success ↔ wAssociateFindRange vs.windows (pageAlign vaddr) pageSize = none ∨
        memory = false ∨ mapped = false) := by
  rw [vsMap_single hvaddr]
  cases hfind : wAssociateFindRange vs.windows (pageAlign vaddr) pageSize with
  | none => exact ⟨_, _, rfl, fun _ => rfl, by simp⟩
  | some w =>
      obtain ⟨found, hget, howner⟩ := h.get hvs (findRange_some hfind).1
      simp only [hget, howner, h.pid _ vs hvs, ne_eq, not_true_eq_false, if_false, hunmapped,
        Bool.false_eq_true]
      cases memory with
      | false => exact ⟨_, _, rfl, fun _ => rfl, by simp⟩
      | true =>
          cases mapped with
          | false => exact ⟨_, _, rfl, fun _ => rfl, by simp⟩
          | true => exact ⟨_, _, rfl, fun hne => absurd rfl hne, by simp⟩

theorem map_refuses_iff (h : s.Ok) (hvs : s.vspaceState.vspaces f.pid = some vs)
    (hdspace : s.dspaceList.table ID = some dspace) (haddr : f.faultAddr < 2 ^ 32)
    (hunmapped : (vs.pages (f.faultAddr / pageSize)).isSome = false) (pcb : FaultPcb)
    (aw : AssociatedWindow) (contentInitPID : Nat) (notification : ProcNotification) :
    let r := mapDspacePage ⟨dspace, []⟩ (s.dspaceFault f aw dspace)
    (∃ s', (s.setDspace ID r.2.dspace).finishVmFaultDspace f pcb vs contentInitPID notification
        r.1 = .ok (.segfault, s') ∧ NoEffect s s') ↔
      dspace.npages ≤ s.npage f aw dspace ∨ f.frame = none ∨
        wAssociateFindRange vs.windows (pageAlign f.faultAddr) pageSize = none ∨
        f.memory = false ∨ f.mapped = false := by
  intro r
  have hset : NoEffect s (s.setDspace ID dspace) := (NoEffect.setDspace hdspace).2 rfl
  have haccess : r = if dspace.npages ≤ s.npage f aw dspace ∨ f.frame = none then
      (.nomem, ⟨dspace, []⟩) else (.success, ⟨dspace, []⟩) := by
    have hframe : (s.dspaceFault f aw dspace).frame = f.frame.isSome := rfl
    have hmapped : (s.dspaceFault f aw dspace).mapped = .success := rfl
    simp only [r, mapDspacePage, pageAccess, FaultServ.npage, hframe, hmapped]
    by_cases hpage : dspace.npages ≤ (s.dspaceFault f aw dspace).dspaceOffset / pageSize
    · simp [hpage]
    · cases f.frame with
      | none => simp [hpage]
      | some frame =>
          simp only [hpage, if_false, Option.isSome_some, reduceCtorEq, or_self, if_true]
  rw [haccess]
  by_cases hrefused : dspace.npages ≤ s.npage f aw dspace ∨ f.frame = none
  · rw [if_pos hrefused]
    exact iff_of_true ⟨_, rfl, hset⟩ (by rw [← or_assoc]; exact Or.inl hrefused)
  · rw [if_neg hrefused]
    obtain ⟨hpage, hframe⟩ := not_or.1 hrefused
    obtain ⟨frame, hframe⟩ := Option.ne_none_iff_exists'.1 hframe
    obtain ⟨error, vs', hmap, hpages, hiff⟩ := vsMap_page (t := (s.setDspace ID dspace).vspaceState)
      h.findable hvs haddr hunmapped frame f.memory f.mapped
    simp only [FaultServ.finishVmFaultDspace, hframe, hmap, hpage, reduceCtorEq, false_or]
    rw [← hiff]
    by_cases herror : error = .success
    · refine iff_of_false ?_ (not_not.2 herror)
      rintro ⟨s', heq, _⟩
      have hend : (if error = .success then FaultEnd.replied else .segfault) = .segfault :=
        congrArg Prod.fst (Except.ok.inj heq)
      rw [if_pos herror] at hend
      cases hend
    · refine iff_of_true ⟨(s.setDspace ID dspace).setVspace f.pid vs', ?_, ?_⟩ herror
      · show Except.ok (if error = .success then FaultEnd.replied else .segfault, _) = _
        rw [if_neg herror]
      · exact hset.trans (.setVspace hvs (hpages herror))

theorem delegate_effect {dspace' : RamDspace}
    (hadded : dspace'.contentInitWaitingList ≠ dspace.contentInitWaitingList)
    (hdspace : s.dspaceList.table ID = some dspace) (hpcb : s.pcbs f.pid = some pcb) (vs : Vspace)
    (contentInitPID : Nat) (notification : ProcNotification) {r : FaultEnd × FaultServ}
    (h : (s.setDspace ID dspace').finishVmFaultDspace f pcb vs contentInitPID notification
      .delegated = .ok r) : ¬NoEffect s r.2 := by
  have hlist : r.2.dspaceList.table ID = some dspace' := by
    have hpcb' : (s.setDspace ID dspace').pcbs f.pid = some pcb := hpcb
    simp only [FaultServ.finishVmFaultDspace] at h
    split at h
    · obtain rfl := Except.ok.inj h
      exact Function.update_self ..
    · obtain rfl := Except.ok.inj h
      rw [faultDelegateNotification_dspaceList _ _ _ hpcb']
      exact Function.update_self ..
  intro hnone
  have hwaiters := hnone.waiters ID
  rw [hlist, hdspace] at hwaiters
  exact hadded (Option.some.inj hwaiters)

theorem missing_refuses_iff (h : s.Ok) (hpcb : s.pcbs f.pid = some pcb)
    (hdspace : s.dspaceList.table ID = some dspace) (henabled : dspace.contentInitEnabled = true)
    (hin : (s.dspaceFault f aw dspace).dspaceOffset ≤ ramDspaceGetSize dspace) (vs : Vspace)
    (contentInitPID : Nat) (notification : ProcNotification) :
    (∃ s', (delegateContentInit ⟨dspace, []⟩ (s.dspaceFault f aw dspace) >>= fun r =>
        (s.setDspace ID r.2.dspace).finishVmFaultDspace f pcb vs contentInitPID notification
          r.1) = .ok (.segfault, s') ∧ NoEffect s s') ↔
      Unserved (s.dspaceFault f aw dspace) ∨
        f.memory = false ∧ s.npage f aw dspace < dspace.npages := by
  have hset : NoEffect s (s.setDspace ID dspace) := (NoEffect.setDspace hdspace).2 rfl
  obtain ⟨hinvalid, hend, hfull, hwaiting⟩ :=
    delegateContentInit_cases henabled (h.init ID dspace hdspace henabled) hin
      (FaultServ.callerReply_ne f)
  by_cases hun : Unserved (s.dspaceFault f aw dspace)
  · rw [hinvalid hun]
    exact iff_of_true ⟨_, rfl, hset⟩ (Or.inl hun)
  by_cases hpage : dspace.npages ≤ s.npage f aw dspace
  · rw [hend hun hpage]
    refine iff_of_false ?_ ?_
    · rintro ⟨s', heq, _⟩
      cases heq
    · rintro (hyes | ⟨_, hlt⟩)
      · exact hun hyes
      · exact absurd hpage (Nat.not_le.2 hlt)
  have hlt := Nat.lt_of_not_le hpage
  cases hmemory : f.memory with
  | false =>
      rw [hfull hun hlt hmemory]
      exact iff_of_true ⟨_, rfl, hset⟩ (Or.inr ⟨rfl, hlt⟩)
  | true =>
      obtain ⟨w, _, _, hw⟩ := hwaiting hun hlt hmemory
      rw [hw]
      refine iff_of_false ?_ ?_
      · rintro ⟨s', heq, hnone⟩
        exact delegate_effect (by simp) hdspace hpcb vs _ _ heq hnone
      · rintro (hyes | ⟨hno, _⟩)
        · exact hun hyes
        · cases hno

/-- A page that its pager still has to provide is refused where nobody provides it, or where the
waiter finds no memory. -/
theorem dspaceRefuses_missing_iff (henabled : dspace.contentInitEnabled = true)
    (hbitmask : dspace.contentInitBitmask.isSome)
    (hin : (s.dspaceFault f aw dspace).dspaceOffset ≤ ramDspaceGetSize dspace)
    (hmissing : dspace.provided (s.npage f aw dspace) = false) :
    DspaceRefuses s f vs aw dspace ↔ Unserved (s.dspaceFault f aw dspace) ∨
      f.memory = false ∧ s.npage f aw dspace < dspace.npages := by
  have hpager : (s.dspaceFault f aw dspace).pager = false ↔
      s.pcbs dspace.contentInitPID = none :=
    Option.isSome_eq_false_iff.trans Option.isNone_iff_eq_none
  have hunserved : Unserved (s.dspaceFault f aw dspace) ↔ u32 (aw.offset + aw.size) ≤
      u32 (f.faultAddr + (s.targets aw.winID).ramDataspaceOffset) ∨
        s.pcbs dspace.contentInitPID = none ∨ f.callerReply = none :=
    or_congr Iff.rfl (or_congr hpager Iff.rfl)
  rw [hunserved, or_assoc, or_assoc]
  constructor
  · intro hrefuses
    cases hrefuses with
    | state _ hno =>
        rcases hno with hnone | hlt
        · exact absurd hnone (Option.isSome_iff_ne_none.1 hbitmask)
        · exact absurd hin (Nat.not_le.2 hlt)
    | delegate _ _ _ _ hdelegate => exact hdelegate
    | page hprovided _ => exact absurd ((hprovided henabled).2.2.symm.trans hmissing) (by simp)
  · exact .delegate henabled hbitmask hin hmissing

theorem dspace_refuses_iff (h : s.Ok) (hpcb : s.pcbs f.pid = some pcb)
    (hvs : s.vspaceState.vspaces f.pid = some vs)
    (htarget : (s.targets aw.winID).ramDataspace = some ID)
    (hdspace : s.dspaceList.table ID = some dspace) (haddr : f.faultAddr < 2 ^ 32)
    (hunmapped : (vs.pages (f.faultAddr / pageSize)).isSome = false) :
    (∃ s', s.handleVmFaultDspace f pcb vs aw = .ok (.segfault, s') ∧ NoEffect s s') ↔
      DspaceRefuses s f vs aw dspace := by
  have hset : NoEffect s (s.setDspace ID dspace) := (NoEffect.setDspace hdspace).2 rfl
  have hmap := map_refuses_iff h hvs hdspace haddr hunmapped pcb aw dspace.contentInitPID
    ⟨.contentInit, [ID, pageAlign (s.dspaceFault f aw dspace).dspaceOffset]⟩
  simp only [FaultServ.handleVmFaultDspace, htarget, hdspace]
  cases henabled : dspace.contentInitEnabled with
  | false =>
      have hprovided : PageProvided dspace (s.dspaceFault f aw dspace).dspaceOffset := by
        intro hyes
        rw [henabled] at hyes
        cases hyes
      rw [handleVmFaultDspace_disabled _ henabled]
      refine hmap.trans ⟨.page hprovided, fun hrefuses => ?_⟩
      cases hrefuses with
      | state hyes _ => exact absurd (hyes.symm.trans henabled) (by simp)
      | delegate hyes _ _ _ _ => exact absurd (hyes.symm.trans henabled) (by simp)
      | page _ hpage => exact hpage
  | true =>
      by_cases hstate : dspace.contentInitBitmask = none ∨
          ramDspaceGetSize dspace < (s.dspaceFault f aw dspace).dspaceOffset
      · rw [handleVmFaultDspace_noState henabled hstate]
        exact iff_of_true ⟨_, rfl, hset⟩ (.state henabled hstate)
      obtain ⟨hbitmask, hsize⟩ := not_or.1 hstate
      obtain ⟨bitmask, hbitmask⟩ := Option.ne_none_iff_exists'.1 hbitmask
      have hin := Nat.le_of_not_lt hsize
      rw [handleVmFaultDspace_inSize henabled hbitmask hin]
      cases hbit : bitmask ((s.dspaceFault f aw dspace).dspaceOffset / pageSize) with
      | true =>
          have hbit' : dspace.provided (s.npage f aw dspace) = true := by
            rw [RamDspace.provided, hbitmask]
            exact hbit
          refine hmap.trans ⟨.page fun _ => ⟨by rw [hbitmask]; rfl, hin, hbit'⟩, fun hrefuses => ?_⟩
          cases hrefuses with
          | state _ hno => exact absurd hno hstate
          | delegate _ _ _ hmissing _ => exact absurd (hmissing.symm.trans hbit') (by simp)
          | page _ hpage => exact hpage
      | false =>
          have hbit' : dspace.provided (s.npage f aw dspace) = false := by
            rw [RamDspace.provided, hbitmask]
            exact hbit
          refine (missing_refuses_iff h hpcb hdspace henabled hin vs _ _).trans ?_
          exact (dspaceRefuses_missing_iff henabled (by rw [hbitmask]; rfl) hin hbit').symm

theorem refuses_lookedUp (aw : AssociatedWindow) (dspace : RamDspace) :
    DspaceRefuses (s.setVspace f.pid vs.lookedUp) f vs.lookedUp aw dspace ↔
      DspaceRefuses s f vs aw dspace := by
  have hrange := findRange_lookedUp vs (pageAlign f.faultAddr) pageSize
  constructor
  · intro h
    cases h with
    | state enabled h => exact .state enabled h
    | delegate enabled bitmask inSize missing h => exact .delegate enabled bitmask inSize missing h
    | page provided h => exact .page provided (hrange ▸ h)
  · intro h
    cases h with
    | state enabled h => exact .state enabled h
    | delegate enabled bitmask inSize missing h => exact .delegate enabled bitmask inSize missing h
    | page provided h => exact .page provided (hrange ▸ h)

/-- A fault in a window has no effect if and only if a check other than that of the permissions
refuses it. -/
theorem refuses_iff (h : s.Ok) (hpcb : s.pcbs f.pid = some pcb)
    (hvs : s.vspaceState.vspaces f.pid = some vs)
    (hfind : wAssociateFind vs.windows f.faultAddr = some aw)
    (hwindow : wGetWindow s.vspaceState.windowList aw.winID = some window) :
    (∃ s', s.handleVmFault f pcb vs = .ok (.segfault, s') ∧ NoEffect s s') ↔
      Refuses s f pcb vs aw window := by
  have hlooked : (s.setVspace f.pid vs.lookedUp).Ok :=
    h.setVspace hvs (h.findable.setVspace hvs (.lookedUp vs))
  have hnone : NoEffect s (s.setVspace f.pid vs.lookedUp) := .setVspace hvs rfl
  have hback : ∀ s', NoEffect (s.setVspace f.pid vs.lookedUp) s' ↔ NoEffect s s' := by
    intro s'
    refine ⟨hnone.trans, fun hs' => ⟨fun pid => ?_, hs'.waiters, hs'.notifications⟩⟩
    exact (hs'.pages pid).trans (hnone.pages pid).symm
  by_cases hreach : pcb.faultReply = 0 ∧ (vs.pages (f.faultAddr / pageSize)).isSome = false
  · obtain ⟨hblocked, hunmapped⟩ := hreach
    have hvs' : (s.setVspace f.pid vs.lookedUp).vspaceState.vspaces f.pid = some vs.lookedUp :=
      setVspace_self _ _ _
    have htarget := h.targets aw.winID window (wGetWindow_some hwindow)
    rw [FaultServ.Reaches.eq ⟨hblocked, hfind, hwindow, hunmapped⟩]
    cases hmode : window.mode with
    | empty => exact iff_of_true ⟨_, rfl, hnone⟩ (.empty hmode)
    | anonymous =>
        rw [hmode] at htarget
        obtain ⟨ID, hID, hlive⟩ := htarget
        obtain ⟨dspace, hdspace⟩ := Option.isSome_iff_exists.1 hlive
        have haddr := (contains_holds (find_some hfind).2).2
        have hiff := dspace_refuses_iff hlooked hpcb hvs' hID hdspace haddr hunmapped
        simp only [hback] at hiff
        refine hiff.trans ((refuses_lookedUp aw dspace).trans ?_)
        refine ⟨.dspace hmode hID hdspace, fun hrefuses => ?_⟩
        cases hrefuses with
        | blocked hne => exact absurd hblocked hne
        | mapped hsome => exact absurd (hsome.symm.trans hunmapped) (by simp)
        | empty hno => exact absurd (hmode.symm.trans hno) (by simp)
        | pager hno _ => exact absurd (hmode.symm.trans hno) (by simp)
        | dspace _ hID' hlive' hrefuses =>
            obtain rfl := Option.some.inj (hID.symm.trans hID')
            obtain rfl := Option.some.inj (hdspace.symm.trans hlive')
            exact hrefuses
    | pager =>
        rw [hmode] at htarget
        have hiff := pager_refuses_iff (s := s.setVspace f.pid vs.lookedUp) hpcb htarget window
        simp only [hback] at hiff
        refine hiff.trans ⟨fun hrefuses => .pager hmode hrefuses, fun hrefuses => ?_⟩
        cases hrefuses with
        | blocked hne => exact absurd hblocked hne
        | mapped hsome => exact absurd (hsome.symm.trans hunmapped) (by simp)
        | empty hno => exact absurd (hmode.symm.trans hno) (by simp)
        | dspace hno _ _ _ => exact absurd (hmode.symm.trans hno) (by simp)
        | pager _ hrefuses => exact hrefuses
  · have hnot : ∀ aw window, ¬s.Reaches f pcb vs aw window := fun _ _ hr =>
      hreach ⟨hr.unblocked, hr.unmapped⟩
    have hrefuses : Refuses s f pcb vs aw window := by
      by_cases hblocked : pcb.faultReply = 0
      · exact .mapped (by simpa [hblocked, Option.isSome_iff_ne_none] using hreach)
      · exact .blocked hblocked
    refine iff_of_true ?_ hrefuses
    rcases h.refused hvs hnot with heq | heq
    · exact ⟨s, heq, .refl s⟩
    · exact ⟨_, heq, hnone⟩

end Permissions

/-- **Permissions.** In every reachable state and for every fault, a fault that the window does not
permit has no effect and is a segmentation fault if and only if a check other than that of the
permissions refuses it. -/
theorem permissions_enforced_iff {pids : Nat → Bool} (hpids : pids 0 = false)
    {evs : List ServEvent} {s : FaultServ}
    (hrun : Run faultServStep (fun _ _ => True) (faultServInit pids) evs s) (f : VmFault) :
    PermissionsEnforced s f ↔
      ∀ pcb vs aw window, s.pcbs f.pid = some pcb → s.vspaceState.vspaces f.pid = some vs →
        wAssociateFind vs.windows f.faultAddr = some aw →
        wGetWindow s.vspaceState.windowList aw.winID = some window →
        window.Permits f.read ∨ Refuses s f pcb vs aw window := by
  have hok := faultServ_ok hpids hrun
  constructor
  · intro h pcb vs aw window hpcb hvs hfind hwindow
    by_cases hpermits : window.Permits f.read
    · exact Or.inl hpermits
    · exact Or.inr ((refuses_iff hok hpcb hvs hfind hwindow).1
        (h pcb vs aw window hpcb hvs hfind hwindow hpermits))
  · intro h pcb vs aw window hpcb hvs hfind hwindow hpermits
    exact (refuses_iff hok hpcb hvs hfind hwindow).2
      ((h pcb vs aw window hpcb hvs hfind hwindow).resolve_left hpermits)

instance (window : Window) (read : Bool) : Decidable (window.Permits read) :=
  inferInstanceAs (Decidable (_ ≠ _))

/-- The process, the address space and the window of a fault. -/
def FaultServ.lookup (s : FaultServ) (f : VmFault) : Option (FaultPcb × Vspace × Window) := do
  let pcb ← s.pcbs f.pid
  let vs ← s.vspaceState.vspaces f.pid
  let aw ← wAssociateFind vs.windows f.faultAddr
  let window ← wGetWindow s.vspaceState.windowList aw.winID
  return (pcb, vs, window)

theorem FaultServ.lookup_eq_some {s : FaultServ} {f : VmFault} {pcb : FaultPcb} {vs : Vspace}
    {window : Window} : s.lookup f = some (pcb, vs, window) ↔
      ∃ aw, s.pcbs f.pid = some pcb ∧ s.vspaceState.vspaces f.pid = some vs ∧
        wAssociateFind vs.windows f.faultAddr = some aw ∧
        wGetWindow s.vspaceState.windowList aw.winID = some window := by
  simp only [FaultServ.lookup, Option.bind_eq_bind, Option.bind_eq_some_iff, Option.pure_def,
    Option.some.injEq, Prod.mk.injEq]
  constructor
  · rintro ⟨_, hpcb, _, hvs, aw, hfind, _, hwindow, rfl, rfl, rfl⟩
    exact ⟨aw, hpcb, hvs, hfind, hwindow⟩
  · rintro ⟨aw, hpcb, hvs, hfind, hwindow⟩
    exact ⟨pcb, hpcb, vs, hvs, aw, hfind, window, hwindow, rfl, rfl, rfl⟩

/-- A window that permits reads only, on a dataspace. -/
def readOnlyWindow : List ServEvent :=
  [.window (.createMemWindow 1 0x10000 0x1000 wPermissionRead true (some 0x10000) true),
    .call (.dataOpen "anon" 0x1000 none), .call (.dataDatamap 1 1 0)]

/-- The permissions are enforced for a read in that window. -/
theorem permissions_enforced_iff_read :
    ∃ s, Run faultServStep (fun _ _ => True) (faultServInit fun pid => pid = 1) readOnlyWindow s ∧
      PermissionsEnforced s (faultAt 0x10000 true) := by
  obtain ⟨s, hrun, hs⟩ := Run.exists_of_exec
    (P := fun s => ∀ r ∈ s.lookup (faultAt 0x10000 true), r.2.2.Permits true)
    (show (Run.exec faultServStep (fun _ _ => True) readOnlyWindow
      (faultServInit fun pid => pid = 1)).any _ = true by decide +kernel)
  refine ⟨s, hrun, (permissions_enforced_iff rfl hrun _).2 ?_⟩
  intro pcb vs aw window hpcb hvs hfind hget
  exact Or.inl (hs (pcb, vs, window) (FaultServ.lookup_eq_some.2 ⟨aw, hpcb, hvs, hfind, hget⟩))

/-- A write in that window maps the page. -/
theorem write_served :
    ∃ s, Run faultServStep (fun _ _ => True) (faultServInit fun pid => pid = 1) readOnlyWindow s ∧
      ¬PermissionsEnforced s (faultAt 0x10000 false) := by
  obtain ⟨s, hrun, hs⟩ := Run.exists_of_exec
    (P := fun s => ((s.lookup (faultAt 0x10000 false)).any fun r =>
      !decide (r.2.2.Permits false) &&
        ((s.handleVmFault (faultAt 0x10000 false) r.1 r.2.1).toOption.any fun e =>
          e.1 = .replied)) = true)
    (show (Run.exec faultServStep (fun _ _ => True) readOnlyWindow
      (faultServInit fun pid => pid = 1)).any _ = true by decide +kernel)
  obtain ⟨⟨pcb, vs, window⟩, hlookup, hs⟩ := (Option.any_eq_true _ _).1 hs
  obtain ⟨aw, hpcb, hvs, hfind, hwindow⟩ := FaultServ.lookup_eq_some.1 hlookup
  simp only [Bool.and_eq_true, Bool.not_eq_true', decide_eq_false_iff_not] at hs
  refine ⟨s, hrun, fun henforced => ?_⟩
  obtain ⟨s', hs', _⟩ := henforced pcb vs aw window hpcb hvs hfind hwindow hs.1
  have hend := hs.2
  rw [hs'] at hend
  cases hend

end PartitionSeL4.Refos
