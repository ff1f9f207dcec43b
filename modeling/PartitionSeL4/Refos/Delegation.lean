import PartitionSeL4.Refos.Anonymous

/-!
# Faults on pages that are not provided

Where content initialisation is on for a dataspace, a fault on a page that nobody has provided yet
goes to the content initialiser: the client becomes a waiter for the page, and the initialiser gets
a notification. But first `handle_vm_fault_dspace` compares two numbers that do not belong together:
the address of the fault plus the mapping offset, and the end of the window. So in a window with a
mapping offset the last faults are refused, though the window holds them and the dataspace has the
pages. `content_fault_iff` says that there is nothing else.
-/

namespace PartitionSeL4.Refos

open Lib

/-! ## The property -/

/-- One client more waits for the page of the dataspace, its content initialiser has one
notification more, with the offset of the page, and nothing else has changed. -/
structure Delegated (s : FaultServ) (ID : Nat) (dspace : RamDspace) (page reply : Nat)
    (s' : FaultServ) : Prop where
  waiter : s'.dspaceList.table ID = some { dspace with
    contentInitWaitingList := dspace.contentInitWaitingList ++ [⟨page, reply⟩] }
  otherSpaces : ∀ i, i ≠ ID → s'.dspaceList.table i = s.dspaceList.table i
  notification : s'.pcbs dspace.contentInitPID = (s.pcbs dspace.contentInitPID).map fun pcb =>
    { pcb with
      notificationBuffer :=
        pcb.notificationBuffer.map (· ++ [⟨.contentInit, [ID, page * pageSize]⟩]) }
  otherProcesses : ∀ pid, pid ≠ dspace.contentInitPID → s'.pcbs pid = s.pcbs pid
  pages : ∀ pid, (s'.vspaceState.vspaces pid).map Vspace.pages =
    (s.vspaceState.vspaces pid).map Vspace.pages

/-- The page of the fault is not provided, there is somebody to provide it, and no call outside
fails: the content initialiser lives and has a notification buffer with room, and the client can be
made a waiter. -/
structure AwaitsContent (s : FaultServ) (f : VmFault) (aw : AssociatedWindow) (dspace : RamDspace)
    (reply : Nat) : Prop where
  enabled : dspace.contentInitEnabled = true
  inSize : s.byteOf aw f.faultAddr < ramDspaceGetSize dspace
  missing : ∃ bitmask, dspace.contentInitBitmask = some bitmask ∧
    bitmask (s.byteOf aw f.faultAddr / pageSize) = false
  pager : ∃ pcb buffer, s.pcbs dspace.contentInitPID = some pcb ∧
    pcb.notificationBuffer = some buffer
  reply : f.callerReply = some reply
  memory : f.memory = true
  written : f.written = true

/-- The search for the address finds a window, and the comparison of the handler holds. -/
structure PassesRange (s : FaultServ) (f : VmFault) (vs : Vspace) (aw : AssociatedWindow) :
    Prop where
  found : (wAssociateFind vs.windows f.faultAddr).isSome = true
  range : u32 (f.faultAddr + (s.targets aw.winID).ramDataspaceOffset) < u32 (aw.offset + aw.size)

section Delegation

variable {s : FaultServ} {f : VmFault} {pcb : FaultPcb} {vs : Vspace} {aw : AssociatedWindow}
  {ID reply : Nat} {dspace : RamDspace}

theorem rbWrite_pcbs (s : FaultServ) (pid : Nat) (notification : ProcNotification) :
    (s.rbWrite pid notification).pcbs pid = (s.pcbs pid).map (fun pcb =>
      { pcb with notificationBuffer := pcb.notificationBuffer.map (· ++ [notification]) }) ∧
    (∀ q, q ≠ pid → (s.rbWrite pid notification).pcbs q = s.pcbs q) ∧
    (s.rbWrite pid notification).dspaceList = s.dspaceList ∧
    (s.rbWrite pid notification).vspaceState = s.vspaceState := by
  rw [FaultServ.rbWrite]
  cases hpcb : s.pcbs pid with
  | none => exact ⟨hpcb, fun _ _ => rfl, rfl, rfl⟩
  | some pcb =>
      exact ⟨Function.update_self .., fun q hq => Function.update_of_ne hq .., rfl, rfl⟩

/-- A notification without a reply to save. -/
theorem faultDelegateNotification_written {delegationPCB : FaultPcb}
    {buffer : List ProcNotification}
    (hbuffer : delegationPCB.notificationBuffer = some buffer) (hwritten : f.written = true)
    (delegationPID : Nat) (notification : ProcNotification) :
    s.faultDelegateNotification f pcb delegationPID delegationPCB notification false =
      (.delegated, s.rbWrite delegationPID notification) := by
  simp only [FaultServ.faultDelegateNotification, hbuffer, hwritten, reduceCtorEq, if_false,
    Bool.false_eq_true, ne_eq, not_true_eq_false, Bool.not_true]

/-- The branch of the handler for a page that is not provided. -/
theorem handleVmFaultDspace_awaits (h : InDspaceWindow s f pcb vs aw ID dspace) (hok : s.Ok)
    (hawaits : AwaitsContent s f aw dspace reply) :
    Refos.handleVmFaultDspace ⟨dspace, []⟩ (s.dspaceFault f aw dspace) =
      if u32 (f.faultAddr + (s.targets aw.winID).ramDataspaceOffset) <
          u32 (aw.offset + aw.size) then
        .ok (.delegated, ⟨{ dspace with
          contentInitWaitingList := dspace.contentInitWaitingList ++
            [⟨s.byteOf aw f.faultAddr / pageSize, reply⟩] }, []⟩)
      else .ok (.invalid, ⟨dspace, []⟩) := by
  obtain ⟨bitmask, hbitmask, hmissing⟩ := hawaits.missing
  obtain ⟨cinitPCB, buffer, hpager, _⟩ := hawaits.pager
  have hoffset : (s.dspaceFault f aw dspace).dspaceOffset = s.byteOf aw f.faultAddr :=
    dspaceOffset_eq h.inside h.byte.2
  have hinit := hok.init ID dspace h.live hawaits.enabled
  have hin : (s.dspaceFault f aw dspace).dspaceOffset ≤ ramDspaceGetSize dspace := by
    rw [hoffset]
    exact Nat.le_of_lt hawaits.inSize
  have hlt : (s.dspaceFault f aw dspace).dspaceOffset / pageSize < dspace.npages := h.npage_lt
  rw [handleVmFaultDspace_inSize hawaits.enabled hbitmask hin, hoffset, hmissing,
    if_neg Bool.false_ne_true]
  obtain ⟨hinvalid, _, _, hwaiting⟩ :=
    delegateContentInit_cases hawaits.enabled hinit hin (FaultServ.callerReply_ne f)
  have hlive : (s.dspaceFault f aw dspace).pager = true := by
    show (s.pcbs dspace.contentInitPID).isSome = true
    rw [hpager]
    rfl
  split_ifs with hrange
  · have hserved : ¬Unserved (s.dspaceFault f aw dspace) := by
      rintro (hout | hnobody | hunsaved)
      · exact absurd hrange (Nat.not_lt.2 hout)
      · rw [hlive] at hnobody
        cases hnobody
      · exact absurd (hawaits.reply.symm.trans hunsaved) (by simp)
    obtain ⟨w, hreply, hpage, heq⟩ := hwaiting hserved hlt hawaits.memory
    have hw : w = ⟨s.byteOf aw f.faultAddr / pageSize, reply⟩ := by
      have hsame : w.reply = reply := Option.some.inj (hreply.symm.trans hawaits.reply)
      rw [hoffset] at hpage
      rw [← hpage, ← hsame]
    rw [heq, hw]
  · exact hinvalid (Or.inl (Nat.not_lt.1 hrange))

/-- The state in which a client more waits for a page, and its content initialiser has been
notified. -/
def FaultServ.awaiting (s : FaultServ) (ID : Nat) (dspace : RamDspace) (page reply : Nat) :
    FaultServ :=
  (s.setDspace ID { dspace with
    contentInitWaitingList := dspace.contentInitWaitingList ++ [⟨page, reply⟩] }).rbWrite
      dspace.contentInitPID ⟨.contentInit, [ID, page * pageSize]⟩

theorem finishVmFaultDspace_delegated (hawaits : AwaitsContent s f aw dspace reply) (ID : Nat)
    (pcb : FaultPcb) (vs : Vspace) (page : Nat) :
    (s.setDspace ID { dspace with
        contentInitWaitingList := dspace.contentInitWaitingList ++ [⟨page, reply⟩] }
      ).finishVmFaultDspace f pcb vs dspace.contentInitPID
        ⟨.contentInit, [ID, page * pageSize]⟩ .delegated =
      .ok (.delegated, s.awaiting ID dspace page reply) := by
  obtain ⟨cinitPCB, buffer, hpager, hbuffer⟩ := hawaits.pager
  have hpager' : (s.setDspace ID { dspace with
      contentInitWaitingList := dspace.contentInitWaitingList ++ [⟨page, reply⟩] }).pcbs
        dspace.contentInitPID = some cinitPCB := hpager
  simp only [FaultServ.finishVmFaultDspace, hpager']
  rw [faultDelegateNotification_written hbuffer hawaits.written]
  rfl

theorem delegated_awaiting (hspace : s.vspaceState.vspaces f.pid = some vs)
    (page : Nat) :
    Delegated s ID dspace page reply
      ((s.setVspace f.pid vs.lookedUp).awaiting ID dspace page reply) := by
  obtain ⟨hpcb, hothers, hlist, hvspace⟩ := rbWrite_pcbs
    ((s.setVspace f.pid vs.lookedUp).setDspace ID { dspace with
      contentInitWaitingList := dspace.contentInitWaitingList ++ [⟨page, reply⟩] })
    dspace.contentInitPID ⟨.contentInit, [ID, page * pageSize]⟩
  have hsame : NoEffect s (s.setVspace f.pid vs.lookedUp) := .setVspace hspace rfl
  refine ⟨?_, fun i hi => ?_, hpcb, hothers, fun pid => ?_⟩
  · rw [FaultServ.awaiting, hlist]
    exact Function.update_self ..
  · rw [FaultServ.awaiting, hlist]
    exact Function.update_of_ne hi ..
  · rw [FaultServ.awaiting, hvspace]
    exact hsame.pages pid

/-- A fault on a page that is not provided, in a window that the search finds. -/
theorem InDspaceWindow.awaits_eq (h : InDspaceWindow s f pcb vs aw ID dspace) (hok : s.Ok)
    (hawaits : AwaitsContent s f aw dspace reply)
    (hfind : wAssociateFind vs.windows f.faultAddr = some aw) :
    s.handleVmFault f pcb vs =
      .ok (if u32 (f.faultAddr + (s.targets aw.winID).ramDataspaceOffset) <
          u32 (aw.offset + aw.size) then
        (.delegated, (s.setVspace f.pid vs.lookedUp).awaiting ID dspace
          (s.byteOf aw f.faultAddr / pageSize) reply)
      else (.segfault, s.setVspace f.pid vs.lookedUp)) := by
  obtain ⟨t, ht⟩ : ∃ t, t = s.setVspace f.pid vs.lookedUp := ⟨_, rfl⟩
  have htarget : (t.targets aw.winID).ramDataspace = some ID := ht ▸ h.target
  have hlive : t.dspaceList.table ID = some dspace := ht ▸ h.live
  have hfault : t.dspaceFault f aw dspace = s.dspaceFault f aw dspace := by rw [ht]; rfl
  have hawaits' : AwaitsContent t f aw dspace reply := by
    rw [ht]
    exact ⟨hawaits.enabled, hawaits.inSize, hawaits.missing, hawaits.pager, hawaits.reply,
      hawaits.memory, hawaits.written⟩
  have hoffset : pageAlign (s.dspaceFault f aw dspace).dspaceOffset =
      s.byteOf aw f.faultAddr / pageSize * pageSize := by
    rw [dspaceOffset_eq h.inside h.byte.2]
    exact (Nat.div_mul_self_eq_mod_sub_self).symm
  rw [h.reaches hok hfind, ← ht]
  simp only [FaultServ.handleVmFaultDspace, htarget, hlive, hfault,
    handleVmFaultDspace_awaits h hok hawaits, hoffset]
  split_ifs with hrange
  · exact finishVmFaultDspace_delegated hawaits' ID pcb vs.lookedUp _
  · exact congrArg (fun u => Except.ok (FaultEnd.segfault, u)) (FaultServ.setDspace_self hlive)

end Delegation

/-- **Delegated faults.** In every reachable state, take a fault on an address of a window on a
dataspace, whose page is not provided, where there is somebody to provide it and no call outside
fails. The client waits for that page of the dataspace, and the content initialiser gets one
notification with the offset of the page, if and only if the search finds the window and the address
plus the mapping offset is below the end of the window, in 32 bits. -/
theorem content_fault_iff {pids : Nat → Bool} (hpids : pids 0 = false) {evs : List ServEvent}
    {s : FaultServ} (hrun : Run faultServStep (fun _ _ => True) (faultServInit pids) evs s)
    {f : VmFault} {pcb : FaultPcb} {vs : Vspace} {aw : AssociatedWindow} {ID reply : Nat}
    {dspace : RamDspace} (h : InDspaceWindow s f pcb vs aw ID dspace)
    (hawaits : AwaitsContent s f aw dspace reply) :
    (∃ s', s.handleVmFault f pcb vs = .ok (.delegated, s') ∧
      Delegated s ID dspace (s.byteOf aw f.faultAddr / pageSize) reply s') ↔
        PassesRange s f vs aw := by
  have hok := faultServ_ok hpids hrun
  constructor
  · rintro ⟨s', hdelegated, -⟩
    cases hfind : wAssociateFind vs.windows f.faultAddr with
    | none =>
        obtain ⟨s'', hsegfault⟩ := h.segfault hok hfind
        rw [hdelegated] at hsegfault
        cases hsegfault
    | some w =>
        obtain rfl := h.found_eq hfind
        have heq := h.awaits_eq hok hawaits hfind
        refine ⟨by rw [hfind]; rfl, ?_⟩
        by_contra hno
        rw [if_neg hno, hdelegated] at heq
        cases heq
  · intro hcond
    obtain ⟨w, hfind⟩ := Option.isSome_iff_exists.1 hcond.found
    obtain rfl := h.found_eq hfind
    have heq := h.awaits_eq hok hawaits hfind
    rw [if_pos hcond.range] at heq
    exact ⟨_, heq, delegated_awaiting h.space _⟩

/-! ### A window with and without a mapping offset -/

/-- Process 1 has a window of two pages, on a dataspace of four pages that process 2 provides the
content of. -/
def contentWindow (offset : Nat) : List ServEvent :=
  [.window (.createMemWindow 1 0x10000 0x2000 3 true (some 0x10000) true),
    .call (.dataOpen "anon" 0x4000 none), .call (.dataHaveData 2 1 (some 7)),
    .call (.dataOpen "anon" 0x1000 none), .notificationBuffer 2 2,
    .call (.dataDatamap 1 1 offset)]

/-- The conditions of `AwaitsContent`. -/
def FaultServ.awaitsContent (s : FaultServ) (f : VmFault) (r : DspaceLookup) : Bool :=
  r.dspace.contentInitEnabled && s.byteOf r.aw f.faultAddr < ramDspaceGetSize r.dspace &&
    (r.dspace.contentInitBitmask.any fun bitmask =>
      !bitmask (s.byteOf r.aw f.faultAddr / pageSize)) &&
    ((s.pcbs r.dspace.contentInitPID).any fun pcb => pcb.notificationBuffer.isSome)

theorem awaitsContent_of_check {s : FaultServ} {f : VmFault} {r : DspaceLookup} {reply : Nat}
    (hcheck : s.awaitsContent f r = true) (hreply : f.callerReply = some reply)
    (hmemory : f.memory = true) (hwritten : f.written = true) :
    AwaitsContent s f r.aw r.dspace reply := by
  simp only [FaultServ.awaitsContent, Bool.and_eq_true, decide_eq_true_eq, Option.any_eq_true,
    Bool.not_eq_true'] at hcheck
  obtain ⟨⟨⟨henabled, hsize⟩, hmissing⟩, pcb, hpcb, hbuffer⟩ := hcheck
  obtain ⟨buffer, hbuffer⟩ := Option.isSome_iff_exists.1 hbuffer
  exact ⟨henabled, hsize, hmissing, ⟨pcb, buffer, hpcb, hbuffer⟩, hreply, hmemory, hwritten⟩

theorem exists_contentWindow (offset faultAddr : Nat) {P : FaultServ → DspaceLookup → Bool}
    (h : ((Run.exec faultServStep (fun _ _ => True) (contentWindow offset)
      (faultServInit fun pid => pid = 1 ∨ pid = 2)).any fun s =>
        (s.dspaceLookup (faultAt faultAddr true)).any fun r =>
          s.inDspaceWindow (faultAt faultAddr true) r &&
            s.awaitsContent (faultAt faultAddr true) r && P s r) = true) :
    ∃ (s : FaultServ) (r : DspaceLookup), Run faultServStep (fun _ _ => True)
        (faultServInit fun pid => pid = 1 ∨ pid = 2) (contentWindow offset) s ∧
      InDspaceWindow s (faultAt faultAddr true) r.pcb r.vs r.aw r.ID r.dspace ∧
      AwaitsContent s (faultAt faultAddr true) r.aw r.dspace 5 ∧ P s r = true := by
  obtain ⟨s, hexec, hs⟩ := (Option.any_eq_true _ _).1 h
  obtain ⟨r, hlookup, hr⟩ := (Option.any_eq_true _ _).1 hs
  simp only [Bool.and_eq_true] at hr
  exact ⟨s, r, .of_exec hexec, inDspaceWindow_of_lookup hlookup hr.1.1,
    awaitsContent_of_check hr.1.2 rfl rfl rfl, hr.2⟩

/-- Without a mapping offset, a fault on the second page is delegated. -/
theorem content_fault_iff_second :
    ∃ (s s' : FaultServ) (r : DspaceLookup), Run faultServStep (fun _ _ => True)
        (faultServInit fun pid => pid = 1 ∨ pid = 2) (contentWindow 0) s ∧
      s.handleVmFault (faultAt 0x11000 true) r.pcb r.vs = .ok (.delegated, s') ∧
      Delegated s r.ID r.dspace (s.byteOf r.aw 0x11000 / pageSize) 5 s' := by
  obtain ⟨s, r, hrun, hin, hawaits, hcheck⟩ := exists_contentWindow 0 0x11000
    (P := fun s r => (wAssociateFind r.vs.windows 0x11000).isSome &&
      u32 (0x11000 + (s.targets r.aw.winID).ramDataspaceOffset) < u32 (r.aw.offset + r.aw.size))
    (show _ = true by decide +kernel)
  simp only [Bool.and_eq_true, decide_eq_true_eq] at hcheck
  obtain ⟨s', hdelegated, heffect⟩ :=
    (content_fault_iff (by decide) hrun hin hawaits).2 ⟨hcheck.1, hcheck.2⟩
  exact ⟨s, s', r, hrun, hdelegated, heffect⟩

/-- With a mapping offset of one page, the same fault is a segmentation fault, though the window is
aligned and the dataspace has four pages. -/
theorem fault_in_window_refused :
    ∃ (s : FaultServ) (r : DspaceLookup), Run faultServStep (fun _ _ => True)
        (faultServInit fun pid => pid = 1 ∨ pid = 2) (contentWindow 0x1000) s ∧
      InDspaceWindow s (faultAt 0x11000 true) r.pcb r.vs r.aw r.ID r.dspace ∧
      AwaitsContent s (faultAt 0x11000 true) r.aw r.dspace 5 ∧
      (r.aw.offset % pageSize = 0 ∧ r.aw.size % pageSize = 0 ∧
        (s.targets r.aw.winID).ramDataspaceOffset = 0x1000 ∧ r.dspace.npages = 4) ∧
      (∃ s', s.handleVmFault (faultAt 0x11000 true) r.pcb r.vs = .ok (.segfault, s')) ∧
      ¬∃ s', s.handleVmFault (faultAt 0x11000 true) r.pcb r.vs = .ok (.delegated, s') ∧
        Delegated s r.ID r.dspace (s.byteOf r.aw 0x11000 / pageSize) 5 s' := by
  obtain ⟨s, r, hrun, hin, hawaits, hcheck⟩ := exists_contentWindow 0x1000 0x11000
    (P := fun s r => decide (r.aw.offset % pageSize = 0 ∧ r.aw.size % pageSize = 0 ∧
      (s.targets r.aw.winID).ramDataspaceOffset = 0x1000 ∧ r.dspace.npages = 4) &&
      ((s.handleVmFault (faultAt 0x11000 true) r.pcb r.vs).toOption.any fun e =>
        e.1 = .segfault))
    (show _ = true by decide +kernel)
  simp only [Bool.and_eq_true, decide_eq_true_eq, Option.any_eq_true] at hcheck
  obtain ⟨haligned, ⟨e, s'⟩, hend, rfl⟩ := hcheck
  have hsegfault := eq_ok_of_toOption hend
  refine ⟨s, r, hrun, hin, hawaits, haligned, ⟨s', hsegfault⟩, ?_⟩
  rintro ⟨s'', hdelegated, -⟩
  rw [hsegfault] at hdelegated
  cases hdelegated

end PartitionSeL4.Refos
