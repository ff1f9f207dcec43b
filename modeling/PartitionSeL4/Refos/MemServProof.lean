import PartitionSeL4.Refos.MemServ

/-!
# The counts of dataspaces are right

`MemServ.Ok` is the invariant: the tables are in order, and `RefCounted` holds of the dataspaces and
of the three kinds of slots that refer to them. Most calls only move references and keep the tables
(`Frame`); each of these is a few of the steps of `RefCounted`. `data_close` empties every slot that
refers to the dataspace, so that the reference it drops is the last one.

`ref_counts` says that the counts are right in every reachable state, that nothing refers to a
dataspace that is gone, and that no assertion fires. `shared_live_iff` says that the shared
dataspace is live as long as nobody closes it: the pointer to it is in none of the slots.
-/

namespace PartitionSeL4.Refos

open Lib

/-! ## References -/

/-- What refers to a dataspace. -/
inductive Slot where
  | window (wID : Nat)
  | param (pid : Nat)
  | notification (pid : Nat)
  deriving DecidableEq, Repr

namespace MemServ

/-- The dataspace that a window, a parameter buffer or a notification buffer refers to. -/
def held (s : MemServ) : Slot → Option DspacePtr
  | .window wID => (s.windowList.table wID).bind MemWindow.ramDataspace
  | .param pid => (s.pcbs pid).bind MemPcb.paramBuffer
  | .notification pid => (s.pcbs pid).bind MemPcb.notificationBuffer

/-- The count of the dataspace of a pointer, if it is still there. -/
def count (s : MemServ) (p : DspacePtr) : Option Nat :=
  match s.dspaceList.table p.ID with
  | some dspace => if dspace.serial = p.serial then some dspace.ref else none
  | none => none

/-- The windows, parameter buffers and notification buffers there can be. -/
def slots (pidMax : Nat) : Finset Slot :=
  (Finset.range wMaxWindows).image .window ∪
    ((Finset.range pidMax).image .param ∪ (Finset.range pidMax).image .notification)

/-- What every call keeps. -/
structure Ok (s : MemServ) : Prop where
  dspaces : s.dspaceList.Ok
  dspaceRange : s.dspaceList.pool.start = 1 ∧ s.dspaceList.pool.stop = ramDataspaceMaxNumDataspace
  dspaceLt : ∀ ID dspace, s.dspaceList.table ID = some dspace → ID < ramDataspaceMaxNumDataspace
  fresh : ∀ ID dspace, s.dspaceList.table ID = some dspace → dspace.serial < s.created
  windows : s.windowList.Ok
  windowRange : s.windowList.pool.start = 1 ∧ s.windowList.pool.stop = wMaxWindows
  windowLt : ∀ wID window, s.windowList.table wID = some window → wID < wMaxWindows
  pids : ∀ pid, (s.pcbs pid).isSome → 1 ≤ pid ∧ pid < s.pidMax
  counted : RefCounted (slots s.pidMax) s.count s.held

/-- The dataspaces there are stay. -/
structure KeepsDspaces (s s' : MemServ) : Prop where
  pool : s'.dspaceList.pool = s.dspaceList.pool
  serials : ∀ ID, (s'.dspaceList.table ID).map LiveDspace.serial =
    (s.dspaceList.table ID).map LiveDspace.serial
  created : s'.created = s.created
  shared : s'.sharedDspace = s.sharedDspace

/-- The dataspaces, windows and processes there are stay. -/
structure Frame (s s' : MemServ) : Prop extends KeepsDspaces s s' where
  pidMax : s'.pidMax = s.pidMax
  pcbs : ∀ pid, (s'.pcbs pid).isSome = (s.pcbs pid).isSome
  windowPool : s'.windowList.pool = s.windowList.pool
  windows : ∀ wID, (s'.windowList.table wID).isSome = (s.windowList.table wID).isSome

section Tables

variable {s s' s'' : MemServ} {ID wID pid : Nat} {p : DspacePtr} {dspace : LiveDspace}
  {window window' : MemWindow} {pcb pcb' : MemPcb}

theorem Ok.ramDspaceGet_eq (h : s.Ok) (ID : Nat) : s.ramDspaceGet ID = s.dspaceList.table ID :=
  h.dspaces.get_of_bounds h.dspaceRange.1 h.dspaceRange.2 (h.dspaceLt ID)

theorem Ok.wGetWindow_eq (h : s.Ok) (wID : Nat) : s.wGetWindow wID = s.windowList.table wID :=
  h.windows.get_of_bounds h.windowRange.1 h.windowRange.2 (h.windowLt wID)

theorem Ok.mem_windowIds (h : s.Ok) (hwindow : s.windowList.table wID = some window) :
    wID ∈ windowIds := by
  have hlt := h.windowLt wID window hwindow
  have hpos := h.windows.start_le hwindow
  rw [h.windowRange.1] at hpos
  rw [windowIds, List.mem_range'_1]
  omega

theorem Ok.mem_pids (h : s.Ok) (hpcb : (s.pcbs pid).isSome) : pid ∈ s.pids := by
  have hrange := h.pids pid hpcb
  rw [MemServ.pids, List.mem_range'_1]
  omega

theorem count_eq_some {n : Nat} : s.count p = some n ↔
    ∃ dspace, s.dspaceList.table p.ID = some dspace ∧ dspace.serial = p.serial ∧
      dspace.ref = n := by
  rw [count]
  cases s.dspaceList.table p.ID with
  | none => simp
  | some dspace => simp

theorem count_isSome :
    (s.count p).isSome ↔ (s.dspaceList.table p.ID).map LiveDspace.serial = some p.serial := by
  rw [count]
  cases s.dspaceList.table p.ID with
  | none => simp
  | some dspace => simp

theorem count_setRef (hID : s.dspaceList.table ID = some dspace) (n : Nat) :
    (s.setRef ID dspace n).count = Function.update s.count ⟨ID, dspace.serial⟩ (some n) := by
  funext q
  have htable : (s.setRef ID dspace n).dspaceList.table =
      Function.update s.dspaceList.table ID (some { dspace with ref := n }) := rfl
  by_cases hq : q = ⟨ID, dspace.serial⟩
  · subst hq
    simp [count, htable]
  · rw [Function.update_of_ne hq]
    simp only [count, htable]
    by_cases hID' : q.ID = ID
    · have hne : dspace.serial ≠ q.serial := by
        rintro heq
        exact hq (by rw [← hID', heq])
      rw [hID', Function.update_self, hID]
      simp [hne]
    · rw [Function.update_of_ne hID']

theorem held_setWindow (s : MemServ) (wID : Nat) (window : MemWindow) :
    (s.setWindow wID window).held =
      Function.update s.held (.window wID) window.ramDataspace := by
  funext slot
  cases slot with
  | window i =>
      by_cases hi : i = wID
      · subst hi
        simp [held, setWindow, Coat.set]
      · simp [held, setWindow, Coat.set, hi]
  | param pid => rfl
  | notification pid => rfl

theorem held_setPcb (s : MemServ) (pid : Nat) (pcb : MemPcb) :
    (s.setPcb pid pcb).held =
      Function.update (Function.update s.held (.param pid) pcb.paramBuffer) (.notification pid)
        pcb.notificationBuffer := by
  funext slot
  cases slot with
  | window i => rfl
  | param i =>
      by_cases hi : i = pid
      · subst hi
        simp [held, setPcb]
      · simp [held, setPcb, hi]
  | notification i =>
      by_cases hi : i = pid
      · subst hi
        simp [held, setPcb]
      · simp [held, setPcb, hi]

theorem held_setPcb_eq (hparam : s.held (.param pid) = pcb.paramBuffer)
    (hnotification : s.held (.notification pid) = pcb.notificationBuffer) :
    (s.setPcb pid pcb).held = s.held := by
  rw [held_setPcb, ← hparam, Function.update_eq_self, ← hnotification, Function.update_eq_self]

theorem held_setParam (hpcb : s.pcbs pid = some pcb) (paramBuffer : Option DspacePtr) :
    (s.setPcb pid { pcb with paramBuffer := paramBuffer }).held =
      Function.update s.held (.param pid) paramBuffer := by
  rw [held_setPcb, Function.update_eq_self_iff]
  simp [held, hpcb]

theorem held_setNotification (hpcb : s.pcbs pid = some pcb) (notification : Option DspacePtr) :
    (s.setPcb pid { pcb with notificationBuffer := notification }).held =
      Function.update s.held (.notification pid) notification := by
  rw [held_setPcb]
  congr 1
  rw [Function.update_eq_self_iff]
  simp [held, hpcb]

/-! ## What stays -/

theorem KeepsDspaces.refl (s : MemServ) : KeepsDspaces s s := ⟨rfl, fun _ => rfl, rfl, rfl⟩

theorem KeepsDspaces.trans (h : KeepsDspaces s s') (h' : KeepsDspaces s' s'') :
    KeepsDspaces s s'' :=
  ⟨h'.pool.trans h.pool, fun ID => (h'.serials ID).trans (h.serials ID),
    h'.created.trans h.created, h'.shared.trans h.shared⟩

theorem KeepsDspaces.live_iff (h : KeepsDspaces s s') (p : DspacePtr) :
    (s'.count p).isSome ↔ (s.count p).isSome := by
  rw [count_isSome, count_isSome, h.serials]

theorem Frame.refl (s : MemServ) : Frame s s :=
  ⟨.refl s, rfl, fun _ => rfl, rfl, fun _ => rfl⟩

theorem Frame.trans (h : Frame s s') (h' : Frame s' s'') : Frame s s'' :=
  ⟨h.toKeepsDspaces.trans h'.toKeepsDspaces, h'.pidMax.trans h.pidMax,
    fun pid => (h'.pcbs pid).trans (h.pcbs pid), h'.windowPool.trans h.windowPool,
    fun wID => (h'.windows wID).trans (h.windows wID)⟩

theorem Frame.setRef (hID : s.dspaceList.table ID = some dspace) (n : Nat) :
    Frame s (s.setRef ID dspace n) := by
  refine ⟨⟨rfl, fun i => ?_, rfl, rfl⟩, rfl, fun _ => rfl, rfl, fun _ => rfl⟩
  show (Function.update s.dspaceList.table ID (some { dspace with ref := n }) i).map _ = _
  by_cases hi : i = ID
  · subst hi
    simp [hID]
  · rw [Function.update_of_ne hi]

theorem Frame.setWindow (hwindow : s.windowList.table wID = some window) :
    Frame s (s.setWindow wID window') := by
  refine ⟨⟨rfl, fun _ => rfl, rfl, rfl⟩, rfl, fun _ => rfl, rfl, fun i => ?_⟩
  show (Function.update s.windowList.table wID (some window') i).isSome = _
  by_cases hi : i = wID
  · subst hi
    simp [hwindow]
  · rw [Function.update_of_ne hi]

theorem Frame.setPcb (hpcb : s.pcbs pid = some pcb) : Frame s (s.setPcb pid pcb') := by
  refine ⟨⟨rfl, fun _ => rfl, rfl, rfl⟩, rfl, fun i => ?_, rfl, fun _ => rfl⟩
  show (Function.update s.pcbs pid (some pcb') i).isSome = _
  by_cases hi : i = pid
  · subst hi
    simp [hpcb]
  · rw [Function.update_of_ne hi]

/-- What keeps the tables and the counts keeps the invariant. -/
theorem Ok.of_frame (h : s.Ok) (hf : Frame s s')
    (hcounted : RefCounted (slots s.pidMax) s'.count s'.held) : s'.Ok := by
  have hdspace : ∀ ID dspace', s'.dspaceList.table ID = some dspace' →
      ∃ dspace, s.dspaceList.table ID = some dspace ∧ dspace'.serial = dspace.serial := by
    intro ID dspace' hID
    have hserial := hf.serials ID
    rw [hID, Option.map_some] at hserial
    obtain ⟨dspace, hdspace, heq⟩ := Option.map_eq_some_iff.1 hserial.symm
    exact ⟨dspace, hdspace, heq.symm⟩
  have hwindow : ∀ wID window', s'.windowList.table wID = some window' →
      ∃ window, s.windowList.table wID = some window := by
    intro wID window' hwID
    rw [← Option.isSome_iff_exists, ← hf.windows, hwID]
    rfl
  refine ⟨⟨hf.pool ▸ h.dspaces.pool, fun ID => ?_⟩, hf.pool ▸ h.dspaceRange,
    fun ID dspace' hID => ?_, fun ID dspace' hID => ?_,
    ⟨hf.windowPool ▸ h.windows.pool, fun wID => ?_⟩, hf.windowPool ▸ h.windowRange,
    fun wID window' hwID => ?_, fun pid hpcb => ?_, hf.pidMax ▸ hcounted⟩
  · rw [hf.pool, ← h.dspaces.live, ← Option.isSome_map (f := LiveDspace.serial), hf.serials,
      Option.isSome_map]
  · obtain ⟨dspace, hdspace, _⟩ := hdspace ID dspace' hID
    exact h.dspaceLt ID dspace hdspace
  · obtain ⟨dspace, hdspace, heq⟩ := hdspace ID dspace' hID
    rw [heq, hf.created]
    exact h.fresh ID dspace hdspace
  · rw [hf.windowPool, ← h.windows.live, hf.windows]
  · obtain ⟨window, hwindow⟩ := hwindow wID window' hwID
    exact h.windowLt wID window hwindow
  · rw [hf.pcbs] at hpcb
    rw [hf.pidMax]
    exact h.pids pid hpcb

/-- So does what changes neither the counts nor the slots. -/
theorem Ok.of_frame_of_held (h : s.Ok) (hf : Frame s s') (hcount : s'.count = s.count)
    (hheld : s'.held = s.held) : s'.Ok := by
  refine h.of_frame hf ?_
  rw [hcount, hheld]
  exact h.counted

end Tables

/-! ## Dropping and taking references -/

section Refs

variable {s s' s'' : MemServ} {ID wID pid : Nat} {p : DspacePtr} {window : MemWindow} {pcb : MemPcb}
  {slot : Slot}

/-- What a call makes of a state: the invariant and the tables are kept, and slots are at most
emptied. -/
structure Keeps (s s' : MemServ) : Prop where
  ok : s'.Ok
  frame : Frame s s'
  releases : ∀ slot p, s'.held slot = some p → s.held slot = some p

theorem Keeps.refl (h : s.Ok) : Keeps s s := ⟨h, .refl s, fun _ _ hp => hp⟩

theorem Keeps.trans (h : Keeps s s') (h' : Keeps s' s'') : Keeps s s'' :=
  ⟨h'.ok, h.frame.trans h'.frame, fun slot p hp => h.releases slot p (h'.releases slot p hp)⟩

theorem Ok.dropRef (h : s.Ok) (hslot : s.held slot = some p) :
    ∃ dspace, s.dspaceList.table p.ID = some dspace ∧ dspace.serial = p.serial ∧
      s.deref p = .ok dspace ∧ s.count p = some (dspace.ref - 1 + 1) ∧
      s.dropRef p = .ok (s.setRef p.ID dspace (dspace.ref - 1)) := by
  obtain ⟨n, hn⟩ := h.counted.count_of_held hslot
  obtain ⟨dspace, hdspace, hserial, href⟩ := count_eq_some.1 hn
  have hderef : s.deref p = .ok dspace := by
    rw [deref, hdspace]
    exact if_pos hserial
  refine ⟨dspace, hdspace, hserial, hderef, by rw [hn]; congr 1; omega, ?_⟩
  rw [MemServ.dropRef, hderef]
  show s.ramDspaceUnref p.ID = _
  rw [ramDspaceUnref, h.ramDspaceGet_eq, hdspace]
  simp only
  rw [if_neg (by omega), if_neg (by omega)]

theorem Ok.drop (h : s.Ok) (hslot : s.held slot = some p) {dspace : LiveDspace}
    (hdspace : s.dspaceList.table p.ID = some dspace) (hserial : dspace.serial = p.serial)
    (hcount : s.count p = some (dspace.ref - 1 + 1))
    (hf : Frame (s.setRef p.ID dspace (dspace.ref - 1)) s')
    (hcount' : s'.count = (s.setRef p.ID dspace (dspace.ref - 1)).count)
    (hheld : s'.held = Function.update s.held slot none) : Keeps s s' := by
  have hframe : Frame s s' := (Frame.setRef hdspace _).trans hf
  refine ⟨h.of_frame hframe ?_, hframe, fun slot' q hq => ?_⟩
  · rw [hcount', hheld, count_setRef hdspace, hserial]
    exact h.counted.drop hslot hcount
  · rw [hheld] at hq
    by_cases hne : slot' = slot
    · subst hne
      simp at hq
    · rwa [Function.update_of_ne hne] at hq

theorem Ok.take (h : s.Ok) (p : DspacePtr) (hslot : slot ∈ slots s.pidMax)
    (hfree : s.held slot = none) {dspace : LiveDspace}
    (hdspace : s.dspaceList.table p.ID = some dspace)
    (hserial : dspace.serial = p.serial)
    (hf : Frame (s.setRef p.ID dspace (dspace.ref + 1)) s')
    (hcount' : s'.count = (s.setRef p.ID dspace (dspace.ref + 1)).count)
    (hheld : s'.held = Function.update s.held slot (some p)) : s'.Ok ∧ Frame s s' := by
  have hframe : Frame s s' := (Frame.setRef hdspace _).trans hf
  refine ⟨h.of_frame hframe ?_, hframe⟩
  rw [hcount', hheld, count_setRef hdspace, hserial]
  exact h.counted.take hslot hfree (count_eq_some.2 ⟨dspace, hdspace, hserial, rfl⟩)

theorem Ok.ramDspaceRef (h : s.Ok) {dspace : LiveDspace}
    (hdspace : s.dspaceList.table ID = some dspace) :
    s.ramDspaceRef ID = .ok (s.setRef ID dspace (dspace.ref + 1)) := by
  have hcount : s.count ⟨ID, dspace.serial⟩ = some dspace.ref :=
    count_eq_some.2 ⟨dspace, hdspace, rfl, rfl⟩
  have hpos := h.counted.count_eq _ _ hcount
  rw [MemServ.ramDspaceRef, h.ramDspaceGet_eq, hdspace]
  exact if_neg (by omega)

theorem mem_slots_window (hlt : wID < wMaxWindows) (pidMax : Nat) :
    .window wID ∈ slots pidMax := by
  simp [slots, hlt]

theorem mem_slots_param {pidMax : Nat} (hlt : pid < pidMax) : .param pid ∈ slots pidMax := by
  simp [slots, hlt]

theorem mem_slots_notification {pidMax : Nat} (hlt : pid < pidMax) :
    .notification pid ∈ slots pidMax := by
  simp [slots, hlt]

/-! ## Windows -/

/-- `window_switch_mode` empties the slot of the window. -/
theorem windowSwitchMode_spec (h : s.Ok) (hwindow : s.windowList.table wID = some window)
    (mode : WindowMode) :
    ∃ s', s.windowSwitchMode wID window mode = .ok s' ∧ Keeps s s' ∧
      s'.held (.window wID) = none ∧ (s'.windowList.table wID).isSome := by
  have hset : ∀ t : MemServ, (t.setWindow wID { mode := mode }).held (.window wID) = none ∧
      ((t.setWindow wID { mode := mode }).windowList.table wID).isSome := by
    intro t
    constructor
    · rw [held_setWindow, Function.update_self]
    · simp [setWindow, Coat.set]
  rw [windowSwitchMode]
  cases hram : window.ramDataspace with
  | none =>
      have hheld : (s.setWindow wID { mode := mode }).held = s.held := by
        rw [held_setWindow, Function.update_eq_self_iff]
        simp [held, hwindow, hram]
      have hframe : Frame s (s.setWindow wID { mode := mode }) := .setWindow hwindow
      exact ⟨_, rfl, ⟨h.of_frame_of_held hframe rfl hheld, hframe,
        fun slot q hq => congrFun hheld slot ▸ hq⟩, hset s⟩
  | some p =>
      have hslot : s.held (.window wID) = some p := by simp [held, hwindow, hram]
      obtain ⟨dspace, hdspace, hserial, _, hcount, hdrop⟩ := h.dropRef hslot
      simp only [hdrop]
      refine ⟨_, rfl, h.drop hslot hdspace hserial hcount ?_ rfl ?_, hset _⟩
      · exact Frame.setWindow hwindow
      · exact held_setWindow _ _ _

theorem Frame.dspace (hf : Frame s s') {dspace : LiveDspace}
    (hdspace : s.dspaceList.table ID = some dspace) :
    ∃ dspace', s'.dspaceList.table ID = some dspace' ∧ dspace'.serial = dspace.serial := by
  have hserial := hf.serials ID
  rw [hdspace, Option.map_some] at hserial
  exact Option.map_eq_some_iff.1 hserial

theorem wSetAnonDspace_spec (h : s.Ok) (hwindow : s.windowList.table wID = some window)
    {dspace : LiveDspace} (hdspace : s.dspaceList.table ID = some dspace) (offset : Nat) :
    ∃ s', s.wSetAnonDspace wID window (some ⟨ID, dspace.serial⟩) offset = .ok s' ∧ s'.Ok ∧
      Frame s s' := by
  obtain ⟨t, ht, hkeeps, hfree, hsome⟩ := windowSwitchMode_spec h hwindow .anonymous
  obtain ⟨window', hwindow'⟩ := Option.isSome_iff_exists.1 hsome
  obtain ⟨dspace', hdspace', hserial⟩ := hkeeps.frame.dspace hdspace
  let new : MemWindow :=
    { mode := .anonymous, ramDataspace := some ⟨ID, dspace.serial⟩, ramDataspaceOffset := offset }
  have hlt := h.windowLt wID window hwindow
  have href : (t.setWindow wID new).ramDspaceRef ID =
      .ok ((t.setWindow wID new).setRef ID dspace' (dspace'.ref + 1)) := by
    have hcount : t.count ⟨ID, dspace'.serial⟩ = some dspace'.ref :=
      count_eq_some.2 ⟨dspace', hdspace', rfl, rfl⟩
    have hpos := hkeeps.ok.counted.count_eq _ _ hcount
    have hget : (t.setWindow wID new).ramDspaceGet ID = some dspace' :=
      (hkeeps.ok.ramDspaceGet_eq ID).trans hdspace'
    rw [MemServ.ramDspaceRef, hget]
    exact if_neg (by omega)
  have hframe : Frame (t.setRef ID dspace' (dspace'.ref + 1))
      ((t.setWindow wID new).setRef ID dspace' (dspace'.ref + 1)) := Frame.setWindow hwindow'
  obtain ⟨hok, hframe'⟩ := hkeeps.ok.take ⟨ID, dspace.serial⟩ (mem_slots_window hlt _) hfree
    hdspace' hserial hframe rfl (held_setWindow t wID new)
  refine ⟨_, ?_, hok, hkeeps.frame.trans hframe'⟩
  simp only [wSetAnonDspace, ht]
  exact href

theorem wSetPagerEndpoint_spec (h : s.Ok) (hwindow : s.windowList.table wID = some window)
    (endpoint pid : Nat) :
    ∃ s', s.wSetPagerEndpoint wID window endpoint pid = .ok s' ∧ s'.Ok ∧ Frame s s' := by
  rw [wSetPagerEndpoint]
  split_ifs with hendpoint
  · obtain ⟨s', hs', hkeeps, _⟩ := windowSwitchMode_spec h hwindow .empty
    exact ⟨s', hs', hkeeps.ok, hkeeps.frame⟩
  · obtain ⟨t, ht, hkeeps, hnone, hsome⟩ := windowSwitchMode_spec h hwindow .pager
    obtain ⟨window', hwindow'⟩ := Option.isSome_iff_exists.1 hsome
    let new : MemWindow := { mode := .pager, pager := endpoint, pagerPID := pid }
    have hframe : Frame t (t.setWindow wID new) := .setWindow hwindow'
    have hheld : (t.setWindow wID new).held = t.held := by
      rw [held_setWindow, Function.update_eq_self_iff]
      exact hnone.symm
    refine ⟨t.setWindow wID new, ?_, hkeeps.ok.of_frame_of_held hframe rfl hheld,
      hkeeps.frame.trans hframe⟩
    rw [ht]
    rfl

/-- The slot is not on the dataspace with the id. -/
def Off (ID : Nat) (slot : Slot) (s : MemServ) : Prop := ∀ p, s.held slot = some p → p.ID ≠ ID

theorem Off.keeps (h : Off ID slot s) (hkeeps : Keeps s s') : Off ID slot s' :=
  fun p hp => h p (hkeeps.releases slot p hp)

theorem Off.of_none (h : s.held slot = none) : Off ID slot s := fun p hp => by
  rw [h] at hp
  cases hp

/-- Releasing the pointer of a slot takes the slot off the dataspace. -/
theorem purge_spec (h : s.Ok) {ptr : Option DspacePtr} {release : Except Failure MemServ}
    (hptr : s.held slot = ptr)
    (hrelease : ∃ s', release = .ok s' ∧ Keeps s s' ∧ s'.held slot = none) (ID : Nat) :
    ∃ s', s.purge ID ptr release = .ok s' ∧ Keeps s s' ∧ Off ID slot s' := by
  cases ptr with
  | none => exact ⟨s, rfl, .refl h, .of_none hptr⟩
  | some p =>
      obtain ⟨_, _, _, hderef, _⟩ := h.dropRef hptr
      have hpurge : s.purge ID (some p) release = if p.ID = ID then release else .ok s := by
        simp only [purge, hderef]
        rfl
      rw [hpurge]
      split_ifs with hID
      · obtain ⟨s', hs', hkeeps, hnone⟩ := hrelease
        exact ⟨s', hs', hkeeps, .of_none hnone⟩
      · refine ⟨s, rfl, .refl h, fun q hq => ?_⟩
        obtain rfl := Option.some.inj (hptr.symm.trans hq)
        exact hID

theorem purgeWindow_spec (ID : Nat) (s : MemServ) (wID : Nat) (h : s.Ok) :
    ∃ s', purgeWindow ID s wID = .ok s' ∧ Keeps s s' ∧ Off ID (.window wID) s' := by
  rw [purgeWindow, h.wGetWindow_eq]
  cases hwindow : s.windowList.table wID with
  | none => exact ⟨s, rfl, .refl h, .of_none (by simp [held, hwindow])⟩
  | some window =>
      obtain ⟨s', hs', hkeeps, hnone, _⟩ := windowSwitchMode_spec h hwindow .empty
      exact purge_spec h (by simp [held, hwindow]) ⟨s', hs', hkeeps, hnone⟩ ID

/-! ## The buffers of processes -/

theorem procSetParambuffer_none (h : s.Ok) (hpcb : s.pcbs pid = some pcb) :
    ∃ s', s.procSetParambuffer pid pcb none = .ok s' ∧ Keeps s s' ∧
      s'.pcbs pid = some { pcb with paramBuffer := none } ∧ s'.held (.param pid) = none := by
  rw [procSetParambuffer]
  cases hparam : pcb.paramBuffer with
  | none =>
      refine ⟨s, if_pos rfl, .refl h, ?_, by simp [held, hpcb, hparam]⟩
      rw [hpcb, ← hparam]
  | some p =>
      have hslot : s.held (.param pid) = some p := by simp [held, hpcb, hparam]
      obtain ⟨dspace, hdspace, hserial, _, hcount, hdrop⟩ := h.dropRef hslot
      rw [if_neg (by simp)]
      simp only [hdrop]
      refine ⟨_, rfl, h.drop hslot hdspace hserial hcount ?_ rfl ?_, ?_, ?_⟩
      · exact Frame.setPcb hpcb
      · exact held_setParam hpcb none
      · simp [setPcb]
      · simp [held, setPcb]

theorem rbDelete_spec (h : s.Ok) (hpcb : s.pcbs pid = some pcb) :
    ∃ s', s.rbDelete pid pcb = .ok s' ∧ Keeps s s' ∧
      s'.pcbs pid = some { pcb with notificationBuffer := none } ∧
      s'.held (.notification pid) = none ∧ s'.held (.param pid) = s.held (.param pid) := by
  rw [rbDelete]
  cases hnotif : pcb.notificationBuffer with
  | none =>
      refine ⟨s, rfl, .refl h, ?_, by simp [held, hpcb, hnotif], rfl⟩
      rw [hpcb, ← hnotif]
  | some p =>
      have hslot : s.held (.notification pid) = some p := by simp [held, hpcb, hnotif]
      obtain ⟨dspace, hdspace, hserial, _, hcount, hdrop⟩ := h.dropRef hslot
      simp only [hdrop]
      refine ⟨_, rfl, h.drop hslot hdspace hserial hcount ?_ rfl ?_, ?_, ?_, ?_⟩
      · exact Frame.setPcb hpcb
      · exact held_setNotification hpcb none
      · simp [setPcb]
      · simp [held, setPcb]
      · simp [held, setPcb, hpcb]

theorem procSetParambuffer_some (h : s.Ok) (hpcb : s.pcbs pid = some pcb) {dspace : LiveDspace}
    (hdspace : s.dspaceList.table ID = some dspace) :
    ∃ s', s.procSetParambuffer pid pcb (some ⟨ID, dspace.serial⟩) = .ok s' ∧ s'.Ok ∧
      Frame s s' := by
  by_cases hsame : pcb.paramBuffer = some ⟨ID, dspace.serial⟩
  · exact ⟨s, if_pos hsame, h, .refl s⟩
  · -- first the old buffer is dropped, then the new one taken
    obtain ⟨t, ht, hkeeps, hpcb', hfree⟩ := procSetParambuffer_none h hpcb
    obtain ⟨dspace', hdspace', hserial⟩ := hkeeps.frame.dspace hdspace
    have hpos := (h.pids pid (by rw [hpcb]; rfl)).2
    have href := hkeeps.ok.ramDspaceRef hdspace'
    let u := t.setRef ID dspace' (dspace'.ref + 1)
    have hframe : Frame u (u.setPcb pid { pcb with paramBuffer := some ⟨ID, dspace.serial⟩ }) :=
      Frame.setPcb hpcb'
    obtain ⟨hok, hframe'⟩ := hkeeps.ok.take ⟨ID, dspace.serial⟩
      (mem_slots_param (hkeeps.frame.pidMax ▸ hpos)) hfree hdspace' hserial hframe rfl
      (held_setParam hpcb' (some ⟨ID, dspace.serial⟩))
    refine ⟨_, ?_, hok, hkeeps.frame.trans hframe'⟩
    rw [procSetParambuffer, if_neg hsame]
    cases hparam : pcb.paramBuffer with
    | none =>
        rw [procSetParambuffer, if_pos hparam] at ht
        obtain rfl := Except.ok.inj ht
        have hset : s.setPcb pid { pcb with paramBuffer := none } = s := by
          rw [setPcb, ← hpcb', Function.update_eq_self]
        show (do
          let s ← (s.setPcb pid { pcb with paramBuffer := none }).ramDspaceRef ID
          return s.setPcb pid { pcb with paramBuffer := some ⟨ID, dspace.serial⟩ }) = _
        rw [hset, href]
        rfl
    | some p =>
        rw [procSetParambuffer, hparam, if_neg (by simp)] at ht
        obtain ⟨v, hv, hvt⟩ := bind_eq_ok_iff.1 ht
        obtain rfl := Except.ok.inj hvt
        simp only [hv]
        show (do
          let s ← (v.setPcb pid { pcb with paramBuffer := none }).ramDspaceRef ID
          return s.setPcb pid { pcb with paramBuffer := some ⟨ID, dspace.serial⟩ }) = _
        rw [href]
        rfl

theorem procSetNotificationbuffer_spec (h : s.Ok) (hpcb : s.pcbs pid = some pcb)
    {dspace : LiveDspace} (hdspace : s.dspaceList.table ID = some dspace) (memory : Bool) :
    ∃ s', s.procSetNotificationbuffer pid pcb ⟨ID, dspace.serial⟩ memory = .ok s' ∧ s'.Ok ∧
      Frame s s' := by
  obtain ⟨t, ht, hkeeps, hpcb', hfree, _⟩ := rbDelete_spec h hpcb
  obtain ⟨dspace', hdspace', hserial⟩ := hkeeps.frame.dspace hdspace
  have hpos := (h.pids pid (by rw [hpcb]; rfl)).2
  simp only [procSetNotificationbuffer, ht]
  cases memory with
  | false => exact ⟨t, rfl, hkeeps.ok, hkeeps.frame⟩
  | true =>
      have href := hkeeps.ok.ramDspaceRef hdspace'
      let u := t.setRef ID dspace' (dspace'.ref + 1)
      have hframe : Frame u
          (u.setPcb pid { pcb with notificationBuffer := some ⟨ID, dspace.serial⟩ }) :=
        Frame.setPcb hpcb'
      obtain ⟨hok, hframe'⟩ := hkeeps.ok.take ⟨ID, dspace.serial⟩
        (mem_slots_notification (hkeeps.frame.pidMax ▸ hpos)) hfree hdspace' hserial hframe rfl
        (held_setNotification hpcb' (some ⟨ID, dspace.serial⟩))
      refine ⟨_, ?_, hok, hkeeps.frame.trans hframe'⟩
      show (do
        let s ← t.ramDspaceRef ID
        return s.setPcb pid { pcb with notificationBuffer := some ⟨ID, dspace.serial⟩ }) = _
      rw [href]
      rfl

theorem procDspaceDeleteCallback_spec (ID : Nat) (s : MemServ) (pid : Nat) (h : s.Ok) :
    ∃ s', procDspaceDeleteCallback ID s pid = .ok s' ∧ Keeps s s' ∧
      (Off ID (.param pid) s' ∧ Off ID (.notification pid) s') := by
  have hparam : ∃ t, purgeParam ID pid s = .ok t ∧ Keeps s t ∧ Off ID (.param pid) t := by
    rw [purgeParam]
    cases hpcb : s.pcbs pid with
    | none => exact ⟨s, rfl, .refl h, .of_none (by simp [held, hpcb])⟩
    | some pcb =>
        obtain ⟨t, ht, hkeeps, _, hnone⟩ := procSetParambuffer_none h hpcb
        exact purge_spec h (by simp [held, hpcb]) ⟨t, ht, hkeeps, hnone⟩ ID
  obtain ⟨t, ht, hkeeps, hoff⟩ := hparam
  have hnotification : ∃ s', purgeNotification ID pid t = .ok s' ∧ Keeps t s' ∧
      Off ID (.notification pid) s' := by
    rw [purgeNotification]
    cases hpcb : t.pcbs pid with
    | none => exact ⟨t, rfl, .refl hkeeps.ok, .of_none (by simp [held, hpcb])⟩
    | some pcb =>
        obtain ⟨s', hs', hkeeps', _, hnone, _⟩ := rbDelete_spec hkeeps.ok hpcb
        exact purge_spec hkeeps.ok (by simp [held, hpcb]) ⟨s', hs', hkeeps', hnone⟩ ID
  obtain ⟨s', hs', hkeeps', hoff'⟩ := hnotification
  refine ⟨s', ?_, hkeeps.trans hkeeps', hoff.keeps hkeeps', hoff'⟩
  simp only [procDspaceDeleteCallback, ht]
  exact hs'

/-! ## The end of a dataspace -/

/-- Without anything on it, a dataspace has one reference, and with that it goes. -/
theorem Ok.ramDspaceUnref_last (h : s.Ok) {dspace : LiveDspace}
    (hdspace : s.dspaceList.table ID = some dspace) (hoff : ∀ slot, Off ID slot s) :
    ∃ s', s.ramDspaceUnref ID = .ok s' ∧ s'.Ok ∧ s'.dspaceList.table ID = none ∧
      s'.sharedDspace = s.sharedDspace ∧
      ∀ p, (s.count p).isSome → p.ID ≠ ID → (s'.count p).isSome := by
  have hfree : ∀ slot, s.held slot ≠ some ⟨ID, dspace.serial⟩ := fun slot hslot =>
    hoff slot _ hslot rfl
  have hcount : s.count ⟨ID, dspace.serial⟩ = some dspace.ref :=
    count_eq_some.2 ⟨dspace, hdspace, rfl, rfl⟩
  have href : dspace.ref = 1 := h.counted.count_of_free hfree hcount
  have hnone : windowIds.any (s.onDspace ID) = false := by
    rw [List.any_eq_false]
    intro wID _
    rw [onDspace, h.wGetWindow_eq]
    cases hwindow : s.windowList.table wID with
    | none => simp
    | some window =>
        cases hram : window.ramDataspace with
        | none => simp [hram]
        | some p => simpa [hram] using hoff (.window wID) p (by simp [held, hwindow, hram])
  let t : MemServ := { s with dspaceList := s.dspaceList.remove ID }
  have htable : ∀ i, t.dspaceList.table i = if i = ID then none else s.dspaceList.table i :=
    fun i => Function.update_apply ..
  have hcount' : t.count = Function.update s.count ⟨ID, dspace.serial⟩ none := by
    funext q
    rw [count, htable]
    by_cases hq : q = ⟨ID, dspace.serial⟩
    · subst hq
      simp
    · rw [Function.update_of_ne hq, count]
      split_ifs with hID
      · have hne : dspace.serial ≠ q.serial := by
          rintro heq
          exact hq (by rw [← hID, heq])
        rw [hID, hdspace]
        simp [hne]
      · rfl
  obtain ⟨hremove, hstart, hstop⟩ := h.dspaces.remove hdspace
  refine ⟨t, ?_, ?_, ?_, rfl, fun p hp hID => ?_⟩
  · rw [ramDspaceUnref, h.ramDspaceGet_eq, hdspace]
    simp only
    rw [if_neg (by omega), if_pos href, ramDspaceOatDelete, hnone]
    rfl
  · refine ⟨hremove, ⟨hstart.trans h.dspaceRange.1, hstop.trans h.dspaceRange.2⟩,
      fun i d hi => ?_, fun i d hi => ?_, h.windows, h.windowRange, h.windowLt, h.pids, ?_⟩
    · rw [htable] at hi
      split_ifs at hi
      exact h.dspaceLt i d hi
    · rw [htable] at hi
      split_ifs at hi
      exact h.fresh i d hi
    · rw [hcount']
      exact h.counted.destroy hfree
  · rw [htable, if_pos rfl]
  · rw [hcount', Function.update_of_ne]
    · exact hp
    · rintro rfl
      exact hID rfl

/-- **`data_close` destroys the dataspace**, and no other. -/
theorem dataCloseHandler_spec (h : s.Ok) {dspace : LiveDspace}
    (hdspace : s.dspaceList.table ID = some dspace) :
    ∃ s', s.dataCloseHandler ID = .ok s' ∧ s'.Ok ∧ s'.dspaceList.table ID = none ∧
      s'.sharedDspace = s.sharedDspace ∧
      ∀ p, (s.count p).isSome → p.ID ≠ ID → (s'.count p).isSome := by
  obtain ⟨t, ht, hokt, hkeeps, hoff⟩ := foldlM_rounds (I := Ok) (R := Keeps)
    (Q := fun wID => Off ID (.window wID)) (fun _ => .refl) (fun _ _ _ => .trans)
    (fun s wID hs => (purgeWindow_spec ID s wID hs).imp fun _ ⟨h1, h2, h3⟩ => ⟨h1, h2.ok, h2, h3⟩)
    (fun _ _ _ => .keeps) windowIds h
  obtain ⟨u, hu, hoku, hkeeps', hoff'⟩ := foldlM_rounds (I := Ok) (R := Keeps)
    (Q := fun pid s => Off ID (.param pid) s ∧ Off ID (.notification pid) s) (fun _ => .refl)
    (fun _ _ _ => .trans)
    (fun s pid hs => (procDspaceDeleteCallback_spec ID s pid hs).imp
      fun _ ⟨h1, h2, h3⟩ => ⟨h1, h2.ok, h2, h3⟩)
    (fun _ _ _ hQ hR => ⟨hQ.1.keeps hR, hQ.2.keeps hR⟩) t.pids hokt
  have hframe := (hkeeps.trans hkeeps').frame
  obtain ⟨dspace', hdspace', _⟩ := hframe.dspace hdspace
  -- the loops go over every window and every process there is
  have hall : ∀ slot, Off ID slot u := by
    intro slot p hp
    cases slot with
    | window wID =>
        cases hwindow : u.windowList.table wID with
        | none => simp [held, hwindow] at hp
        | some window => exact (hoff wID (hoku.mem_windowIds hwindow)).keeps hkeeps' p hp
    | param pid =>
        cases hpcb : u.pcbs pid with
        | none => simp [held, hpcb] at hp
        | some pcb =>
            have hmem : pid ∈ t.pids := hokt.mem_pids (by rw [← hkeeps'.frame.pcbs, hpcb]; rfl)
            exact (hoff' pid hmem).1 p hp
    | notification pid =>
        cases hpcb : u.pcbs pid with
        | none => simp [held, hpcb] at hp
        | some pcb =>
            have hmem : pid ∈ t.pids := hokt.mem_pids (by rw [← hkeeps'.frame.pcbs, hpcb]; rfl)
            exact (hoff' pid hmem).2 p hp
  obtain ⟨s', hs', hok', hnone, hshared, hlive⟩ := hoku.ramDspaceUnref_last hdspace' hall
  refine ⟨s', ?_, hok', hnone, hshared.trans hframe.shared, fun p hp hID => ?_⟩
  · rw [dataCloseHandler, h.ramDspaceGet_eq, hdspace]
    simp only [wPurgeDspace, ht]
    show (do
      let s ← t.pids.foldlM (procDspaceDeleteCallback ID) t
      s.ramDspaceUnref ID) = _
    rw [hu]
    exact hs'
  · exact hlive p ((hframe.live_iff p).2 hp) hID

/-! ## The end of windows and processes -/

/-- The dataspaces stay, and slots are at most emptied. -/
structure Loses (s s' : MemServ) : Prop extends KeepsDspaces s s' where
  pidMax : s'.pidMax = s.pidMax
  releases : ∀ slot p, s'.held slot = some p → s.held slot = some p

theorem Loses.refl (s : MemServ) : Loses s s := ⟨.refl s, rfl, fun _ _ hp => hp⟩

theorem Loses.trans (h : Loses s s') (h' : Loses s' s'') : Loses s s'' :=
  ⟨h.toKeepsDspaces.trans h'.toKeepsDspaces, h'.pidMax.trans h.pidMax,
    fun slot p hp => h.releases slot p (h'.releases slot p hp)⟩

theorem Keeps.loses (h : Keeps s s') : Loses s s' :=
  ⟨h.frame.toKeepsDspaces, h.frame.pidMax, h.releases⟩

theorem wDeleteWindow_spec (s : MemServ) (wID : Nat) (h : s.Ok) :
    ∃ s', s.wDeleteWindow wID = .ok s' ∧ s'.Ok ∧ Loses s s' := by
  rw [wDeleteWindow]
  cases hdelete : s.windowList.toDelete wID with
  | none => exact ⟨s, rfl, h, .refl s⟩
  | some window =>
      have hwindow := Coat.table_of_toDelete hdelete
      obtain ⟨t, ht, hkeeps, hnone, hsome⟩ := windowSwitchMode_spec h hwindow .empty
      obtain ⟨window', hwindow'⟩ := Option.isSome_iff_exists.1 hsome
      have hok := hkeeps.ok
      obtain ⟨hremove, hstart, hstop⟩ := hok.windows.remove hwindow'
      let u : MemServ := { t with windowList := t.windowList.remove wID }
      have htable : ∀ i, u.windowList.table i = if i = wID then none else t.windowList.table i :=
        fun i => Function.update_apply ..
      have hheld : u.held = t.held := by
        funext slot
        cases slot with
        | window i =>
            by_cases hi : i = wID
            · subst hi
              rw [hnone, held, htable, if_pos rfl]
              rfl
            · rw [held, held, htable, if_neg hi]
        | param pid => rfl
        | notification pid => rfl
      refine ⟨u, by simp only [ht]; rfl, ⟨hok.dspaces, hok.dspaceRange, hok.dspaceLt, hok.fresh,
        hremove, ⟨hstart.trans hok.windowRange.1, hstop.trans hok.windowRange.2⟩,
        fun i w hi => ?_, hok.pids, ?_⟩, hkeeps.loses.trans ⟨⟨rfl, fun _ => rfl, rfl, rfl⟩, rfl,
        fun slot p hp => hheld ▸ hp⟩⟩
      · rw [htable] at hi
        split_ifs at hi
        exact hok.windowLt i w hi
      · rw [hheld]
        exact hok.counted

theorem procRelease_spec (h : s.Ok) (hpcb : s.pcbs pid = some pcb) :
    ∃ s', s.procRelease pid pcb = .ok s' ∧ s'.Ok ∧ KeepsDspaces s s' := by
  obtain ⟨t, ht, hkeeps, hpcb₁, hparam⟩ := procSetParambuffer_none h hpcb
  obtain ⟨u, hu, hkeeps', _, hnotif, hsame⟩ := rbDelete_spec hkeeps.ok hpcb₁
  obtain ⟨v, hv, hok, hloses, _⟩ := foldlM_rounds (I := Ok) (R := Loses) (Q := fun _ _ => True)
    (fun s _ => .refl s) (fun _ _ _ => .trans)
    (fun s wID hs => (wDeleteWindow_spec s wID hs).imp fun _ ⟨h1, h2, h3⟩ => ⟨h1, h2, h3, trivial⟩)
    (fun _ _ _ _ _ => trivial) pcb.windows hkeeps'.ok
  -- by now the process refers to nothing
  have hempty : ∀ slot, u.held slot = none → v.held slot = none := by
    intro slot hslot
    cases hp : v.held slot with
    | none => rfl
    | some p => exact absurd (hslot.symm.trans (hloses.releases slot p hp)) (by simp)
  let w : MemServ := { v with pcbs := Function.update v.pcbs pid none }
  have hheld : w.held = v.held := by
    funext slot
    cases slot with
    | window i => rfl
    | param i =>
        by_cases hi : i = pid
        · subst hi
          rw [hempty _ (hsame.trans hparam)]
          simp [w, held]
        · simp [w, held, hi]
    | notification i =>
        by_cases hi : i = pid
        · subst hi
          rw [hempty _ hnotif]
          simp [w, held]
        · simp [w, held, hi]
  refine ⟨w, ?_, ⟨hok.dspaces, hok.dspaceRange, hok.dspaceLt, hok.fresh, hok.windows,
    hok.windowRange, hok.windowLt, fun i hi => ?_, ?_⟩, ?_⟩
  · simp only [procRelease, ht]
    show (do
      let s ← t.rbDelete pid { pcb with paramBuffer := none }
      let s ← pcb.windows.foldlM wDeleteWindow s
      return { s with pcbs := Function.update s.pcbs pid none }) = _
    rw [hu]
    show (do
      let s ← pcb.windows.foldlM wDeleteWindow u
      return { s with pcbs := Function.update s.pcbs pid none }) = _
    rw [hv]
    rfl
  · refine hok.pids i ?_
    by_cases hip : i = pid
    · subst hip
      simp [w] at hi
    · simpa [w, hip] using hi
  · rw [hheld]
    exact hok.counted
  · exact ((hkeeps.trans hkeeps').frame.toKeepsDspaces.trans hloses.toKeepsDspaces).trans
      ⟨rfl, fun _ => rfl, rfl, rfl⟩

/-! ## New dataspaces, windows and processes -/

/-- Where there is an id and memory, `ram_dspace_create` adds a dataspace with one reference. -/
theorem ramDspaceCreate_spec (h : s.Ok) (size : Nat) {memory : Bool}
    (hleft : s.dspaceList.Left ramDataspaceMaxNumDataspace memory) :
    ∃ p s', s.ramDspaceCreate size memory = .ok (some p, s') ∧ s'.Ok ∧
      s'.sharedDspace = s.sharedDspace ∧ (∀ q, (s.count q).isSome → (s'.count q).isSome) ∧
      (∀ slot, Off p.ID slot s') ∧ (s'.count p).isSome ∧
      ∀ q, (s.count q).isSome → q.ID ≠ p.ID := by
  obtain ⟨⟨⟨ID, pool⟩, hpool, hlt⟩, rfl⟩ := hleft
  obtain ⟨t, halloc⟩ := h.dspaces.alloc_of_pool
    (fun _ => some ⟨ramDspaceOatCreate size, s.created⟩) hpool rfl
  obtain ⟨hok, htable, hfree, _, _, hstart, hstop⟩ := h.dspaces.of_alloc_some halloc
  let u : MemServ := { s with dspaceList := t, created := s.created + 1 }
  have hnew : s.count ⟨ID, s.created⟩ = none := by simp [count, hfree]
  have hcount : u.count = Function.update s.count ⟨ID, s.created⟩ (some 1) := by
    funext q
    simp only [u, count, htable]
    by_cases hq : q = ⟨ID, s.created⟩
    · subst hq
      simp [ramDspaceOatCreate]
    · rw [Function.update_of_ne hq]
      by_cases hID : q.ID = ID
      · have hne : s.created ≠ q.serial := by
          rintro heq
          exact hq (by rw [← hID, heq])
        simp [count, hID, hfree, hne]
      · simp [count, hID]
  have hother : ∀ q, (s.count q).isSome → q.ID ≠ ID := by
    rintro q hq rfl
    rw [count, hfree] at hq
    cases hq
  have hcases : ∀ i d, t.table i = some d → i = ID ∧ d.serial = s.created ∨
      s.dspaceList.table i = some d := by
    intro i d hi
    rw [htable] at hi
    by_cases hID : i = ID
    · subst hID
      rw [Function.update_self] at hi
      exact Or.inl ⟨rfl, by rw [← Option.some.inj hi]⟩
    · rw [Function.update_of_ne hID] at hi
      exact Or.inr hi
  have hoku : u.Ok := by
    refine ⟨hok, ⟨hstart.trans h.dspaceRange.1, hstop.trans h.dspaceRange.2⟩,
      fun i d hi => ?_, fun i d hi => ?_, h.windows, h.windowRange, h.windowLt, h.pids, ?_⟩
    · rcases hcases i d hi with ⟨rfl, _⟩ | hi
      · exact hlt
      · exact h.dspaceLt i d hi
    · rcases hcases i d hi with ⟨_, hserial⟩ | hi
      · rw [hserial]
        exact Nat.lt_succ_self _
      · exact Nat.lt_succ_of_lt (h.fresh i d hi)
    · rw [hcount]
      exact h.counted.create hnew
  refine ⟨⟨ID, s.created⟩, u, ?_, hoku, rfl, fun p hp => ?_, fun slot q hq => ?_, ?_, hother⟩
  · rw [ramDspaceCreate, ramDataspaceInvalidID]
    simp only [if_pos, h.dspaces.create_of_alloc_some halloc]
    rfl
  · rw [hcount, Function.update_of_ne]
    · exact hp
    · rintro rfl
      exact hother _ hp rfl
  · exact hother q (h.counted.live slot q hq)
  · rw [hcount, Function.update_self]
    rfl

theorem vsCreateWindow_spec (h : s.Ok) (pid : Nat) {accepted memory : Bool}
    (hleft : (s.pcbs pid).isSome → accepted = true → s.windowList.Left wMaxWindows memory) :
    ∃ s', s.vsCreateWindow pid accepted memory = .ok s' ∧ s'.Ok ∧ KeepsDspaces s s' := by
  rw [vsCreateWindow]
  cases hpcb : s.pcbs pid with
  | none => exact ⟨s, rfl, h, .refl s⟩
  | some pcb =>
      cases accepted with
      | false => exact ⟨s, rfl, h, .refl s⟩
      | true =>
          obtain ⟨⟨⟨wID, pool⟩, hpool, hlt⟩, rfl⟩ := hleft (by rw [hpcb]; rfl) rfl
          obtain ⟨t, halloc⟩ := h.windows.alloc_of_pool (fun _ => some {}) hpool rfl
          obtain ⟨hok, htable, hfree, _, _, hstart, hstop⟩ := h.windows.of_alloc_some halloc
          let u : MemServ := { s with windowList := t }.setPcb pid
            { pcb with windows := pcb.windows ++ [wID] }
          have hwindows : { s with windowList := t }.held = s.held := by
            funext slot
            cases slot with
            | window i =>
                simp only [held, htable]
                by_cases hi : i = wID
                · simp [hi, hfree]
                · simp [hi]
            | param i => rfl
            | notification i => rfl
          have hheld : u.held = s.held :=
            (held_setPcb_eq (by simp [held, hpcb]) (by simp [held, hpcb])).trans hwindows
          have hkeeps : KeepsDspaces s u := ⟨rfl, fun _ => rfl, rfl, rfl⟩
          refine ⟨u, ?_, ⟨h.dspaces, h.dspaceRange, h.dspaceLt, h.fresh, hok,
            ⟨hstart.trans h.windowRange.1, hstop.trans h.windowRange.2⟩,
            fun i w hi => ?_, fun i hi => ?_, ?_⟩, hkeeps⟩
          · simp only [if_pos, wInvalidWinid, h.windows.create_of_alloc_some halloc]
            rfl
          · by_cases hiw : i = wID
            · exact hiw ▸ hlt
            · have hi' : t.table i = some w := hi
              rw [htable, Function.update_of_ne hiw] at hi'
              exact h.windowLt i w hi'
          · refine h.pids i ?_
            by_cases hip : i = pid
            · rw [hip, hpcb]
              rfl
            · simpa [u, setPcb, hip] using hi
          · have hcounted := h.counted
            rw [← hheld] at hcounted
            exact hcounted

theorem vsDeleteWindow_spec (h : s.Ok) (pid wID : Nat) :
    ∃ s', s.vsDeleteWindow pid wID = .ok s' ∧ s'.Ok ∧ KeepsDspaces s s' := by
  rw [vsDeleteWindow]
  cases hpcb : s.pcbs pid with
  | none => exact ⟨s, rfl, h, .refl s⟩
  | some pcb =>
      simp only
      split_ifs with hmem
      · let t := s.setPcb pid { pcb with windows := pcb.windows.filter (· ≠ wID) }
        have hframe : Frame s t := .setPcb hpcb
        have hheld : t.held = s.held := held_setPcb_eq (by simp [held, hpcb]) (by simp [held, hpcb])
        obtain ⟨s', hs', hok', hloses⟩ :=
          wDeleteWindow_spec t wID (h.of_frame_of_held hframe rfl hheld)
        exact ⟨s', hs', hok', hframe.toKeepsDspaces.trans hloses.toKeepsDspaces⟩
      · exact ⟨s, rfl, h, .refl s⟩

theorem procNew_spec (h : s.Ok) (pid : Nat) :
    (s.procNew pid).Ok ∧ KeepsDspaces s (s.procNew pid) := by
  rw [procNew]
  split_ifs with hnew
  · obtain ⟨hpos, hlt, hnone⟩ := hnew
    have hheld : (s.setPcb pid {}).held = s.held :=
      held_setPcb_eq (by simp [held, hnone]) (by simp [held, hnone])
    refine ⟨⟨h.dspaces, h.dspaceRange, h.dspaceLt, h.fresh, h.windows, h.windowRange, h.windowLt,
      fun i hi => ?_, ?_⟩, ⟨rfl, fun _ => rfl, rfl, rfl⟩⟩
    · by_cases hip : i = pid
      · subst hip
        exact ⟨hpos, hlt⟩
      · exact h.pids i (by simpa [setPcb, hip] using hi)
    · rw [hheld]
      exact h.counted
  · exact ⟨h, .refl s⟩

end Refs

/-! ## Every call -/

/-- A call that does not close it leaves a dataspace alone. -/
def Survives (s s' : MemServ) : Prop :=
  s'.sharedDspace = s.sharedDspace ∧ ∀ p, (s.count p).isSome → (s'.count p).isSome

variable {s s' : MemServ}

theorem KeepsDspaces.survives (h : KeepsDspaces s s') : Survives s s' :=
  ⟨h.shared, fun p hp => (h.live_iff p).2 hp⟩

/-- A call returns, keeps the invariant and ends no dataspace. -/
def Serves (s : MemServ) (x : Except Failure MemServ) : Prop :=
  ∃ s', x = .ok s' ∧ s'.Ok ∧ Survives s s'

theorem Ok.serves (h : s.Ok) : Serves s (.ok s) :=
  ⟨s, rfl, h, (KeepsDspaces.refl s).survives⟩

theorem dataOpenHandler_spec (h : s.Ok) {size : Nat} {memory : Bool} {device : Option Bool}
    (hleft : TablesLeft s (.dataOpen size memory device)) :
    Serves s (s.dataOpenHandler size memory device) := by
  rw [dataOpenHandler]
  by_cases hsize : size = 0
  · rw [if_pos hsize]
    exact h.serves
  · rw [if_neg hsize]
    obtain ⟨p, t, hcreate, hok, hsame, hlive, hoff, hcount, hother⟩ :=
      ramDspaceCreate_spec h size (hleft hsize)
    simp only [hcreate]
    by_cases hdevice : device = some false
    · -- the dataspace that was just made ends again
      obtain ⟨n, hn⟩ := Option.isSome_iff_exists.1 hcount
      obtain ⟨dspace, hdspace, _⟩ := count_eq_some.1 hn
      obtain ⟨s', hs', hok', _, hsame', hlive'⟩ := hok.ramDspaceUnref_last hdspace hoff
      exact ⟨s', (if_pos hdevice).trans hs', hok', hsame'.trans hsame,
        fun q hq => hlive' q (hlive q hq) (hother q hq)⟩
    · exact ⟨t, if_neg hdevice, hok, hsame, hlive⟩

theorem dataDatamapHandler_spec (h : s.Ok) (ID wID offset : Nat) :
    Serves s (s.dataDatamapHandler ID wID offset) := by
  rw [dataDatamapHandler, h.wGetWindow_eq, h.ramDspaceGet_eq]
  cases hwindow : s.windowList.table wID with
  | none => exact h.serves
  | some window =>
      cases hdspace : s.dspaceList.table ID with
      | none => exact h.serves
      | some dspace =>
          simp only
          split_ifs with hoffset
          · exact h.serves
          · obtain ⟨s', hs', hok, hframe⟩ := wSetAnonDspace_spec h hwindow hdspace offset
            exact ⟨s', hs', hok, hframe.toKeepsDspaces.survives⟩

theorem dataDataunmapHandler_spec (h : s.Ok) (wID : Nat) :
    Serves s (s.dataDataunmapHandler wID) := by
  rw [dataDataunmapHandler, h.wGetWindow_eq]
  cases hwindow : s.windowList.table wID with
  | none => exact h.serves
  | some window =>
      simp only
      split_ifs with hmode
      · obtain ⟨s', hs', hkeeps, _⟩ := windowSwitchMode_spec h hwindow .empty
        exact ⟨s', hs', hkeeps.ok, hkeeps.frame.toKeepsDspaces.survives⟩
      · exact h.serves

theorem procSetParambufferHandler_spec (h : s.Ok) (pid : Nat) (ID : Option Nat) :
    Serves s (s.procSetParambufferHandler pid ID) := by
  rw [procSetParambufferHandler]
  cases hpcb : s.pcbs pid with
  | none => exact h.serves
  | some pcb =>
      cases ID with
      | none =>
          obtain ⟨s', hs', hkeeps, _⟩ := procSetParambuffer_none h hpcb
          exact ⟨s', hs', hkeeps.ok, hkeeps.frame.toKeepsDspaces.survives⟩
      | some ID =>
          simp only [h.ramDspaceGet_eq]
          cases hdspace : s.dspaceList.table ID with
          | none => exact h.serves
          | some dspace =>
              obtain ⟨s', hs', hok, hframe⟩ := procSetParambuffer_some h hpcb hdspace
              exact ⟨s', hs', hok, hframe.toKeepsDspaces.survives⟩

theorem procNotificationBufferHandler_spec (h : s.Ok) (pid ID : Nat) (memory : Bool) :
    Serves s (s.procNotificationBufferHandler pid ID memory) := by
  rw [procNotificationBufferHandler, h.ramDspaceGet_eq]
  cases hpcb : s.pcbs pid with
  | none => exact h.serves
  | some pcb =>
      cases hdspace : s.dspaceList.table ID with
      | none => exact h.serves
      | some dspace =>
          obtain ⟨s', hs', hok, hframe⟩ := procSetNotificationbuffer_spec h hpcb hdspace memory
          exact ⟨s', hs', hok, hframe.toKeepsDspaces.survives⟩

theorem procRegisterAsPagerHandler_spec (h : s.Ok) (wID endpoint pid : Nat) :
    Serves s (s.procRegisterAsPagerHandler wID endpoint pid) := by
  rw [procRegisterAsPagerHandler, h.wGetWindow_eq]
  cases hwindow : s.windowList.table wID with
  | none => exact h.serves
  | some window =>
      obtain ⟨s', hs', hok, hframe⟩ := wSetPagerEndpoint_spec h hwindow endpoint pid
      exact ⟨s', hs', hok, hframe.toKeepsDspaces.survives⟩

/-- **Every call** but the ones for the shared dataspace: it returns, keeps the invariant, and only
`data_close` ends a dataspace. -/
theorem memServStep_spec (h : s.Ok) {e : MemServEvent} (hleft : TablesLeft s e)
    (hshared : ∀ size memory, e ≠ .createSharedMem size memory) (hget : e ≠ .getSharedDspace) :
    ∃ s', memServStep s e = .ok s' ∧ s'.Ok ∧ ((∀ ID, e ≠ .dataClose ID) → Survives s s') := by
  have hserves : Serves s (memServStep s e) → ∃ s', memServStep s e = .ok s' ∧ s'.Ok ∧
      ((∀ ID, e ≠ .dataClose ID) → Survives s s') := fun ⟨s', hs', hok, hsurvives⟩ =>
    ⟨s', hs', hok, fun _ => hsurvives⟩
  cases e with
  | dataOpen size memory device => exact hserves (dataOpenHandler_spec h hleft)
  | dataClose ID =>
      rw [memServStep]
      cases hdspace : s.dspaceList.table ID with
      | none =>
          rw [dataCloseHandler, h.ramDspaceGet_eq, hdspace]
          exact ⟨s, rfl, h, fun hnot => absurd rfl (hnot ID)⟩
      | some dspace =>
          obtain ⟨s', hs', hok, _⟩ := dataCloseHandler_spec h hdspace
          exact ⟨s', hs', hok, fun hnot => absurd rfl (hnot ID)⟩
  | dataDatamap ID wID offset => exact hserves (dataDatamapHandler_spec h ID wID offset)
  | dataDataunmap wID => exact hserves (dataDataunmapHandler_spec h wID)
  | setParambuffer pid ID => exact hserves (procSetParambufferHandler_spec h pid ID)
  | notificationBuffer pid ID memory =>
      exact hserves (procNotificationBufferHandler_spec h pid ID memory)
  | registerAsPager wID endpoint pid =>
      exact hserves (procRegisterAsPagerHandler_spec h wID endpoint pid)
  | createWindow pid accepted memory =>
      obtain ⟨s', hs', hok, hkeeps⟩ := vsCreateWindow_spec h pid hleft
      exact hserves ⟨s', hs', hok, hkeeps.survives⟩
  | deleteWindow pid wID =>
      obtain ⟨s', hs', hok, hkeeps⟩ := vsDeleteWindow_spec h pid wID
      exact hserves ⟨s', hs', hok, hkeeps.survives⟩
  | newProcess pid =>
      obtain ⟨hok, hkeeps⟩ := procNew_spec h pid
      exact hserves ⟨_, rfl, hok, hkeeps.survives⟩
  | exit pid =>
      rw [memServStep]
      cases hpcb : s.pcbs pid with
      | none => exact ⟨s, rfl, h, fun _ => (KeepsDspaces.refl s).survives⟩
      | some pcb =>
          obtain ⟨s', hs', hok, hkeeps⟩ := procRelease_spec h hpcb
          exact ⟨s', hs', hok, fun _ => hkeeps.survives⟩
  | createSharedMem size memory => exact absurd rfl (hshared size memory)
  | getSharedDspace => exact absurd rfl hget

theorem memServStep_ok (h : s.Ok) {e : MemServEvent} (hleft : TablesLeft s e)
    (hs' : memServStep s e = .ok s') : s'.Ok := by
  by_cases hshared : ∃ size memory, e = .createSharedMem size memory
  · obtain ⟨size, memory, rfl⟩ := hshared
    obtain ⟨p, t, hcreate, hok, _⟩ := ramDspaceCreate_spec h size hleft
    rw [memServStep, createSharedMem, hcreate] at hs'
    obtain rfl := Except.ok.inj hs'
    exact ⟨hok.dspaces, hok.dspaceRange, hok.dspaceLt, hok.fresh, hok.windows, hok.windowRange,
      hok.windowLt, hok.pids, hok.counted⟩
  · by_cases hget : e = .getSharedDspace
    · subst hget
      obtain ⟨_, _, hs'⟩ := bind_eq_ok_iff.1 hs'
      exact Except.ok.inj hs' ▸ h
    · obtain ⟨t, ht, hok, _⟩ := memServStep_spec h hleft
        (fun size memory he => hshared ⟨size, memory, he⟩) hget
      exact Except.ok.inj (ht.symm.trans hs') ▸ hok

theorem Ok.init (pidMax : Nat) : (memServInit pidMax).Ok where
  dspaces := .init (by decide) (by decide)
  dspaceRange := ⟨rfl, rfl⟩
  dspaceLt := fun _ _ h => nomatch h
  fresh := fun _ _ h => nomatch h
  windows := .init (by decide) (by decide)
  windowRange := ⟨rfl, rfl⟩
  windowLt := fun _ _ h => nomatch h
  pids := fun _ h => nomatch h
  counted := by
    have hnone : ∀ slot, (memServInit pidMax).held slot = none := fun slot => by cases slot <;> rfl
    refine ⟨fun slot p hp => ?_, fun slot p hp => ?_, fun p n hn => nomatch hn⟩
    · rw [hnone] at hp
      cases hp
    · rw [hnone] at hp
      cases hp

/-! ## Whole runs -/

/-- The number of windows on a dataspace. -/
def windowRefs (s : MemServ) (p : DspacePtr) : Nat :=
  ((Finset.range wMaxWindows).filter fun wID => s.held (.window wID) = some p).card

/-- The number of processes whose parameter buffer it is. -/
def paramRefs (s : MemServ) (p : DspacePtr) : Nat :=
  ((Finset.range s.pidMax).filter fun pid => s.held (.param pid) = some p).card

/-- The number of notification buffers on it. -/
def notificationRefs (s : MemServ) (p : DspacePtr) : Nat :=
  ((Finset.range s.pidMax).filter fun pid => s.held (.notification pid) = some p).card

/-- The slots of the three kinds are counted one after the other. -/
theorem card_holders (s : MemServ) (p : DspacePtr) :
    (holders (slots s.pidMax) s.held p).card =
      s.windowRefs p + s.paramRefs p + s.notificationRefs p := by
  have himage : ∀ (f : Nat → Slot) (hf : Function.Injective f) (n : Nat),
      (((Finset.range n).image f).filter fun slot => s.held slot = some p).card =
        ((Finset.range n).filter fun i => s.held (f i) = some p).card := by
    intro f hf n
    rw [Finset.filter_image, Finset.card_image_of_injective _ hf]
  rw [holders, slots, Finset.filter_union, Finset.filter_union, Finset.card_union_of_disjoint,
    Finset.card_union_of_disjoint, himage _ (fun _ _ h => by injection h),
    himage _ (fun _ _ h => by injection h), himage _ (fun _ _ h => by injection h), windowRefs,
    paramRefs, notificationRefs, Nat.add_assoc]
  · refine Finset.disjoint_left.2 fun slot h h' => ?_
    obtain ⟨i, _, rfl⟩ := Finset.mem_image.1 (Finset.mem_filter.1 h).1
    simp at h'
  · refine Finset.disjoint_left.2 fun slot h h' => ?_
    obtain ⟨i, _, rfl⟩ := Finset.mem_image.1 (Finset.mem_filter.1 h).1
    simp at h'

/-- The counts are right and every reference is good. -/
structure RefCountsRight (s : MemServ) : Prop where
  ref_eq : ∀ ID dspace, s.dspaceList.table ID = some dspace →
    dspace.ref = 1 + s.windowRefs ⟨ID, dspace.serial⟩ + s.paramRefs ⟨ID, dspace.serial⟩ +
      s.notificationRefs ⟨ID, dspace.serial⟩
  live : ∀ slot p, s.held slot = some p → ∃ dspace, s.deref p = .ok dspace

theorem Ok.refCountsRight (h : s.Ok) : RefCountsRight s where
  ref_eq := by
    intro ID dspace hdspace
    have hcount : s.count ⟨ID, dspace.serial⟩ = some dspace.ref :=
      count_eq_some.2 ⟨dspace, hdspace, rfl, rfl⟩
    rw [h.counted.count_eq _ _ hcount, card_holders]
    omega
  live := by
    intro slot p hp
    obtain ⟨dspace, _, _, hderef, _⟩ := h.dropRef hp
    exact ⟨dspace, hderef⟩

end MemServ

theorem memServ_ok {pidMax : Nat} {evs : List MemServEvent} {s : MemServ}
    (hrun : Run memServStep TablesLeft (memServInit pidMax) evs s) : s.Ok :=
  hrun.invariant (.init pidMax) fun _ _ _ h hleft hu => MemServ.memServStep_ok h hleft hu

/-- **Reference counts.** In every reachable state they are right, every call but the ones for the
shared dataspace returns, and `data_close` destroys the dataspace. -/
theorem ref_counts {pidMax : Nat} {evs : List MemServEvent} {s : MemServ}
    (hrun : Run memServStep TablesLeft (memServInit pidMax) evs s) :
    s.RefCountsRight ∧
      (∀ e, TablesLeft s e → (∀ size memory, e ≠ .createSharedMem size memory) →
        e ≠ .getSharedDspace → ∃ s', memServStep s e = .ok s') ∧
      ∀ ID, (s.ramDspaceGet ID).isSome →
        ∃ s', memServStep s (.dataClose ID) = .ok s' ∧ s'.dspaceList.table ID = none := by
  have h := memServ_ok hrun
  refine ⟨h.refCountsRight, fun e hleft hshared hget => ?_, fun ID hID => ?_⟩
  · obtain ⟨s', hs', _⟩ := MemServ.memServStep_spec h hleft hshared hget
    exact ⟨s', hs'⟩
  · rw [h.ramDspaceGet_eq] at hID
    obtain ⟨dspace, hdspace⟩ := Option.isSome_iff_exists.1 hID
    obtain ⟨s', hs', _, hnone, _⟩ := MemServ.dataCloseHandler_spec h hdspace
    exact ⟨s', hs', hnone⟩

/-- A dataspace that is mapped, and is both buffers of a process. -/
def mappedDspace : List MemServEvent :=
  [.newProcess 1, .dataOpen 4096 true none, .createWindow 1 true true, .dataDatamap 1 1 0,
    .setParambuffer 1 (some 1), .notificationBuffer 1 1 true, .dataDatamap 1 1 0]

theorem ref_counts_mapped : ∃ s, Run memServStep TablesLeft (memServInit 4) mappedDspace s ∧
    (s.dspaceList.table 1).map (fun dspace => dspace.ref) = some 4 ∧ s.RefCountsRight ∧
    ∃ s', memServStep s (.dataClose 1) = .ok s' ∧ s'.dspaceList.table 1 = none := by
  obtain ⟨s, hrun, href, hget⟩ : ∃ s, Run memServStep TablesLeft (memServInit 4) mappedDspace s ∧
      (s.dspaceList.table 1).map (fun dspace => dspace.ref) = some 4 ∧
        (s.ramDspaceGet 1).isSome := Run.exists_of_exec (by decide +kernel)
  obtain ⟨hright, _, hclose⟩ := ref_counts hrun
  exact ⟨s, hrun, href, hright, hclose 1 hget⟩

/-! ## The shared dataspace -/

/-- `get_shared_dspace` returns the capability of the dataspace that was created. -/
def SharedServed (s : MemServ) : Prop :=
  ∀ p, s.sharedDspace = some p → s.getSharedDspaceHandler = .ok p.ID

/-- The call does not close the shared dataspace. -/
def LeavesShared (s : MemServ) (e : MemServEvent) : Prop :=
  ∀ p, s.sharedDspace = some p → e ≠ .dataClose p.ID

theorem sharedServed_iff {s : MemServ} :
    SharedServed s ↔ ∀ p, s.sharedDspace = some p → (s.count p).isSome := by
  refine forall_congr' fun p => imp_congr_right fun hp => ?_
  rw [MemServ.getSharedDspaceHandler, hp, MemServ.count_isSome]
  simp only [MemServ.deref]
  cases s.dspaceList.table p.ID with
  | none => simp [bind, Except.bind]
  | some dspace =>
      by_cases hserial : dspace.serial = p.serial
      · simp [hserial, bind, Except.bind, pure, Except.pure]
      · simp [hserial, bind, Except.bind]

/-- **The shared dataspace is served as long as nobody closes it.** -/
theorem shared_live_iff {pidMax : Nat} {evs : List MemServEvent} {s : MemServ}
    (hrun : Run memServStep TablesLeft (memServInit pidMax) evs s) :
    Steps memServStep (fun _ _ s' => SharedServed s') evs (memServInit pidMax) ↔
      Steps memServStep (fun s e _ => LeavesShared s e) evs (memServInit pidMax) := by
  refine hrun.steps_iff (I := MemServ.Ok) (.init pidMax) (fun _ h => nomatch h) ?_
  intro t e u hok hserved hleft hu
  refine ⟨MemServ.memServStep_ok hok hleft hu, ?_⟩
  have hlive := sharedServed_iff.1 hserved
  rw [sharedServed_iff]
  by_cases hclose : ∃ ID, e = .dataClose ID
  · obtain ⟨ID, rfl⟩ := hclose
    cases hdspace : t.dspaceList.table ID with
    | none =>
        -- there is no such dataspace, so it is not the shared one
        rw [memServStep, MemServ.dataCloseHandler, hok.ramDspaceGet_eq, hdspace] at hu
        obtain rfl := Except.ok.inj hu
        refine iff_of_true hlive fun p hp he => ?_
        injection he with he
        have hcount := hlive p hp
        rw [MemServ.count_isSome, ← he, hdspace] at hcount
        cases hcount
    | some dspace =>
        obtain ⟨u', hu', _, hnone, hshared, hkeeps⟩ := MemServ.dataCloseHandler_spec hok hdspace
        obtain rfl := Except.ok.inj (hu'.symm.trans hu)
        rw [hshared]
        constructor
        · intro hall p hp he
          injection he with he
          have hcount := hall p hp
          rw [MemServ.count_isSome, ← he, hnone] at hcount
          cases hcount
        · intro hleaves p hp
          exact hkeeps p (hlive p hp) fun heq => hleaves p hp (heq ▸ rfl)
  · refine iff_of_true (fun p hp => ?_) fun p _ he => hclose ⟨p.ID, he⟩
    by_cases hcreate : ∃ size memory, e = .createSharedMem size memory
    · obtain ⟨size, memory, rfl⟩ := hcreate
      obtain ⟨q, v, hcreate, _, _, _, _, hcount, _⟩ := MemServ.ramDspaceCreate_spec hok size hleft
      rw [memServStep, MemServ.createSharedMem, hcreate] at hu
      obtain rfl := Except.ok.inj hu
      obtain rfl := Option.some.inj hp
      exact hcount
    · by_cases hget : e = .getSharedDspace
      · subst hget
        obtain ⟨_, _, hu⟩ := bind_eq_ok_iff.1 hu
        obtain rfl := Except.ok.inj hu
        exact hlive p hp
      · obtain ⟨u', hu', _, hsurvives⟩ := MemServ.memServStep_spec hok hleft
          (fun size memory he => hcreate ⟨size, memory, he⟩) hget
        obtain rfl := Except.ok.inj (hu'.symm.trans hu)
        obtain ⟨hshared, hkeeps⟩ := hsurvives fun ID he => hclose ⟨ID, he⟩
        exact hkeeps p (hlive p (hshared ▸ hp))

/-- The shared dataspace is mapped and unmapped, and another one is closed. -/
def sharedMapped : List MemServEvent :=
  [.createSharedMem 4096 true, .newProcess 1, .createWindow 1 true true, .getSharedDspace,
    .dataDatamap 1 1 0, .dataDataunmap 1, .dataClose 2, .exit 1]

instance (s : MemServ) (e : MemServEvent) : Decidable (LeavesShared s e) :=
  match h : s.sharedDspace with
  | none => isTrue fun p hp => by rw [h] at hp; cases hp
  | some p => decidable_of_iff (e ≠ .dataClose p.ID)
      ⟨fun hne q hq => Option.some.inj (h.symm.trans hq) ▸ hne, fun hall => hall p h⟩

theorem shared_live_iff_mapped :
    ∃ s, Run memServStep TablesLeft (memServInit 4) sharedMapped s ∧
      Steps memServStep (fun _ _ s' => SharedServed s') sharedMapped (memServInit 4) := by
  obtain ⟨s, hrun, _⟩ : ∃ s, Run memServStep (fun s e => TablesLeft s e ∧ LeavesShared s e)
      (memServInit 4) sharedMapped s ∧ True := Run.exists_of_exec (by decide +kernel)
  have hrun' : Run memServStep TablesLeft (memServInit 4) sharedMapped s :=
    hrun.mono fun _ _ h => h.1
  exact ⟨s, hrun', (shared_live_iff hrun').2 (hrun.steps fun _ _ _ h _ => h.2)⟩

/-- Whoever has the capability closes the shared dataspace, and the next one who asks for it makes
the server follow a pointer to nothing. -/
theorem shared_closed : ∃ s, Run memServStep TablesLeft (memServInit 4)
      [.createSharedMem 4096 true, .newProcess 1, .getSharedDspace, .dataClose 1] s ∧
    s.sharedDspace = some ⟨1, 0⟩ ∧ s.getSharedDspaceHandler = .error .fault ∧ ¬SharedServed s := by
  obtain ⟨s, hrun, hshared, hget⟩ : ∃ s, Run memServStep TablesLeft (memServInit 4)
      [.createSharedMem 4096 true, .newProcess 1, .getSharedDspace, .dataClose 1] s ∧
      s.sharedDspace = some ⟨1, 0⟩ ∧ s.getSharedDspaceHandler = .error .fault :=
    Run.exists_of_exec (by decide +kernel)
  refine ⟨s, hrun, hshared, hget, fun hserved => ?_⟩
  rw [hserved ⟨1, 0⟩ hshared] at hget
  cases hget

end PartitionSeL4.Refos
