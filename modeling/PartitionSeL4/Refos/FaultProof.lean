import PartitionSeL4.Refos.Fault

/-!
# Which calls on memory trip an assertion

`FaultServ.Ok` is what every call keeps: the windows of an address space can be found, a window on a
dataspace or with a pager has one, and so has a dataspace that content initialisation is on for.

`no_assertion_iff` says which calls trip an assertion in a reachable state: reading more from the
parameter buffer than there is, a fault that would wait for the page behind the end of a dataspace,
a new dataspace where the table is full, and the refusal of a device for the last id of the table.
-/

namespace PartitionSeL4.Refos

open Lib

/-! ## The table of windows -/

/-- Windows are new and empty, or keep their mode. -/
structure KeepsModes (t t' : Coat Window) : Prop where
  stop : t'.pool.stop = t.pool.stop
  mode : ∀ wID window', t'.table wID = some window' → window'.mode = .empty ∨
    ∃ window, t.table wID = some window ∧ window.mode = window'.mode

section Windows

variable {s s' : VspaceState} {vs vs' : Vspace} {t t' : Coat Window}

theorem KeepsModes.refl (t : Coat Window) : KeepsModes t t where
  stop := rfl
  mode _ window' h := Or.inr ⟨window', h, rfl⟩

theorem KeepsModes.set {wID : Nat} {window new : Window} (h : t.table wID = some window)
    (hmode : new.mode = .empty ∨ new.mode = window.mode) : KeepsModes t (t.set wID new) where
  stop := rfl
  mode i window' hi := by
    by_cases heq : i = wID
    · subst heq
      obtain rfl : new = window' := by simpa [Coat.set] using hi
      exact hmode.imp_right fun hm => ⟨window, h, hm.symm⟩
    · exact Or.inr ⟨window', by simpa [Coat.set, heq] using hi, rfl⟩

theorem wDeleteWindow_keepsModes (hcoat : s.windowList.Ok) {wID : Nat}
    (h : wDeleteWindow s wID = .ok s') : KeepsModes s.windowList s'.windowList := by
  rw [wDeleteWindow] at h
  cases hdelete : s.windowList.toDelete wID with
  | none =>
      simp only [hdelete] at h
      obtain rfl := Except.ok.inj h
      exact .refl _
  | some window =>
      have hwindow := Coat.table_of_toDelete hdelete
      simp only [hdelete] at h
      obtain ⟨u, hu, h⟩ := bind_eq_ok_iff.1 h
      obtain rfl := Except.ok.inj h
      have hlist := (windowSwitchMode_spec hu).2
      have hset : u.windowList.table wID = some { window with mode := .empty } := by
        rw [hlist]
        exact Function.update_self ..
      have hok : u.windowList.Ok := hlist ▸ hcoat.set (by rw [hwindow]; rfl) _
      have hkeeps : KeepsModes s.windowList u.windowList := by
        rw [hlist]
        exact .set hwindow (Or.inl rfl)
      refine ⟨(hok.remove hset).2.2.trans hkeeps.stop, fun i window' hi => ?_⟩
      by_cases heq : i = wID
      · subst heq
        simp [Coat.remove] at hi
      · exact hkeeps.mode i window' (by simpa [Coat.remove, heq] using hi)

theorem resizeTo_keepsModes {wID size : Nat} {window : Window} {moved : Option Nat} {error : Err}
    (hwindow : s.windowList.table wID = some window)
    (h : resizeTo s vs wID window size moved = (error, s')) :
    KeepsModes s.windowList s'.windowList := by
  simp only [resizeTo] at h
  split_ifs at h
  · obtain ⟨_, rfl⟩ := Prod.mk.inj h
    exact .refl _
  · cases moved with
    | none =>
        obtain ⟨_, rfl⟩ := Prod.mk.inj h
        exact .refl _
    | some start =>
        obtain ⟨_, rfl⟩ := Prod.mk.inj h
        exact .set hwindow (Or.inr rfl)

theorem vsResizeWindow_keepsModes {wID size : Nat} {moved : Option Nat} {error : Err}
    (h : vsResizeWindow s vs wID size moved = .ok (error, s')) :
    KeepsModes s.windowList s'.windowList := by
  rw [vsResizeWindow] at h
  split_ifs at h
  · obtain ⟨_, rfl⟩ := Prod.mk.inj (Except.ok.inj h)
    exact .refl _
  · cases hfind : wAssociateFindWinID vs.windows wID with
    | none =>
        simp only [hfind] at h
        obtain ⟨_, rfl⟩ := Prod.mk.inj (Except.ok.inj h)
        exact .refl _
    | some awindow =>
        cases hget : wGetWindow s.windowList wID with
        | none =>
            simp only [hfind, hget] at h
            obtain ⟨_, rfl⟩ := Prod.mk.inj (Except.ok.inj h)
            exact .refl _
        | some window =>
            have hwindow := wGetWindow_some hget
            simp only [hfind, hget] at h
            split_ifs at h
            · exact resizeTo_keepsModes hwindow (Except.ok.inj h)
            · obtain ⟨_, rfl⟩ := Prod.mk.inj (Except.ok.inj h)
              exact .refl _
            · obtain ⟨⟨error', vs₁⟩, _, h⟩ := bind_eq_ok_iff.1 h
              simp only at h
              split_ifs at h
              · exact resizeTo_keepsModes hwindow (Except.ok.inj h)
              · obtain ⟨_, rfl⟩ := Prod.mk.inj (Except.ok.inj h)
                exact .refl _
            · exact resizeTo_keepsModes hwindow (Except.ok.inj h)

theorem vsCreateWindow_keepsModes (hcoat : s.windowList.Ok) {vaddr size permissions : Nat}
    {cacheable memory : Bool} {reservation : Option Nat} {error : Err}
    (h : vsCreateWindow s vs vaddr size permissions cacheable reservation memory =
      .ok (error, s')) : KeepsModes s.windowList s'.windowList := by
  unfold vsCreateWindow at h
  split_ifs at h
  · obtain ⟨_, rfl⟩ := Prod.mk.inj (Except.ok.inj h)
    exact .refl _
  · cases reservation with
    | none =>
        obtain ⟨_, rfl⟩ := Prod.mk.inj (Except.ok.inj h)
        exact .refl _
    | some start =>
        simp only at h
        split at h
        next => cases h
        next t hcreate =>
          obtain ⟨_, hnone, _⟩ := wCreateWindow_spec hcoat hcreate
          cases hnone
        next wID t hcreate =>
          obtain ⟨_, hwID, _, hstop, _, htable⟩ := wCreateWindow_spec hcoat hcreate
          obtain rfl := Option.some.inj hwID
          split at h
          next windows _ =>
            obtain ⟨_, rfl⟩ := Prod.mk.inj (Except.ok.inj h)
            refine ⟨hstop, fun i window' hi => ?_⟩
            rw [show Coat.table _ i = _ from congrFun htable i] at hi
            by_cases heq : i = wID
            · subst heq
              rw [Function.update_self] at hi
              obtain rfl := Option.some.inj hi
              exact Or.inl rfl
            · rw [Function.update_of_ne heq] at hi
              exact Or.inr ⟨window', hi, rfl⟩
          next => cases h

theorem memStep_keepsModes (h : VspaceOk s) {e : MemEvent} (hs' : memStep s e = .ok s') :
    KeepsModes s.windowList s'.windowList := by
  cases e with
  | createMemWindow pid vaddr size permissions cached reservation memory =>
      simp only [memStep, vspaceStep] at hs'
      split_ifs at hs'
      · obtain rfl := Except.ok.inj hs'
        exact .refl _
      · cases hvs : s.vspaces pid with
        | none =>
            simp only [hvs] at hs'
            obtain rfl := Except.ok.inj hs'
            exact .refl _
        | some vs =>
            simp only [hvs] at hs'
            obtain ⟨⟨error, u⟩, hu, hs'⟩ := bind_eq_ok_iff.1 hs'
            obtain rfl := Except.ok.inj hs'
            exact vsCreateWindow_keepsModes h.coat hu
  | resizeMemWindow pid wID size moved =>
      simp only [memStep, vspaceStep] at hs'
      cases hvs : s.vspaces pid with
      | none =>
          simp only [hvs] at hs'
          obtain rfl := Except.ok.inj hs'
          exact .refl _
      | some vs =>
          simp only [hvs] at hs'
          obtain ⟨⟨error, u⟩, hu, hs'⟩ := bind_eq_ok_iff.1 hs'
          obtain rfl := Except.ok.inj hs'
          exact vsResizeWindow_keepsModes hu
  | deleteMemWindow pid wID =>
      simp only [memStep, vspaceStep] at hs'
      cases hvs : s.vspaces pid with
      | none =>
          simp only [hvs] at hs'
          obtain rfl := Except.ok.inj hs'
          exact .refl _
      | some vs =>
          simp only [hvs, vsDeleteWindow] at hs'
          cases hfind : wAssociateFindWinID vs.windows wID with
          | none =>
              simp only [hfind] at hs'
              obtain rfl := Except.ok.inj hs'
              exact .refl _
          | some w =>
              simp only [hfind] at hs'
              obtain ⟨vs₁, _, hs'⟩ := bind_eq_ok_iff.1 hs'
              have hcoat := h.coat
              rw [← setVspace_windowList s vs₁.pid
                { vs₁ with windows := wUnassociate vs₁.windows wID }] at hcoat ⊢
              exact wDeleteWindow_keepsModes hcoat hs'

/-- The ids of the associated windows stay in the table. -/
theorem VsChange.ids {pid : Nat} {e : VspaceEvent} (h : VsChange pid vs vs' e)
    (hids : ∀ w ∈ vs.windows.associated, w.winID < wMaxWindows) :
    ∀ w ∈ vs'.windows.associated, w.winID < wMaxWindows := by
  have hperm := update_perm vs.windows
  intro w hw
  cases h with
  | lookup looks absent => exact hids w (looks.perm.mem_iff.1 hw)
  | create check valid windows pages =>
      rw [windows] at hw
      rcases List.mem_append.1 hw with hw | hw
      · exact hids w (hperm.mem_iff.1 hw)
      · obtain rfl := List.mem_singleton.1 hw
        exact valid
  | delete found windows pages =>
      rw [windows] at hw
      exact hids w
        (hperm.mem_iff.1 ((swapRemove_perm found).mem_iff.2 (List.mem_cons_of_mem _ hw)))
  | @resize u size moved found pos windows pages grow shrink =>
      rw [windows] at hw
      have hid := List.mem_map_of_mem (f := AssociatedWindow.winID) hw
      rw [map_winID_setSize] at hid
      obtain ⟨v, hv, hvw⟩ := List.mem_map.1 hid
      exact hvw ▸ hids v (hperm.mem_iff.1 hv)
  | map call found windows pages =>
      rw [windows] at hw
      exact hids w (hperm.mem_iff.1 hw)
  | load windows pages =>
      rw [windows] at hw
      exact hids w hw

/-- The windows of an address space can be found in the table. -/
structure Findable (s : VspaceState) : Prop extends VspaceOk s where
  stop : s.windowList.pool.stop = wMaxWindows
  ids : ∀ pid vs, s.vspaces pid = some vs → ∀ w ∈ vs.windows.associated, w.winID < wMaxWindows

theorem Findable.get {pid : Nat} {w : AssociatedWindow} (h : Findable s)
    (hvs : s.vspaces pid = some vs) (hw : w ∈ vs.windows.associated) :
    ∃ window, wGetWindow s.windowList w.winID = some window ∧ window.clientOwnerPID = pid := by
  obtain ⟨window, hwindow, howner⟩ := h.live pid vs hvs w hw
  have hpos : 0 < w.winID := Nat.lt_of_lt_of_le h.coat.pool.start_pos (h.coat.start_le hwindow)
  have hlt := h.ids pid vs hvs w hw
  refine ⟨window, ?_, howner⟩
  rw [wGetWindow, if_neg (by omega), h.coat.get_eq (h.stop.symm ▸ hlt), hwindow]

/-- The state after a change of address spaces that keeps the table's end. -/
theorem Findable.changes {e : VspaceEvent} (h : Findable s) (hok : VspaceOk s')
    (hchanges : Changes s s' e) (hstop : s'.windowList.pool.stop = s.windowList.pool.stop) :
    Findable s' := by
  refine ⟨hok, hstop.trans h.stop, fun pid vs' hvs' => ?_⟩
  cases hvs : s.vspaces pid with
  | none => exact absurd (hvs'.symm.trans ((hchanges pid).1 hvs)) (by simp)
  | some vs =>
      obtain ⟨v, hv, hchange⟩ := (hchanges pid).2 vs hvs
      obtain rfl := Option.some.inj (hvs'.symm.trans hv)
      exact hchange.ids (h.ids pid vs hvs)

theorem StateLooks.unmaps (h : StateLooks s s') : Changes s s' (.unmap 0 0 0) :=
  h.changes (by intro _ _ he; cases he)

theorem Findable.setVspace {pid : Nat} (h : Findable s) (hvs : s.vspaces pid = some vs)
    (hlook : OnlyLooks vs vs') : Findable (s.setVspace pid vs') :=
  h.changes (h.toVspaceOk.setVspace hvs hlook)
    (StateLooks.setVspace hvs hlook).unmaps rfl

theorem Findable.vsMap_ok {pid : Nat} (h : Findable s) (vaddr : Nat) (frames : List Nat)
    (memory mapped : Bool) (hvs : s.vspaces pid = some vs) :
    ∃ r, vsMap s.windowList vs vaddr frames memory mapped = .ok r := by
  rw [vsMap]
  cases hfind : wAssociateFindRange vs.windows (pageAlign vaddr)
      (u32 (frames.length * pageSize)) with
  | none => exact ⟨_, rfl⟩
  | some w =>
      obtain ⟨window, hget, howner⟩ := h.get hvs (findRange_some hfind).1
      simp only [hget, howner, h.pid pid vs hvs, ne_eq, not_true_eq_false, if_false]
      split_ifs
      · exact ⟨_, rfl⟩
      · exact ⟨_, rfl⟩
      · exact ⟨_, rfl⟩
      · exact ⟨_, rfl⟩

/-- `window_switch_mode` trips no assertion, and only changes the mode of the window. -/
theorem Findable.windowSwitchMode_ok (h : Findable s) {wID : Nat} {window : Window}
    (hwindow : s.windowList.table wID = some window) (mode : WindowMode) :
    ∃ s', windowSwitchMode s wID window mode = .ok s' ∧ Findable s' ∧
      s'.windowList = s.windowList.set wID { window with mode := mode } ∧
      ∀ pid, (s'.vspaces pid).isSome = (s.vspaces pid).isSome := by
  have hunmap : ∃ t, unmapPrevious s wID window = .ok t := by
    rw [unmapPrevious]
    split_ifs
    · exact ⟨_, rfl⟩
    · cases hclient : s.vspaces window.clientOwnerPID with
      | none => exact ⟨_, rfl⟩
      | some client =>
          simp only [vsUnmapWindow]
          cases hfind : wAssociateFindWinID client.windows wID with
          | none => exact ⟨_, rfl⟩
          | some w =>
              obtain ⟨i, hi⟩ := (findWinID_some hfind).2
              obtain ⟨found, hget, howner⟩ := h.get hclient
                ((update_perm client.windows).mem_iff.1 (List.mem_of_getElem? hi))
              simp only [hget, howner, h.pid _ client hclient, ne_eq, not_true_eq_false, if_false]
              exact ⟨_, rfl⟩
  obtain ⟨t, ht⟩ := hunmap
  have hswitch : windowSwitchMode s wID window mode =
      .ok { t with windowList := t.windowList.set wID { window with mode := mode } } := by
    rw [windowSwitchMode, ht]
    rfl
  obtain ⟨hlooks, hlist⟩ := windowSwitchMode_spec hswitch
  have hcoat := h.coat.set (by rw [hwindow]; rfl) { window with mode := mode }
  have hok : VspaceOk { t with windowList := t.windowList.set wID { window with mode := mode } } :=
    h.toVspaceOk.of_looks hlooks (hlist ▸ hcoat) (hlist ▸ live_of_set hwindow rfl)
  refine ⟨_, hswitch, h.changes hok hlooks.unmaps (by rw [hlist]; rfl), hlist, ?_⟩
  intro pid
  cases hvs : s.vspaces pid with
  | none => rw [(hlooks pid).1 hvs]
  | some vs =>
      obtain ⟨vs', hvs', _⟩ := (hlooks pid).2 vs hvs
      rw [hvs']
      rfl

end Windows

/-! ## Content initialisation -/

/-- Where content initialisation is on, there is a content initialiser. -/
def InitOk (dspace : RamDspace) : Prop :=
  dspace.contentInitEnabled = true → dspace.contentInitEP ≠ 0 ∧ dspace.contentInitPID ≠ 0

/-- The content initialiser stays. -/
def SameInit (dspace dspace' : RamDspace) : Prop :=
  dspace'.contentInitEnabled = dspace.contentInitEnabled ∧
    dspace'.contentInitEP = dspace.contentInitEP ∧ dspace'.contentInitPID = dspace.contentInitPID

section Content

variable {dspace dspace' : RamDspace}

theorem SameInit.trans {dspace'' : RamDspace} (h : SameInit dspace dspace')
    (h' : SameInit dspace' dspace'') : SameInit dspace dspace'' :=
  ⟨h'.1.trans h.1, h'.2.1.trans h.2.1, h'.2.2.trans h.2.2⟩

theorem InitOk.same (h : InitOk dspace) (hsame : SameInit dspace dspace') : InitOk dspace' := by
  obtain ⟨henabled, hEP, hPID⟩ := hsame
  rw [InitOk, henabled, hEP, hPID]
  exact h

theorem InitOk.create (size : Nat) (paddr : Bool) :
    InitOk { ramDspaceOatCreate size with physicalAddrEnabled := paddr } := fun henabled =>
  nomatch henabled

theorem sameInit_expand (dspace : RamDspace) (size : Nat) :
    SameInit dspace (ramDspaceExpand dspace size true true).2 := by
  simp only [ramDspaceExpand]
  split_ifs <;> exact ⟨rfl, rfl, rfl⟩

theorem InitOk.haveData (h : InitOk dspace) (faultNotifyEP : Option Nat) {pid : Nat}
    (hpid : pid ≠ 0) : ∃ r, dataHaveDataHandler ⟨dspace, []⟩ faultNotifyEP pid true = .ok r ∧
      InitOk r.2.dspace := by
  have hassert : ¬(dspace.contentInitEnabled = true ∧ dspace.contentInitEP = 0) := fun hboth =>
    (h hboth.1).1 hboth.2
  have hinit : ∀ ep pid, (ep ≠ 0 → pid ≠ 0) → ∃ error dspace',
      ramDspaceContentInit dspace ep pid true = .ok (error, dspace') ∧ InitOk dspace' := by
    intro ep pid hpid
    simp only [ramDspaceContentInit, hassert, if_false, Bool.not_true, Bool.false_eq_true]
    by_cases hpaddr : dspace.physicalAddrEnabled = true
    · exact ⟨_, _, if_pos hpaddr, h⟩
    rw [if_neg hpaddr]
    by_cases hep : ep = 0
    · exact ⟨_, _, if_pos hep, by intro henabled; cases henabled⟩
    · exact ⟨_, _, if_neg hep, fun _ => ⟨hep, hpid hep⟩⟩
  cases faultNotifyEP with
  | none =>
      obtain ⟨error, dspace', hcall, hok⟩ := hinit 0 0 (fun hne => absurd rfl hne)
      exact ⟨(error, ⟨dspace', []⟩), by rw [dataHaveDataHandler, hcall]; rfl, hok⟩
  | some ep =>
      simp only [dataHaveDataHandler]
      split_ifs with hep
      · exact ⟨_, rfl, h⟩
      · obtain ⟨error, dspace', hcall, hok⟩ := hinit ep pid fun _ => hpid
        exact ⟨(error, ⟨dspace', []⟩), by rw [hcall]; rfl, hok⟩

theorem waiting_sameInit (dspace : RamDspace) (added : List Waiter) :
    SameInit dspace { dspace with
      contentInitWaitingList := dspace.contentInitWaitingList ++ added } := ⟨rfl, rfl, rfl⟩

theorem sameInit_providePage {s s' : ContentState} {offset : Nat}
    (h : providePage s offset = .ok s') : SameInit s.dspace s'.dspace := by
  obtain ⟨bitmask, hset, _⟩ := setContentInitProvided_spec s offset
  rw [providePage, hset] at h
  obtain rfl := Except.ok.inj h
  simp only [ramDspaceContentInitReplyWaiters]
  split_ifs <;> exact ⟨rfl, rfl, rfl⟩

theorem sameInit_providePages {offsets : List Nat} {s s' : ContentState}
    (h : offsets.foldlM providePage s = .ok s') : SameInit s.dspace s'.dspace := by
  induction offsets generalizing s with
  | nil =>
      obtain rfl := Except.ok.inj h
      exact ⟨rfl, rfl, rfl⟩
  | cons offset offsets ih =>
      rw [List.foldlM_cons] at h
      obtain ⟨t, ht, h⟩ := bind_eq_ok_iff.1 h
      exact (sameInit_providePage ht).trans (ih h)

theorem provideData_ok (s : ContentState) (param : Option (List UInt8) × Nat)
    (write : Nat → List UInt8 → Err × RamDspace × Nat) (offset contentSize : Nat)
    (hwrite : ∀ k buf error dspace k', write k buf = (error, dspace, k') →
      ∃ bytes, dspace = { s.dspace with bytes := bytes }) :
    ∃ r, provideData s (.ok param) write offset contentSize = .ok r ∧
      SameInit s.dspace r.2.dspace := by
  obtain ⟨buf, k⟩ := param
  cases buf with
  | none => exact ⟨_, rfl, rfl, rfl, rfl⟩
  | some buf =>
      rcases hcall : write k (buf.take contentSize) with ⟨error, dspace, k'⟩
      obtain ⟨bytes, rfl⟩ := hwrite _ _ _ _ _ hcall
      by_cases herror : error = .success
      · obtain ⟨s', hs', _⟩ := providePages_spec (providedOffsets offset contentSize)
          { s with dspace := { s.dspace with bytes := bytes } }
        have hsame := sameInit_providePages hs'
        refine ⟨(.success, s'), bind_eq_ok_iff.2 ⟨(some buf, k), rfl, ?_⟩, hsame⟩
        simp only [hcall, herror, ne_eq, not_true_eq_false, if_false, hs']
        rfl
      · refine ⟨(error, { s with dspace := { s.dspace with bytes := bytes } }),
          bind_eq_ok_iff.2 ⟨(some buf, k), rfl, ?_⟩, rfl, rfl, rfl⟩
        simp only [hcall, herror, ne_eq, not_false_eq_true, if_true]
        rfl

/-- The parameter buffer has as many bytes as are to be read, where any are read. -/
def ParamHolds (paramBuffer : Option RamDspace) (readLen : Nat) : Prop :=
  ∀ param, paramBuffer = some param → readLen ≤ syscallParamSizeMax →
    readLen ≤ ramDspaceGetSize param

section Param

variable {param : RamDspace} {readLen : Nat}

theorem paramRoom (param : RamDspace) :
    u32 (ramDspaceGetSize param + 2 ^ 32 - 0) = ramDspaceGetSize param := by
  simp only [ramDspaceGetSize, u32]
  omega

theorem ramDspaceRead_param (hsize : readLen ≤ ramDspaceGetSize param)
    (hmax : readLen ≤ syscallParamSizeMax) :
    ∃ read k, ramDspaceRead (fun _ => true) 0 readLen param 0 = (.success, read, k) := by
  have hfit : 0 + readLen ≤ param.npages * pageSize := by
    rw [Nat.zero_add]
    exact Nat.le_trans hsize (Nat.mod_le _ _)
  have hend : 0 + readLen < 2 ^ 32 - pageSize := by
    simp only [syscallParamSizeMax, pageSize] at *
    omega
  rw [ramDspaceRead, paramRoom, if_neg (Nat.not_lt.2 hsize)]
  obtain ⟨k, _, hok | ⟨_, _, _, _, hfail⟩⟩ :=
    readChunks_spec (fun _ => true) (ioChunks_chunked 0 readLen hend) 0 [] param hfit
  · exact ⟨_, _, hok⟩
  · cases hfail

theorem ramDspaceRead_refused (hlt : ramDspaceGetSize param < readLen) :
    ramDspaceRead (fun _ => true) 0 readLen param 0 = (.invalidParam, [], 0) := by
  rw [ramDspaceRead, paramRoom, if_pos hlt]

theorem readParam_ok (hmax : readLen ≤ syscallParamSizeMax) {read : List UInt8} {k : Nat}
    (h : ramDspaceRead (fun _ => true) 0 readLen param 0 = (.success, read, k)) :
    ∃ r, dispatcherReadParam (fun _ => true) (some param) readLen = .ok r := by
  unfold dispatcherReadParam
  rw [if_neg (fun hnone => nomatch hnone.1), if_neg (Nat.not_lt.2 hmax)]
  by_cases hzero : readLen = 0
  · exact ⟨_, if_pos hzero⟩
  · simp only [h, hzero, if_false]
    exact ⟨_, rfl⟩

theorem readParam_assertion (hmax : readLen ≤ syscallParamSizeMax) (hpos : readLen ≠ 0)
    (h : ramDspaceRead (fun _ => true) 0 readLen param 0 = (.invalidParam, [], 0)) :
    dispatcherReadParam (fun _ => true) (some param) readLen = .error .assertion := by
  unfold dispatcherReadParam
  rw [if_neg (fun hnone => nomatch hnone.1), if_neg (Nat.not_lt.2 hmax)]
  simp only [h, hpos, if_false]

theorem readParam_long (paramBuffer : Option RamDspace) (hmax : syscallParamSizeMax < readLen) :
    ∃ r, dispatcherReadParam (fun _ => true) paramBuffer readLen = .ok r := by
  unfold dispatcherReadParam
  by_cases hnone : paramBuffer.isNone = true ∧ readLen ≠ 0
  · exact ⟨_, if_pos hnone⟩
  · exact ⟨_, (if_neg hnone).trans (if_pos hmax)⟩

end Param

/-- `dispatcher_read_param` trips its assertion if and only if the buffer is too small. -/
theorem dispatcherReadParam_cases (paramBuffer : Option RamDspace) (readLen : Nat) :
    (ParamHolds paramBuffer readLen →
      ∃ r, dispatcherReadParam (fun _ => true) paramBuffer readLen = .ok r) ∧
    (¬ParamHolds paramBuffer readLen →
      dispatcherReadParam (fun _ => true) paramBuffer readLen = .error .assertion) := by
  by_cases hmax : syscallParamSizeMax < readLen
  · exact ⟨fun _ => readParam_long paramBuffer hmax,
      fun hnot => absurd (fun _ _ hle => by omega) hnot⟩
  cases paramBuffer with
  | none =>
      refine ⟨fun _ => ?_, fun hnot => absurd (fun param hparam => nomatch hparam) hnot⟩
      unfold dispatcherReadParam
      by_cases hzero : readLen = 0
      · exact ⟨_, (if_neg fun hboth => hboth.2 hzero).trans (if_neg hmax)⟩
      · exact ⟨_, if_pos ⟨rfl, hzero⟩⟩
  | some param =>
      refine ⟨fun hholds => ?_, fun hnot => ?_⟩
      · obtain ⟨read, k, hread⟩ :=
          ramDspaceRead_param (hholds param rfl (Nat.le_of_not_lt hmax)) (Nat.le_of_not_lt hmax)
        exact readParam_ok (Nat.le_of_not_lt hmax) hread
      · have hlt : ramDspaceGetSize param < readLen := by
          by_contra hle
          refine hnot fun param' hparam' _ => ?_
          obtain rfl := Option.some.inj hparam'
          exact Nat.le_of_not_lt hle
        exact readParam_assertion (Nat.le_of_not_lt hmax) (Nat.ne_zero_of_lt hlt)
          (ramDspaceRead_refused hlt)

/-- A fault that would put a waiter on the list for the page behind the end: the offset is the size
of the dataspace, and every other check passes. -/
structure WaitsAtEnd (dspace : RamDspace) (f : DspaceFault) : Prop where
  enabled : dspace.contentInitEnabled = true
  bitmask : dspace.contentInitBitmask.isSome = true
  inSize : f.dspaceOffset ≤ ramDspaceGetSize dspace
  atEnd : f.dspaceOffset = dspace.npages * pageSize
  missing : dspace.provided dspace.npages = false
  inWindow : u32 (f.faultAddr + f.ramDataspaceOffset) < u32 (f.awOffset + f.awSize)
  pager : f.pager = true
  reply : f.callerReply.isSome = true

/-- An offset that is not behind the size is on a page that is not there only at the end. -/
theorem npages_le_iff {offset : Nat} (h : offset ≤ ramDspaceGetSize dspace) :
    dspace.npages ≤ offset / pageSize ↔ offset = dspace.npages * pageSize := by
  have hsize : ramDspaceGetSize dspace ≤ dspace.npages * pageSize := Nat.mod_le _ _
  simp only [pageSize] at *
  omega

/-- A fault on a page that is not provided, and that nobody can be asked to provide. -/
def Unserved (f : DspaceFault) : Prop :=
  u32 (f.awOffset + f.awSize) ≤ u32 (f.faultAddr + f.ramDataspaceOffset) ∨ f.pager = false ∨
    f.callerReply = none

theorem delegateContentInit_cases {f : DspaceFault} (henabled : dspace.contentInitEnabled = true)
    (hinit : dspace.contentInitEP ≠ 0 ∧ dspace.contentInitPID ≠ 0)
    (hin : f.dspaceOffset ≤ ramDspaceGetSize dspace) (hreply : f.callerReply ≠ some 0) :
    (Unserved f → delegateContentInit ⟨dspace, []⟩ f = .ok (.invalid, ⟨dspace, []⟩)) ∧
    (¬Unserved f → dspace.npages ≤ f.dspaceOffset / pageSize →
      delegateContentInit ⟨dspace, []⟩ f = .error .assertion) ∧
    (¬Unserved f → f.dspaceOffset / pageSize < dspace.npages → f.memory = false →
      delegateContentInit ⟨dspace, []⟩ f = .ok (.invalid, ⟨dspace, []⟩)) ∧
    (¬Unserved f → f.dspaceOffset / pageSize < dspace.npages → f.memory = true →
      ∃ w : Waiter, f.callerReply = some w.reply ∧ w.pageidx = f.dspaceOffset / pageSize ∧
        delegateContentInit ⟨dspace, []⟩ f = .ok (.delegated,
          ⟨{ dspace with contentInitWaitingList := dspace.contentInitWaitingList ++ [w] },
            []⟩)) := by
  rw [delegateContentInit]
  by_cases hwindow : u32 (f.awOffset + f.awSize) ≤ u32 (f.faultAddr + f.ramDataspaceOffset)
  · have hunserved : Unserved f := Or.inl hwindow
    rw [if_pos hwindow]
    exact ⟨fun _ => rfl, fun hnot => absurd hunserved hnot, fun hnot => absurd hunserved hnot,
      fun hnot => absurd hunserved hnot⟩
  rw [if_neg hwindow, if_neg hinit.2]
  cases hpager : f.pager with
  | false =>
      have hunserved : Unserved f := Or.inr (Or.inl hpager)
      exact ⟨fun _ => rfl, fun hnot => absurd hunserved hnot, fun hnot => absurd hunserved hnot,
        fun hnot => absurd hunserved hnot⟩
  | true =>
      rw [if_neg (by simp), if_neg hinit.1]
      cases hsaved : f.callerReply with
      | none =>
          have hunserved : Unserved f := Or.inr (Or.inr hsaved)
          exact ⟨fun _ => rfl, fun hnot => absurd hunserved hnot, fun hnot => absurd hunserved hnot,
            fun hnot => absurd hunserved hnot⟩
      | some reply =>
          have hserved : ¬Unserved f := by
            simp only [Unserved, hwindow, hpager, hsaved, reduceCtorEq, or_self, not_false_eq_true]
          have hpos : reply ≠ 0 := fun heq => hreply (hsaved.trans (congrArg some heq))
          simp only [ramDspaceAddContentInitWaiter, hpos, Nat.not_lt.2 hin, henabled, if_false,
            Bool.not_true, Bool.false_eq_true]
          refine ⟨fun hun => absurd hun hserved, fun _ hend => ?_, fun _ hlt hmemory => ?_,
            fun _ hlt hmemory => ?_⟩
          · rw [if_pos hend]
            rfl
          · rw [if_neg (Nat.not_le.2 hlt), hmemory]
            rfl
          · rw [if_neg (Nat.not_le.2 hlt), hmemory]
            exact ⟨⟨f.dspaceOffset / pageSize, reply⟩, rfl, rfl, rfl⟩

/-- Where the page is not provided and somebody can be asked, the fault waits at the end or not. -/
theorem waitsAtEnd_iff {f : DspaceFault} {bitmask : Nat → Bool}
    (henabled : dspace.contentInitEnabled = true)
    (hbitmask : dspace.contentInitBitmask = some bitmask)
    (hin : f.dspaceOffset ≤ ramDspaceGetSize dspace)
    (hbit : bitmask (f.dspaceOffset / pageSize) = false) :
    WaitsAtEnd dspace f ↔ ¬Unserved f ∧ dspace.npages ≤ f.dspaceOffset / pageSize := by
  constructor
  · intro hwaits
    refine ⟨?_, (npages_le_iff hin).2 hwaits.atEnd⟩
    rintro (hwindow | hpager | hreply)
    · exact absurd hwaits.inWindow (Nat.not_lt.2 hwindow)
    · exact absurd hwaits.pager (by simp [hpager])
    · exact absurd hwaits.reply (by simp [hreply])
  · rintro ⟨hserved, hend⟩
    obtain ⟨hwindow, hothers⟩ := not_or.1 hserved
    obtain ⟨hpager, hreply⟩ := not_or.1 hothers
    have hlast := Nat.le_antisymm (page_le_npages hin) hend
    exact
      { enabled := henabled
        bitmask := by rw [hbitmask]; rfl
        inSize := hin
        atEnd := (npages_le_iff hin).1 hend
        missing := by rw [RamDspace.provided, hbitmask, ← hlast]; exact hbit
        inWindow := Nat.lt_of_not_le hwindow
        pager := by simpa using hpager
        reply := Option.isSome_iff_ne_none.2 hreply }

theorem handleVmFaultDspace_disabled (f : DspaceFault)
    (henabled : dspace.contentInitEnabled = false) :
    handleVmFaultDspace ⟨dspace, []⟩ f = .ok (mapDspacePage ⟨dspace, []⟩ f) := by
  rw [handleVmFaultDspace, henabled]
  rfl

theorem handleVmFaultDspace_noState {f : DspaceFault} (henabled : dspace.contentInitEnabled = true)
    (h : dspace.contentInitBitmask = none ∨ ramDspaceGetSize dspace < f.dspaceOffset) :
    handleVmFaultDspace ⟨dspace, []⟩ f = .ok (.invalid, ⟨dspace, []⟩) := by
  cases hbitmask : dspace.contentInitBitmask with
  | none =>
      simp only [handleVmFaultDspace, ramDspaceNeedContentInit, henabled, hbitmask]
      rfl
  | some bitmask =>
      have hout := h.resolve_left (by simp [hbitmask])
      simp only [handleVmFaultDspace, ramDspaceNeedContentInit, henabled, hbitmask, hout, if_true]
      rfl

theorem handleVmFaultDspace_inSize {f : DspaceFault} {bitmask : Nat → Bool}
    (henabled : dspace.contentInitEnabled = true)
    (hbitmask : dspace.contentInitBitmask = some bitmask)
    (hin : f.dspaceOffset ≤ ramDspaceGetSize dspace) :
    handleVmFaultDspace ⟨dspace, []⟩ f =
      if bitmask (f.dspaceOffset / pageSize) then .ok (mapDspacePage ⟨dspace, []⟩ f)
      else delegateContentInit ⟨dspace, []⟩ f := by
  have hpage := page_le_npages hin
  simp only [handleVmFaultDspace, ramDspaceNeedContentInit, henabled, hbitmask,
    Nat.not_lt.2 hin, Nat.not_lt.2 hpage, if_false, Bool.not_true, Bool.false_eq_true]
  cases bitmask (f.dspaceOffset / pageSize) <;> rfl

/-- `handle_vm_fault_dspace` trips an assertion if and only if the fault is one of these. -/
theorem InitOk.fault (h : InitOk dspace) {f : DspaceFault} (hreply : f.callerReply ≠ some 0) :
    (¬WaitsAtEnd dspace f → ∃ r, handleVmFaultDspace ⟨dspace, []⟩ f = .ok r) ∧
      (WaitsAtEnd dspace f → handleVmFaultDspace ⟨dspace, []⟩ f = .error .assertion) := by
  cases henabled : dspace.contentInitEnabled with
  | false =>
      exact ⟨fun _ => ⟨_, handleVmFaultDspace_disabled f henabled⟩,
        fun hwaits => absurd hwaits.enabled (by simp [henabled])⟩
  | true =>
      obtain ⟨hEP, hPID⟩ := h henabled
      cases hbitmask : dspace.contentInitBitmask with
      | none =>
          exact ⟨fun _ => ⟨_, handleVmFaultDspace_noState henabled (Or.inl hbitmask)⟩,
            fun hwaits => absurd hwaits.bitmask (by simp [hbitmask])⟩
      | some bitmask =>
          by_cases hin : f.dspaceOffset ≤ ramDspaceGetSize dspace
          · rw [handleVmFaultDspace_inSize henabled hbitmask hin]
            cases hbit : bitmask (f.dspaceOffset / pageSize) with
            | true =>
                refine ⟨fun _ => ⟨_, rfl⟩, fun hwaits => ?_⟩
                have hmissing := hwaits.missing
                rw [← Nat.le_antisymm (page_le_npages hin) ((npages_le_iff hin).2 hwaits.atEnd)]
                  at hmissing
                simp [RamDspace.provided, hbitmask, hbit] at hmissing
            | false =>
                obtain ⟨hunserved, hend, hfull, hwaiting⟩ :=
                  delegateContentInit_cases henabled ⟨hEP, hPID⟩ hin hreply
                rw [waitsAtEnd_iff henabled hbitmask hin hbit]
                refine ⟨fun hnot => ?_, fun hwaits => hend hwaits.1 hwaits.2⟩
                by_cases hserved : Unserved f
                · exact ⟨_, hunserved hserved⟩
                have hlt : f.dspaceOffset / pageSize < dspace.npages :=
                  Nat.lt_of_not_le fun hle => hnot ⟨hserved, hle⟩
                cases hmemory : f.memory with
                | false => exact ⟨_, hfull hserved hlt hmemory⟩
                | true =>
                    obtain ⟨w, _, _, hw⟩ := hwaiting hserved hlt hmemory
                    exact ⟨_, hw⟩
          · have hout := Nat.lt_of_not_le hin
            exact ⟨fun _ => ⟨_, handleVmFaultDspace_noState henabled (Or.inr hout)⟩,
              fun hwaits => absurd hwaits.inSize hin⟩

end Content

/-! ## The invariant -/

/-- A window has what its mode needs. -/
def TargetOk (dspaceList : Coat RamDspace) (target : WindowTarget) : WindowMode → Prop
  | .empty => True
  | .anonymous => ∃ ID, target.ramDataspace = some ID ∧ (dspaceList.table ID).isSome = true
  | .pager => target.pagerPID ≠ 0

namespace FaultServ

/-- What every call keeps. -/
structure Ok (s : FaultServ) : Prop where
  findable : Findable s.vspaceState
  targets : ∀ wID window, s.vspaceState.windowList.table wID = some window →
    TargetOk s.dspaceList (s.targets wID) window.mode
  dspaces : s.dspaceList.Ok
  stop : s.dspaceList.pool.stop = ramDspaceMax
  init : ∀ ID dspace, s.dspaceList.table ID = some dspace → InitOk dspace
  params : ∀ pid pcb ID, s.pcbs pid = some pcb → pcb.paramBuffer = some ID →
    (s.dspaceList.table ID).isSome = true
  processes : ∀ pid, (s.pcbs pid).isSome = (s.vspaceState.vspaces pid).isSome
  nullPid : s.pcbs 0 = none

variable {s : FaultServ} {pid ID : Nat} {pcb : FaultPcb} {vs vs' : Vspace} {dspace : RamDspace}

theorem Ok.init_state {pids : Nat → Bool} (hpids : pids 0 = false) : (faultServInit pids).Ok where
  findable :=
    { VspaceOk.init pids with
      stop := rfl
      ids := fun pid vs hvs w hw => by
        simp only [faultServInit, vspaceInit] at hvs
        split_ifs at hvs
        obtain rfl := Option.some.inj hvs
        cases hw }
  targets _ _ h := nomatch h
  dspaces := .init (by decide) (by decide)
  stop := rfl
  init _ _ h := nomatch h
  params pid pcb ID hpcb hparam := by
    simp only [faultServInit] at hpcb
    split_ifs at hpcb
    obtain rfl := Option.some.inj hpcb
    cases hparam
  processes pid := by
    simp only [faultServInit, vspaceInit]
    split_ifs <;> rfl
  nullPid := by simp [faultServInit, hpids]

theorem ramDspaceGet_some (h : s.ramDspaceGet ID = some dspace) :
    s.dspaceList.table ID = some dspace := by
  rw [ramDspaceGet] at h
  split_ifs at h
  exact Coat.table_of_get h

theorem Ok.of_dspaces (h : s.Ok) {dspaceList : Coat RamDspace} (hok : dspaceList.Ok)
    (hstop : dspaceList.pool.stop = ramDspaceMax)
    (hinit : ∀ ID dspace, dspaceList.table ID = some dspace → InitOk dspace)
    (hkeeps : ∀ ID, (s.dspaceList.table ID).isSome = true → (dspaceList.table ID).isSome = true) :
    { s with dspaceList := dspaceList }.Ok where
  findable := h.findable
  targets wID window hwindow := by
    have htarget := h.targets wID window hwindow
    revert htarget
    cases window.mode with
    | empty => exact id
    | anonymous => exact fun ⟨ID, hID, hlive⟩ => ⟨ID, hID, hkeeps ID hlive⟩
    | pager => exact id
  dspaces := hok
  stop := hstop
  init := hinit
  params pid pcb ID hpcb hparam := hkeeps ID (h.params pid pcb ID hpcb hparam)
  processes := h.processes
  nullPid := h.nullPid

theorem Ok.setDspace (h : s.Ok) (hdspace : s.dspaceList.table ID = some dspace)
    {dspace' : RamDspace} (hinit : InitOk dspace') : (s.setDspace ID dspace').Ok := by
  refine h.of_dspaces (h.dspaces.set (by rw [hdspace]; rfl) dspace') h.stop ?_ ?_
  · intro i d hd
    by_cases hi : i = ID
    · subst hi
      obtain rfl : dspace' = d := by simpa [Coat.set] using hd
      exact hinit
    · exact h.init i d (by simpa [Coat.set, hi] using hd)
  · intro i hlive
    by_cases hi : i = ID
    · subst hi
      simp [Coat.set]
    · simpa [Coat.set, hi] using hlive

theorem Ok.setPcb (h : s.Ok) (hpcb : s.pcbs pid = some pcb) {pcb' : FaultPcb}
    (hparam : ∀ ID, pcb'.paramBuffer = some ID → (s.dspaceList.table ID).isSome = true) :
    (s.setPcb pid pcb').Ok where
  findable := h.findable
  targets := h.targets
  dspaces := h.dspaces
  stop := h.stop
  init := h.init
  params q p ID hp hID := by
    by_cases hq : q = pid
    · subst hq
      obtain rfl : pcb' = p := by simpa [FaultServ.setPcb] using hp
      exact hparam ID hID
    · exact h.params q p ID (by simpa [FaultServ.setPcb, hq] using hp) hID
  processes q := by
    by_cases hq : q = pid
    · subst hq
      have hsome := h.processes q
      rw [hpcb] at hsome
      simpa [FaultServ.setPcb] using hsome
    · simpa [FaultServ.setPcb, hq] using h.processes q
  nullPid := by
    have hne : (0 : Nat) ≠ pid := by
      rintro rfl
      rw [h.nullPid] at hpcb
      cases hpcb
    simpa [FaultServ.setPcb, hne] using h.nullPid

theorem Ok.setVspace (h : s.Ok) (hvs : s.vspaceState.vspaces pid = some vs)
    (hfindable : Findable (s.vspaceState.setVspace pid vs')) : (s.setVspace pid vs').Ok where
  findable := hfindable
  targets := h.targets
  dspaces := h.dspaces
  stop := h.stop
  init := h.init
  params := h.params
  processes q := by
    by_cases hq : q = pid
    · subst hq
      have hsome := h.processes q
      rw [hvs] at hsome
      simpa [FaultServ.setVspace] using hsome
    · simpa [FaultServ.setVspace, setVspace_of_ne _ _ _ hq] using h.processes q
  nullPid := h.nullPid

theorem Ok.switchWindow (h : s.Ok) {wID : Nat} {window : Window}
    (hwindow : s.vspaceState.windowList.table wID = some window) (mode : WindowMode)
    (target : WindowTarget) (htarget : TargetOk s.dspaceList target mode) :
    ∃ s', s.switchWindow wID window mode target = .ok s' ∧ s'.Ok := by
  obtain ⟨t, ht, hfindable, hlist, hsome⟩ := h.findable.windowSwitchMode_ok hwindow mode
  refine ⟨_, by rw [FaultServ.switchWindow, ht]; rfl, ?_⟩
  refine ⟨hfindable, fun i window' hi => ?_, h.dspaces, h.stop, h.init, h.params, ?_, h.nullPid⟩
  · simp only [hlist, Coat.set] at hi
    by_cases heq : i = wID
    · subst heq
      simp only [Function.update_self, Option.some.injEq] at hi ⊢
      exact hi ▸ htarget
    · rw [Function.update_of_ne heq] at hi
      simp only [Function.update_of_ne heq]
      exact h.targets i window' hi
  · intro q
    rw [h.processes]
    exact (hsome q).symm

/-! ## Faults -/

variable {f : VmFault} {aw : AssociatedWindow} {window : Window}

theorem Ok.procSaveCaller (h : s.Ok) (hpcb : s.pcbs f.pid = some pcb) :
    (s.procSaveCaller f pcb).2.Ok := by
  rw [FaultServ.procSaveCaller]
  cases f.cslot with
  | none => exact h.setPcb hpcb fun ID hID => h.params f.pid pcb ID hpcb hID
  | some cslot => exact h.setPcb hpcb fun ID hID => h.params f.pid pcb ID hpcb hID

theorem Ok.rbWrite (h : s.Ok) (pid : Nat) (notification : ProcNotification) :
    (s.rbWrite pid notification).Ok := by
  rw [FaultServ.rbWrite]
  cases hpcb : s.pcbs pid with
  | none => exact h
  | some pcb => exact h.setPcb hpcb fun ID hID => h.params pid pcb ID hpcb hID

theorem Ok.faultDelegateNotification (h : s.Ok) (hpcb : s.pcbs f.pid = some pcb)
    (delegationPID : Nat) (delegationPCB : FaultPcb) (notification : ProcNotification)
    (saveReply : Bool) :
    (s.faultDelegateNotification f pcb delegationPID delegationPCB notification
      saveReply).2.Ok := by
  have hsaved : (if saveReply then s.procSaveCaller f pcb else (.success, s)).2.Ok := by
    split_ifs
    · exact h.procSaveCaller hpcb
    · exact h
  simp only [FaultServ.faultDelegateNotification]
  generalize (if saveReply = true then s.procSaveCaller f pcb else (.success, s)) = r at hsaved
  split_ifs
  · exact h
  · exact hsaved
  · exact hsaved
  · exact hsaved.rbWrite delegationPID notification

theorem callerReply_ne (f : VmFault) : f.callerReply ≠ some 0 := by
  rw [VmFault.callerReply]
  split_ifs
  · cases f.cslot with
    | none => exact fun h => nomatch h
    | some cslot => exact fun h => cslot.2 (Option.some.inj h)
  · exact fun h => nomatch h

theorem Ok.finishVmFaultDspace (h : s.Ok) (hpcb : s.pcbs f.pid = some pcb)
    (hvs : s.vspaceState.vspaces f.pid = some vs) (contentInitPID : Nat)
    (notification : ProcNotification) (error : Err) :
    ∃ r, s.finishVmFaultDspace f pcb vs contentInitPID notification error = .ok r ∧ r.2.Ok := by
  unfold FaultServ.finishVmFaultDspace
  split
  · cases f.frame with
    | none => exact ⟨_, rfl, h⟩
    | some frame =>
        obtain ⟨⟨error', vs'⟩, hmap⟩ :=
          h.findable.vsMap_ok f.faultAddr [frame] f.memory f.mapped hvs
        obtain ⟨hok, hchanges⟩ := vsMap_changes
          (e := .map f.pid f.faultAddr [frame] f.memory f.mapped) h.findable.toVspaceOk hvs hmap
          (Or.inl ⟨_, _, rfl⟩)
        refine ⟨_, by simp only [hmap]; rfl, h.setVspace hvs ?_⟩
        exact h.findable.changes hok hchanges rfl
  · cases s.pcbs contentInitPID with
    | none => exact ⟨_, rfl, h⟩
    | some cinitPCB => exact ⟨_, rfl, h.faultDelegateNotification hpcb _ _ _ _⟩
  · exact ⟨_, rfl, h⟩

theorem Ok.handleVmFaultDspace (h : s.Ok) (hpcb : s.pcbs f.pid = some pcb)
    (hvs : s.vspaceState.vspaces f.pid = some vs)
    (htarget : (s.targets aw.winID).ramDataspace = some ID)
    (hdspace : s.dspaceList.table ID = some dspace) :
    (¬WaitsAtEnd dspace (s.dspaceFault f aw dspace) →
      ∃ r, s.handleVmFaultDspace f pcb vs aw = .ok r ∧ r.2.Ok) ∧
    (WaitsAtEnd dspace (s.dspaceFault f aw dspace) →
      s.handleVmFaultDspace f pcb vs aw = .error .assertion) := by
  have hinit := h.init ID dspace hdspace
  obtain ⟨hok, hassert⟩ := hinit.fault (f := s.dspaceFault f aw dspace) (callerReply_ne f)
  simp only [FaultServ.handleVmFaultDspace, htarget, hdspace]
  refine ⟨fun hnot => ?_, fun hwaits => by rw [hassert hwaits]; rfl⟩
  obtain ⟨⟨error, content⟩, hcall⟩ := hok hnot
  obtain ⟨added, rfl⟩ : AddsWaiters ⟨dspace, []⟩ content := handleVmFaultDspace_spec hcall
  have hset := h.setDspace hdspace (hinit.same (waiting_sameInit dspace added))
  rw [hcall]
  exact hset.finishVmFaultDspace hpcb hvs _ _ error

theorem Ok.handleVmFaultPager (h : s.Ok) (hpcb : s.pcbs f.pid = some pcb)
    (hpager : (s.targets aw.winID).pagerPID ≠ 0) :
    ∃ r, s.handleVmFaultPager f pcb aw window = .ok r ∧ r.2.Ok := by
  simp only [FaultServ.handleVmFaultPager, if_neg hpager]
  cases s.pcbs (s.targets aw.winID).pagerPID with
  | none => exact ⟨_, rfl, h⟩
  | some pagerPCB => exact ⟨_, rfl, h.faultDelegateNotification hpcb _ _ _ _⟩

/-- The tests of the permissions never refuse a fault. -/
theorem permissions_or_ne (permissions : Nat) :
    permissions ||| wPermissionRead ≠ 0 ∧ permissions ||| wPermissionWrite ≠ 0 := by
  constructor
  · exact fun h => absurd (Nat.or_eq_zero_iff.1 h).2 (by decide)
  · exact fun h => absurd (Nat.or_eq_zero_iff.1 h).2 (by decide)

/-- The fault is in a window and not refused before the mode of the window is looked at. -/
structure Reaches (s : FaultServ) (f : VmFault) (pcb : FaultPcb) (vs : Vspace)
    (aw : AssociatedWindow) (window : Window) : Prop where
  unblocked : pcb.faultReply = 0
  found : wAssociateFind vs.windows f.faultAddr = some aw
  window : wGetWindow s.vspaceState.windowList aw.winID = some window
  unmapped : (vs.pages (f.faultAddr / pageSize)).isSome = false

theorem Reaches.eq (h : Reaches s f pcb vs aw window) :
    s.handleVmFault f pcb vs =
      match window.mode with
      | .empty => .ok (.segfault, s.setVspace f.pid vs.lookedUp)
      | .anonymous => (s.setVspace f.pid vs.lookedUp).handleVmFaultDspace f pcb vs.lookedUp aw
      | .pager => (s.setVspace f.pid vs.lookedUp).handleVmFaultPager f pcb aw window := by
  have hperm := permissions_or_ne window.permissions
  have hget : wGetWindow (s.setVspace f.pid vs.lookedUp).vspaceState.windowList aw.winID =
      some window := h.window
  cases hmode : window.mode <;>
    simp only [FaultServ.handleVmFault, h.unblocked, h.found, hget, h.unmapped, hperm.1, hperm.2,
      ne_eq, not_true_eq_false, and_false, if_false, Bool.false_eq_true, hmode]

theorem Ok.refused (h : s.Ok) (hvs : s.vspaceState.vspaces f.pid = some vs)
    (hnot : ∀ aw window, ¬Reaches s f pcb vs aw window) :
    s.handleVmFault f pcb vs = .ok (.segfault, s) ∨
      s.handleVmFault f pcb vs = .ok (.segfault, s.setVspace f.pid vs.lookedUp) := by
  by_cases hblocked : pcb.faultReply = 0
  · refine Or.inr ?_
    cases hfind : wAssociateFind vs.windows f.faultAddr with
    | none =>
        simp only [FaultServ.handleVmFault, hblocked, hfind, ne_eq, not_true_eq_false, if_false]
    | some aw =>
        obtain ⟨window, hget, _⟩ := h.findable.get hvs (find_some hfind).1
        have hget' : wGetWindow (s.setVspace f.pid vs.lookedUp).vspaceState.windowList aw.winID =
          some window := hget
        have hperm := permissions_or_ne window.permissions
        have hmapped : (vs.pages (f.faultAddr / pageSize)).isSome = true := by
          cases hpage : (vs.pages (f.faultAddr / pageSize)).isSome with
          | true => rfl
          | false => exact absurd ⟨hblocked, hfind, hget, hpage⟩ (hnot aw window)
        simp only [FaultServ.handleVmFault, hblocked, hfind, hget', hmapped, hperm.1, hperm.2,
          ne_eq, not_true_eq_false, and_false, if_false, if_true]
  · refine Or.inl ?_
    simp only [FaultServ.handleVmFault, ne_eq, hblocked, not_false_eq_true, if_true]

/-- A fault that waits for the page behind the end of a dataspace. -/
def FaultAtEnd (s : FaultServ) (f : VmFault) (pcb : FaultPcb) (vs : Vspace) : Prop :=
  ∃ aw window ID dspace, Reaches s f pcb vs aw window ∧ window.mode = .anonymous ∧
    (s.targets aw.winID).ramDataspace = some ID ∧ s.dspaceList.table ID = some dspace ∧
    WaitsAtEnd dspace (s.dspaceFault f aw dspace)

/-- `handle_vm_fault` trips an assertion if and only if the fault is one of these. -/
theorem Ok.handleVmFault (h : s.Ok) (hpcb : s.pcbs f.pid = some pcb)
    (hvs : s.vspaceState.vspaces f.pid = some vs) :
    (¬FaultAtEnd s f pcb vs → ∃ r, s.handleVmFault f pcb vs = .ok r ∧ r.2.Ok) ∧
      (FaultAtEnd s f pcb vs → s.handleVmFault f pcb vs = .error .assertion) := by
  have hlooked : (s.setVspace f.pid vs.lookedUp).Ok :=
    h.setVspace hvs (h.findable.setVspace hvs (.lookedUp vs))
  have hvs' : (s.setVspace f.pid vs.lookedUp).vspaceState.vspaces f.pid = some vs.lookedUp :=
    setVspace_self _ _ _
  refine ⟨fun hnot => ?_, ?_⟩
  · by_cases hreach : ∃ aw window, Reaches s f pcb vs aw window
    · obtain ⟨aw, window, hreach⟩ := hreach
      have htarget := h.targets aw.winID window (wGetWindow_some hreach.window)
      rw [hreach.eq]
      cases hmode : window.mode with
      | empty => exact ⟨_, rfl, hlooked⟩
      | anonymous =>
          rw [hmode] at htarget
          obtain ⟨ID, hID, hlive⟩ := htarget
          obtain ⟨dspace, hdspace⟩ := Option.isSome_iff_exists.1 hlive
          refine (hlooked.handleVmFaultDspace hpcb hvs' hID hdspace).1 fun hwaits => hnot ?_
          exact ⟨aw, window, ID, dspace, hreach, hmode, hID, hdspace, hwaits⟩
      | pager =>
          rw [hmode] at htarget
          exact hlooked.handleVmFaultPager hpcb htarget
    · have hnone : ∀ aw window, ¬Reaches s f pcb vs aw window := fun aw window hr =>
        hreach ⟨aw, window, hr⟩
      rcases h.refused hvs hnone with heq | heq
      · exact ⟨_, heq, h⟩
      · exact ⟨_, heq, hlooked⟩
  · rintro ⟨aw, window, ID, dspace, hreach, hmode, hID, hdspace, hwaits⟩
    rw [hreach.eq, hmode]
    exact (hlooked.handleVmFaultDspace hpcb hvs' hID hdspace).2 hwaits

/-! ## Every call -/

/-- What `data_open_handler` does not survive: there is no id, or it refuses a device for the id
that `ram_dspace_get` refuses. -/
def OpenFails (s : FaultServ) (name : String) (size : Int) (device : Option Bool) : Prop :=
  0 < size ∧ (name = "" ∨ name = "anon") ∧
    (s.dspaceList.pool.alloc = none ∨
      device = some false ∧ ∃ pool, s.dspaceList.pool.alloc = some (ramDspaceMax, pool))

theorem Ok.addDspace (h : s.Ok) {t : Coat RamDspace} {ID : Nat} {dspace : RamDspace} (hok : t.Ok)
    (hstop : t.pool.stop = s.dspaceList.pool.stop)
    (htable : t.table = Function.update s.dspaceList.table ID (some dspace))
    (hinit : InitOk dspace) : { s with dspaceList := t }.Ok := by
  refine h.of_dspaces hok (hstop.trans h.stop) (fun i d hd => ?_) (fun i hi => ?_)
  · rw [htable] at hd
    by_cases heq : i = ID
    · subst heq
      rw [Function.update_self] at hd
      exact Option.some.inj hd ▸ hinit
    · rw [Function.update_of_ne heq] at hd
      exact h.init i d hd
  · rw [htable]
    by_cases heq : i = ID
    · subst heq
      rw [Function.update_self]
      rfl
    · rw [Function.update_of_ne heq]
      exact hi

theorem Ok.removeAdded (h : s.Ok) {t : Coat RamDspace} {ID : Nat} {dspace : RamDspace} (hok : t.Ok)
    (hstop : t.pool.stop = s.dspaceList.pool.stop)
    (htable : t.table = Function.update s.dspaceList.table ID (some dspace))
    (hfree : s.dspaceList.table ID = none) : { s with dspaceList := t.remove ID }.Ok := by
  have hlive : t.table ID = some dspace := by rw [htable, Function.update_self]
  have hback : (t.remove ID).table = s.dspaceList.table := by
    show Function.update t.table ID none = _
    rw [htable, Function.update_idem, ← hfree, Function.update_eq_self]
  obtain ⟨hok', _, hstop'⟩ := hok.remove hlive
  refine h.of_dspaces hok' (hstop'.trans (hstop.trans h.stop)) (fun i d hd => ?_) (fun i hi => ?_)
  · exact h.init i d (hback ▸ hd)
  · exact hback ▸ hi

/-- `data_open_handler` trips an assertion there and only there. -/
theorem Ok.dataOpenHandler (h : s.Ok) (name : String) (size : Int) (device : Option Bool) :
    (¬s.OpenFails name size device → ∃ s', s.dataOpenHandler name size device = .ok s' ∧ s'.Ok) ∧
      (s.OpenFails name size device → s.dataOpenHandler name size device = .error .assertion) := by
  by_cases hsize : size ≤ 0
  · refine ⟨fun _ => ⟨s, if_pos hsize, h⟩, fun hfails => absurd hfails.1 (by omega)⟩
  by_cases hname : name ≠ "" ∧ name ≠ "anon"
  · refine ⟨fun _ => ⟨s, (if_neg hsize).trans (if_pos hname), h⟩, fun hfails => ?_⟩
    rcases hfails.2.1 with heq | heq
    · exact absurd heq hname.1
    · exact absurd heq hname.2
  have hname' : name = "" ∨ name = "anon" := by
    by_contra hnot
    exact hname (not_or.1 hnot)
  simp only [FaultServ.dataOpenHandler, if_neg hsize, if_neg hname]
  have hinit := InitOk.create size.toNat (decide (device = some true))
  generalize ({ ramDspaceOatCreate size.toNat with
    physicalAddrEnabled := decide (device = some true) } : RamDspace) = dspace at hinit
  cases hpool : s.dspaceList.pool.alloc with
  | none =>
      have halloc : (s.dspaceList.alloc fun _ => some dspace).1 = none := by
        rw [Coat.alloc, hpool]
      rw [ramDataspaceInvalidID, Coat.create_of_alloc_none (by decide) halloc]
      refine ⟨fun hnot => absurd ⟨by omega, hname', Or.inl hpool⟩ hnot, fun _ => rfl⟩
  | some next =>
      obtain ⟨ID, pool⟩ := next
      obtain ⟨t, halloc⟩ := h.dspaces.alloc_of_pool (fun _ => some dspace) hpool rfl
      obtain ⟨hok, htable, hfree, _, _, _, hstop⟩ := h.dspaces.of_alloc_some halloc
      rw [ramDataspaceInvalidID, h.dspaces.create_of_alloc_some halloc]
      have hlast : s.OpenFails name size device ↔ device = some false ∧ ramDspaceMax = ID := by
        rw [OpenFails, hpool]
        constructor
        · rintro ⟨_, _, hnone | ⟨hdevice, pool', heq⟩⟩
          · cases hnone
          · exact ⟨hdevice, ((Prod.mk.inj (Option.some.inj heq)).1).symm⟩
        · rintro ⟨hdevice, rfl⟩
          exact ⟨by omega, hname', Or.inr ⟨hdevice, pool, rfl⟩⟩
      rw [hlast]
      have hle : ID ≤ ramDspaceMax := by
        have hrange := (h.dspaces.pool.alloc hpool).2.2.2.2.1.2
        rwa [h.stop] at hrange
      by_cases hdevice : device = some false
      · simp only [if_pos hdevice]
        by_cases hmax : ramDspaceMax ≤ ID
        · rw [if_pos hmax]
          exact ⟨fun hnot => absurd ⟨hdevice, Nat.le_antisymm hmax hle⟩ hnot, fun _ => rfl⟩
        · rw [if_neg hmax]
          refine ⟨fun _ => ⟨_, rfl, h.removeAdded hok hstop htable hfree⟩, fun hfails => ?_⟩
          exact absurd hfails.2 (by omega)
      · simp only [if_neg hdevice]
        exact ⟨fun _ => ⟨_, rfl, h.addDspace hok hstop htable hinit⟩,
          fun hfails => absurd hfails.1 hdevice⟩

theorem Ok.dataExpandHandler (h : s.Ok) (ID size : Nat) : (s.dataExpandHandler ID size).Ok := by
  rw [FaultServ.dataExpandHandler]
  cases hget : s.ramDspaceGet ID with
  | none => exact h
  | some dspace =>
      have hdspace := ramDspaceGet_some hget
      exact h.setDspace hdspace ((h.init ID dspace hdspace).same (sameInit_expand dspace size))

theorem Ok.dataDatamapHandler (h : s.Ok) (ID wID offset : Nat) :
    ∃ s', s.dataDatamapHandler ID wID offset = .ok s' ∧ s'.Ok := by
  rw [FaultServ.dataDatamapHandler]
  split
  next window dspace hwindow hget =>
    split_ifs
    · exact ⟨s, rfl, h⟩
    · refine h.switchWindow (wGetWindow_some hwindow) .anonymous _ ⟨ID, rfl, ?_⟩
      rw [ramDspaceGet_some hget]
      rfl
  next => exact ⟨s, rfl, h⟩

theorem Ok.dataDataunmapHandler (h : s.Ok) (wID : Nat) :
    ∃ s', s.dataDataunmapHandler wID = .ok s' ∧ s'.Ok := by
  rw [FaultServ.dataDataunmapHandler]
  cases hwindow : wGetWindow s.vspaceState.windowList wID with
  | none => exact ⟨s, rfl, h⟩
  | some window =>
      simp only
      split_ifs
      · exact h.switchWindow (wGetWindow_some hwindow) .empty _ trivial
      · exact ⟨s, rfl, h⟩

theorem Ok.dataHaveDataHandler (h : s.Ok) (hpcb : s.pcbs pid = some pcb) (ID : Nat)
    (faultNotifyEP : Option Nat) :
    ∃ s', s.dataHaveDataHandler pid ID faultNotifyEP = .ok s' ∧ s'.Ok := by
  have hpid : pid ≠ 0 := by
    rintro rfl
    rw [h.nullPid] at hpcb
    cases hpcb
  rw [FaultServ.dataHaveDataHandler]
  cases hget : s.ramDspaceGet ID with
  | none => exact ⟨s, rfl, h⟩
  | some dspace =>
      have hdspace := ramDspaceGet_some hget
      obtain ⟨r, hcall, hinit⟩ := (h.init ID dspace hdspace).haveData faultNotifyEP hpid
      exact ⟨_, by simp only [hcall]; rfl, h.setDspace hdspace hinit⟩

/-- `data_provide_data_from_parambuffer_handler` trips an assertion if and only if the parameter
buffer is too small. -/
theorem Ok.dataProvideDataHandler (h : s.Ok) (pcb : FaultPcb) (ID offset contentSize : Nat) :
    let holds := (s.ramDspaceGet ID).isSome = true →
      ParamHolds (pcb.paramBuffer.bind s.dspaceList.table) contentSize
    (holds → ∃ s', s.dataProvideDataHandler pcb ID offset contentSize = .ok s' ∧ s'.Ok) ∧
      (¬holds → s.dataProvideDataHandler pcb ID offset contentSize = .error .assertion) := by
  intro holds
  rw [FaultServ.dataProvideDataHandler]
  cases hget : s.ramDspaceGet ID with
  | none =>
      refine ⟨fun _ => ⟨s, rfl, h⟩, fun hnot => absurd (fun hsome => ?_) hnot⟩
      rw [hget] at hsome
      cases hsome
  | some dspace =>
      have hdspace := ramDspaceGet_some hget
      obtain ⟨hread, hassert⟩ :=
        dispatcherReadParam_cases (pcb.paramBuffer.bind s.dspaceList.table) contentSize
      simp only [Refos.dataProvideDataHandler]
      refine ⟨fun hholds => ?_, fun hnot => ?_⟩
      · obtain ⟨param, hparam⟩ := hread (hholds (by rw [hget]; rfl))
        obtain ⟨r, hcall, hsame⟩ := provideData_ok ⟨dspace, []⟩ param
          (fun k buf => ramDspaceWrite (fun _ => true) k buf dspace offset) offset contentSize
          fun _ _ _ _ _ hwrite => ramDspaceWrite_frame hwrite
        refine ⟨_, ?_, h.setDspace hdspace ((h.init ID dspace hdspace).same hsame)⟩
        rw [hparam, hcall]
        rfl
      · rw [hassert fun hparam => hnot fun _ => hparam]
        rfl

theorem Ok.procSetParambufferHandler (h : s.Ok) (hpcb : s.pcbs pid = some pcb)
    (ID : Option Nat) : (s.procSetParambufferHandler pid pcb ID).Ok := by
  cases ID with
  | none => exact h.setPcb hpcb fun _ hnone => nomatch hnone
  | some ID =>
      rw [FaultServ.procSetParambufferHandler]
      cases hget : s.ramDspaceGet ID with
      | none => exact h
      | some dspace =>
          refine h.setPcb hpcb fun i hi => ?_
          obtain rfl := Option.some.inj hi
          rw [ramDspaceGet_some hget]
          rfl

theorem Ok.procNotificationBufferHandler (h : s.Ok) (hpcb : s.pcbs pid = some pcb) (ID : Nat) :
    (s.procNotificationBufferHandler pid pcb ID).Ok := by
  rw [FaultServ.procNotificationBufferHandler]
  cases s.ramDspaceGet ID with
  | none => exact h
  | some dspace => exact h.setPcb hpcb fun i hi => h.params pid pcb i hpcb hi

theorem Ok.procRegisterAsPagerHandler (h : s.Ok) (hpid : pid ≠ 0) {wID endpoint : Nat}
    {s' : FaultServ} (hs' : s.procRegisterAsPagerHandler pid wID endpoint = .ok s') : s'.Ok := by
  rw [FaultServ.procRegisterAsPagerHandler] at hs'
  cases hget : wGetWindow s.vspaceState.windowList wID with
  | none =>
      simp only [hget] at hs'
      exact Except.ok.inj hs' ▸ h
  | some window =>
      have hwindow := wGetWindow_some hget
      simp only [hget] at hs'
      split_ifs at hs'
      · obtain ⟨t, ht, hok⟩ := h.switchWindow hwindow .empty {} trivial
        exact Except.ok.inj (ht.symm.trans hs') ▸ hok
      · obtain ⟨t, ht, hok⟩ := h.switchWindow hwindow .pager
          { pager := endpoint, pagerPID := pid } hpid
        exact Except.ok.inj (ht.symm.trans hs') ▸ hok

end FaultServ

/-- When a call trips no assertion. -/
def SafeCall (s : FaultServ) : MemCall → Prop
  | .dataOpen name size device => ¬s.OpenFails name size device
  | .dataProvideData pid ID _ contentSize =>
      ∀ pcb, s.pcbs pid = some pcb → (s.ramDspaceGet ID).isSome = true →
        ParamHolds (pcb.paramBuffer.bind s.dspaceList.table) contentSize
  | .fault f =>
      ∀ pcb vs, s.pcbs f.pid = some pcb → s.vspaceState.vspaces f.pid = some vs →
        ¬s.FaultAtEnd f pcb vs
  | _ => True

/-- **Every call on memory.** -/
theorem memCall_spec {s : FaultServ} (h : s.Ok) (c : MemCall) :
    (SafeCall s c → ∃ s', memCall s c = .ok s' ∧ s'.Ok) ∧
      (¬SafeCall s c → memCall s c = .error .assertion) := by
  cases c with
  | dataOpen name size device =>
      obtain ⟨hok, hassert⟩ := h.dataOpenHandler name size device
      exact ⟨hok, fun hnot => hassert (not_not.1 hnot)⟩
  | dataExpand ID size =>
      exact ⟨fun _ => ⟨_, rfl, h.dataExpandHandler ID size⟩, fun hnot => absurd trivial hnot⟩
  | dataDatamap ID wID offset =>
      exact ⟨fun _ => h.dataDatamapHandler ID wID offset, fun hnot => absurd trivial hnot⟩
  | dataDataunmap wID =>
      exact ⟨fun _ => h.dataDataunmapHandler wID, fun hnot => absurd trivial hnot⟩
  | dataHaveData pid ID faultNotifyEP =>
      refine ⟨fun _ => ?_, fun hnot => absurd trivial hnot⟩
      rw [memCall]
      cases hpcb : s.pcbs pid with
      | none => exact ⟨s, rfl, h⟩
      | some pcb => exact h.dataHaveDataHandler hpcb ID faultNotifyEP
  | dataProvideData pid ID offset contentSize =>
      simp only [memCall, SafeCall]
      cases hpcb : s.pcbs pid with
      | none =>
          exact ⟨fun _ => ⟨s, rfl, h⟩, fun hnot => absurd (fun _ hnone => nomatch hnone) hnot⟩
      | some pcb =>
          obtain ⟨hok, hassert⟩ := h.dataProvideDataHandler pcb ID offset contentSize
          refine ⟨fun hsafe => hok (hsafe pcb rfl), fun hnot => hassert fun hholds => hnot ?_⟩
          intro pcb' hpcb'
          obtain rfl := Option.some.inj hpcb'
          exact hholds
  | fault f =>
      simp only [memCall, SafeCall]
      cases hpcb : s.pcbs f.pid with
      | none =>
          exact ⟨fun _ => ⟨s, rfl, h⟩, fun hnot => absurd (fun _ _ hnone => nomatch hnone) hnot⟩
      | some pcb =>
          have hsome := h.processes f.pid
          rw [hpcb] at hsome
          obtain ⟨vs, hvs⟩ := Option.isSome_iff_exists.1 hsome.symm
          rw [hvs]
          obtain ⟨hok, hassert⟩ := h.handleVmFault hpcb hvs
          refine ⟨fun hsafe => ?_, fun hnot => ?_⟩
          · obtain ⟨⟨result, s'⟩, hcall, hok'⟩ := hok (hsafe pcb vs rfl rfl)
            exact ⟨s', by simp only [hcall]; rfl, hok'⟩
          · have hatEnd : s.FaultAtEnd f pcb vs := by
              by_contra hno
              refine hnot fun pcb' vs' hpcb' hvs' => ?_
              obtain rfl := Option.some.inj hpcb'
              obtain rfl := Option.some.inj hvs'
              exact hno
            simp only [hassert hatEnd]
            rfl

theorem FaultServ.Ok.memStep {s : FaultServ} (h : s.Ok) {e : MemEvent} {t : VspaceState}
    (ht : memStep s.vspaceState e = .ok t) : { s with vspaceState := t }.Ok := by
  have hmodes := memStep_keepsModes h.findable.toVspaceOk ht
  obtain ⟨e', hok, hchanges⟩ : ∃ e', VspaceOk t ∧ Changes s.vspaceState t e' := by
    cases e with
    | createMemWindow pid vaddr size permissions cached reservation memory =>
        rw [Refos.memStep] at ht
        split_ifs at ht
        · obtain rfl := Except.ok.inj ht
          exact ⟨.unmap 0 0 0, h.findable.toVspaceOk, (StateLooks.of_vspaces_eq rfl).unmaps⟩
        · exact ⟨_, vspaceStep_spec h.findable.toVspaceOk ht⟩
    | resizeMemWindow pid wID size moved =>
        exact ⟨.resize pid wID size moved, vspaceStep_spec h.findable.toVspaceOk ht⟩
    | deleteMemWindow pid wID =>
        exact ⟨.delete pid wID, vspaceStep_spec h.findable.toVspaceOk ht⟩
  refine ⟨h.findable.changes hok hchanges hmodes.stop, fun wID window hwindow => ?_, h.dspaces,
    h.stop, h.init, h.params, fun pid => ?_, h.nullPid⟩
  · rcases hmodes.mode wID window hwindow with hempty | ⟨old, hold, hmode⟩
    · rw [hempty]
      trivial
    · rw [← hmode]
      exact h.targets wID old hold
  · rw [h.processes]
    cases hvs : s.vspaceState.vspaces pid with
    | none => rw [(hchanges pid).1 hvs]
    | some vs =>
        obtain ⟨vs', hvs', _⟩ := (hchanges pid).2 vs hvs
        rw [hvs']
        rfl

theorem faultServStep_ok {s s' : FaultServ} {e : ServEvent} (h : s.Ok)
    (hs' : faultServStep s e = .ok s') : s'.Ok := by
  cases e with
  | call c =>
      obtain ⟨hok, hassert⟩ := memCall_spec h c
      rw [faultServStep] at hs'
      by_cases hsafe : SafeCall s c
      · obtain ⟨t, ht, hok'⟩ := hok hsafe
        obtain rfl := Except.ok.inj (ht.symm.trans hs')
        exact hok'
      · rw [hassert hsafe] at hs'
        cases hs'
  | window e =>
      obtain ⟨t, ht, hs'⟩ := bind_eq_ok_iff.1 hs'
      obtain rfl := Except.ok.inj hs'
      exact h.memStep ht
  | setParambuffer pid ID =>
      simp only [faultServStep] at hs'
      cases hpcb : s.pcbs pid with
      | none =>
          simp only [hpcb] at hs'
          exact Except.ok.inj hs' ▸ h
      | some pcb =>
          simp only [hpcb] at hs'
          exact Except.ok.inj hs' ▸ h.procSetParambufferHandler hpcb ID
  | notificationBuffer pid ID =>
      simp only [faultServStep] at hs'
      cases hpcb : s.pcbs pid with
      | none =>
          simp only [hpcb] at hs'
          exact Except.ok.inj hs' ▸ h
      | some pcb =>
          simp only [hpcb] at hs'
          exact Except.ok.inj hs' ▸ h.procNotificationBufferHandler hpcb ID
  | registerAsPager pid wID endpoint =>
      simp only [faultServStep] at hs'
      cases hpcb : s.pcbs pid with
      | none =>
          simp only [hpcb] at hs'
          exact Except.ok.inj hs' ▸ h
      | some pcb =>
          have hpid : pid ≠ 0 := by
            rintro rfl
            rw [h.nullPid] at hpcb
            cases hpcb
          simp only [hpcb] at hs'
          exact h.procRegisterAsPagerHandler hpid hs'

theorem faultServ_ok {pids : Nat → Bool} (hpids : pids 0 = false) {evs : List ServEvent}
    {s : FaultServ} (hrun : Run faultServStep (fun _ _ => True) (faultServInit pids) evs s) :
    s.Ok :=
  hrun.invariant (.init_state hpids) fun _ _ _ h _ hs' => faultServStep_ok h hs'

/-- **No assertion.** In every state that calls, faults and requests lead to, whatever the processes
are, a call on memory or a page fault is served, without an assertion that fails, if and only if it
is safe. -/
theorem no_assertion_iff {pids : Nat → Bool} (hpids : pids 0 = false) {evs : List ServEvent}
    {s : FaultServ} (hrun : Run faultServStep (fun _ _ => True) (faultServInit pids) evs s)
    (c : MemCall) : (∃ s', memCall s c = .ok s') ↔ SafeCall s c := by
  obtain ⟨hok, hassert⟩ := memCall_spec (faultServ_ok hpids hrun) c
  constructor
  · rintro ⟨s', hs'⟩
    by_contra hunsafe
    rw [hassert hunsafe] at hs'
    cases hs'
  · intro hsafe
    obtain ⟨s', hs', _⟩ := hok hsafe
    exact ⟨s', hs'⟩

/-- Process 1 has a window of two pages on a dataspace of one page, with process 2 as the content
initialiser; the parameter buffer of process 2 has one page too. -/
def smallDspace : List ServEvent :=
  [.window (.createMemWindow 1 0x10000 0x2000 3 true (some 0x10000) true),
    .call (.dataOpen "anon" 0x1000 none), .call (.dataHaveData 2 1 (some 7)),
    .call (.dataDatamap 1 1 0), .call (.dataOpen "anon" 0x1000 none), .setParambuffer 2 (some 2)]

/-- A fault of process 1, where nothing fails. -/
def faultAt (faultAddr : Nat) (read : Bool) : VmFault where
  pid := 1
  pc := 0x8000
  faultAddr := faultAddr
  instruction := 0
  read := read
  frame := some 9
  memory := true
  mapped := true
  cslot := some ⟨5, by decide⟩
  saved := true
  written := true

/-- The first page is safe to fault on, the second one is not. -/
theorem no_assertion_iff_smallDspace :
    ∃ s, Run faultServStep (fun _ _ => True) (faultServInit fun pid => pid = 1 ∨ pid = 2)
        smallDspace s ∧
      SafeCall s (.fault (faultAt 0x10000 true)) ∧ ¬SafeCall s (.fault (faultAt 0x11000 true)) := by
  obtain ⟨s, hrun, hfirst, hsecond⟩ := Run.exists_of_exec
    (P := fun s => (memCall s (.fault (faultAt 0x10000 true))).toOption.isSome = true ∧
      (memCall s (.fault (faultAt 0x11000 true))).toOption.isSome = false)
    (show (Run.exec faultServStep (fun _ _ => True) smallDspace
      (faultServInit fun pid => pid = 1 ∨ pid = 2)).any _ = true by decide +kernel)
  refine ⟨s, hrun, (no_assertion_iff rfl hrun _).1 ?_, fun hsafe => ?_⟩
  · obtain ⟨s', hs'⟩ := Option.isSome_iff_exists.1 hfirst
    exact ⟨s', eq_ok_of_toOption hs'⟩
  · obtain ⟨s', hs'⟩ := (no_assertion_iff rfl hrun _).2 hsafe
    rw [hs'] at hsecond
    cases hsecond

/-- A fault right behind the end of the dataspace trips an assertion, and so does data that is
larger than the parameter buffer. -/
theorem assertions_reached :
    ∃ s, Run faultServStep (fun _ _ => True) (faultServInit fun pid => pid = 1 ∨ pid = 2)
        smallDspace s ∧
      memCall s (.fault (faultAt 0x11000 true)) = .error .assertion ∧
      memCall s (.dataProvideData 2 1 0 0x2000) = .error .assertion := by
  obtain ⟨s, hrun, hfault, hprovide⟩ := Run.exists_of_exec
    (P := fun s => (memCall s (.fault (faultAt 0x11000 true))).toOption.isSome = false ∧
      (memCall s (.dataProvideData 2 1 0 0x2000)).toOption.isSome = false)
    (show (Run.exec faultServStep (fun _ _ => True) smallDspace
      (faultServInit fun pid => pid = 1 ∨ pid = 2)).any _ = true by decide +kernel)
  have hassert : ∀ c, (memCall s c).toOption.isSome = false → memCall s c = .error .assertion := by
    intro c hc
    obtain ⟨hok, hassert⟩ := memCall_spec (faultServ_ok rfl hrun) c
    refine hassert fun hsafe => ?_
    obtain ⟨s', hs', _⟩ := hok hsafe
    rw [hs'] at hc
    cases hc
  exact ⟨s, hrun, hassert _ hfault, hassert _ hprovide⟩

end PartitionSeL4.Refos
