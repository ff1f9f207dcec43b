import PartitionSeL4.Refos.Anonymous
import PartitionSeL4.Refos.VspaceProof

/-!
# Device frames in windows

`vs_map_device` maps one frame of a device at an offset in a window. It compares the end of the page
with the size of the window, and `vs_map` asks whether some window holds the page. Both sums, that
of the offset and the size and that of the base and the offset, are sums of 32 bits. An offset just
below 2^32 passes the comparison, and the page is one below the base of the window: if there is a
window, it is mapped there (`device_page_in_neighbour`).

`device_inside_iff` says when the page of every call that succeeds lies in the window.
-/

namespace PartitionSeL4.Refos

open Lib

/-! ## The calls -/

/-- `procserv_find_device`, with the frame that `simple_get_frame_cap` gets for an address and a
number of bits. -/
def procservFindDevice (frameCap : Nat → Nat → Option Nat) (paddr size : Nat) : Option Nat :=
  match (List.range 32).find? fun i => 2 ^ i = size with
  | none => none
  | some sizeBits => frameCap paddr sizeBits

/-- A call of `vs_map_device` for the window `wID`, and what the calls outside do in it. -/
structure DeviceCall where
  wID : Nat
  window : Window
  windowOffset : Nat
  paddr : Nat
  size : Nat
  cached : Bool
  frameCap : Nat → Nat → Option Nat
  memory : Bool
  mapped : Bool

/-- `vs_map_device` -/
def vsMapDevice (s : VspaceState) (pid : Nat) (c : DeviceCall) :
    Except Failure (Err × VspaceState) :=
  if c.size ≠ pageSize then .error .assertion
  else if c.window.size < u32 (c.windowOffset + c.size) then .ok (.invalidParam, s)
  else
    match s.vspaces c.window.clientOwnerPID with
    | none => .ok (.invalid, s)
    | some client =>
        if c.window.clientOwnerPID ≠ pid then .ok (.accessDenied, s)
        else
          match wAssociateFindWinID client.windows c.wID with
          | none => .ok (.invalidWindow, s.setVspace pid client.lookedUp)
          | some wa =>
              if c.cached ≠ c.window.cacheable then
                .ok (.accessDenied, s.setVspace pid client.lookedUp)
              else
                match procservFindDevice c.frameCap c.paddr c.size with
                | none => .ok (.fileNotFound, s.setVspace pid client.lookedUp)
                | some deviceFrame => do
                    let (error, client) ← vsMap s.windowList client.lookedUp
                      (u32 (wa.offset + c.windowOffset)) [deviceFrame] c.memory c.mapped
                    return (error, s.setVspace pid client)

/-- `PROCESS_PERMISSION_DEVICE_MAP` -/
def processPermissionDeviceMap : Nat := 0x0001

/-- `proc_device_map_handler`, with the system capabilities of the caller. The `window` of the call
is the one that is looked up. `caps` is the answer of `check_dispatch_caps`. -/
def procDeviceMapHandler (s : VspaceState) (systemCapabilitiesMask : Nat) (caps : Bool)
    (c : DeviceCall) : Except Failure (Err × VspaceState) :=
  if caps = false then .ok (.invalidParam, s)
  else if systemCapabilitiesMask &&& processPermissionDeviceMap = 0 then .ok (.accessDenied, s)
  else
    match wGetWindow s.windowList c.wID with
    | none => .ok (.invalidWindow, s)
    | some window =>
        match s.vspaces window.clientOwnerPID with
        | none => .ok (.invalid, s)
        | some _ => vsMapDevice s window.clientOwnerPID { c with window := window }

/-! ## The property -/

/-- One page that was not mapped is mapped, and no other page of any process changes. -/
structure MapsOne (s : VspaceState) (pid : Nat) (vs : Vspace) (page : Nat) (s' : VspaceState) :
    Prop where
  unmapped : vs.pages page = none
  mapped : ∃ frame, (s'.vspaces pid).map Vspace.pages =
    some (Function.update vs.pages page (some ⟨frame, true⟩))
  others : ∀ q, q ≠ pid → s'.vspaces q = s.vspaces q

/-- The page lies in the window, and in no other that is apart from it. -/
structure OnlyInside (vs : Vspace) (window : AssociatedWindow) (page : Nat) : Prop where
  inside : window.HoldsPage page
  outside : ∀ w ∈ vs.windows.associated, Apart w window → w.Clear (page * pageSize) pageSize

/-- The range of the window that is passed: the base it is associated with, and its size. -/
def DeviceCall.range (c : DeviceCall) (wa : AssociatedWindow) : AssociatedWindow :=
  ⟨c.wID, wa.offset, c.window.size⟩

/-- A call that succeeds maps one page, which lies in the window that is passed. -/
def DeviceInside (s : VspaceState) (pid : Nat) (c : DeviceCall) : Prop :=
  ∀ s', vsMapDevice s pid c = .ok (.success, s') → ∃ vs wa page, s.vspaces pid = some vs ∧
    wAssociateFindWinID vs.windows c.wID = some wa ∧ MapsOne s pid vs page s' ∧
    OnlyInside vs (c.range wa) page

/-! ## The condition -/

/-- No check of `vs_map_device` and of `vs_map` refuses the call, and the calls outside do not
fail. -/
structure DeviceAccepted (s : VspaceState) (pid : Nat) (c : DeviceCall) (vs : Vspace)
    (wa : AssociatedWindow) : Prop where
  size : c.size = pageSize
  bound : u32 (c.windowOffset + pageSize) ≤ c.window.size
  space : s.vspaces pid = some vs
  owner : c.window.clientOwnerPID = pid
  associated : wAssociateFindWinID vs.windows c.wID = some wa
  cached : c.cached = c.window.cacheable
  device : (procservFindDevice c.frameCap c.paddr pageSize).isSome = true
  range : ∃ w window, wAssociateFindRange vs.windows
      (pageAlign (u32 (wa.offset + c.windowOffset))) pageSize = some w ∧
    wGetWindow s.windowList w.winID = some window ∧ window.clientOwnerPID = vs.pid
  unmapped : vs.pages (u32 (wa.offset + c.windowOffset) / pageSize) = none
  memory : c.memory = true
  mapped : c.mapped = true

/-- Neither of the two sums passes the end of the 32 bits, and the page of the address does not
begin below the window. -/
structure DeviceFits (c : DeviceCall) (wa : AssociatedWindow) : Prop where
  offset : c.windowOffset + pageSize < 2 ^ 32
  address : wa.offset + c.windowOffset < 2 ^ 32
  base : wa.offset ≤ pageAlign (wa.offset + c.windowOffset)

section Device

variable {s s' : VspaceState} {pid : Nat} {c : DeviceCall} {vs : Vspace}
  {wa : AssociatedWindow}

/-! ## One frame -/

theorem vsMap_one_success {windowList : Coat Window} {vs' : Vspace} {vaddr frame : Nat}
    {memory mapped : Bool} (hvaddr : vaddr < 2 ^ 32) :
    vsMap windowList vs vaddr [frame] memory mapped = .ok (.success, vs') ↔
      (∃ w window, wAssociateFindRange vs.windows (pageAlign vaddr) pageSize = some w ∧
        wGetWindow windowList w.winID = some window ∧ window.clientOwnerPID = vs.pid) ∧
      vs.pages (vaddr / pageSize) = none ∧ memory = true ∧ mapped = true ∧
      vs' = { vs.lookedUp with
        pages := Function.update vs.pages (vaddr / pageSize) (some ⟨frame, true⟩) } := by
  rw [vsMap_single hvaddr]
  cases hfind : wAssociateFindRange vs.windows (pageAlign vaddr) pageSize with
  | none =>
      constructor
      · intro h
        cases h
      · rintro ⟨⟨w, window, hw, _⟩, _⟩
        cases hw
  | some w =>
      cases hget : wGetWindow windowList w.winID with
      | none =>
          constructor
          · intro h
            simp only [hget, reduceCtorEq] at h
          · rintro ⟨⟨w', window, hw, hwindow, _⟩, _⟩
            obtain rfl := Option.some.inj hw
            rw [hget] at hwindow
            cases hwindow
      | some window =>
          simp only [hget]
          constructor
          · intro h
            split_ifs at h with howner hunmapped hmemory hmapped <;>
              simp only [Except.ok.injEq, Prod.mk.injEq, reduceCtorEq, false_and, true_and] at h
            refine ⟨⟨w, window, rfl, hget, not_not.1 howner⟩, ?_, ?_, ?_, h.symm⟩
            · simpa using hunmapped
            · simpa using hmemory
            · simpa using hmapped
          · rintro ⟨⟨w', window', hw, hwindow, howner⟩, hunmapped, rfl, rfl, rfl⟩
            obtain rfl := Option.some.inj hw
            obtain rfl := Option.some.inj (hget.symm.trans hwindow)
            simp only [howner, hunmapped, ne_eq, not_true_eq_false, if_false, Option.isSome_none,
              Bool.false_eq_true, reduceCtorEq]

/-- The state after a frame has been mapped. -/
def afterDevice (s : VspaceState) (pid : Nat) (c : DeviceCall) (vs : Vspace)
    (wa : AssociatedWindow) (frame : Nat) : VspaceState :=
  s.setVspace pid { vs.lookedUp with
    pages := Function.update vs.pages (u32 (wa.offset + c.windowOffset) / pageSize)
      (some ⟨frame, true⟩) }

theorem DeviceAccepted.eq (h : DeviceAccepted s pid c vs wa) {frame : Nat}
    (hframe : procservFindDevice c.frameCap c.paddr pageSize = some frame) :
    vsMapDevice s pid c = .ok (.success, afterDevice s pid c vs wa frame) := by
  have hspace : s.vspaces c.window.clientOwnerPID = some vs := by rw [h.owner, h.space]
  obtain ⟨w, window, hfind, hget, howner⟩ := h.range
  rw [← findRange_lookedUp] at hfind
  have hmap := (@vsMap_one_success vs.lookedUp s.windowList _ _ frame _ _ (u32_lt _)).2
    ⟨⟨w, window, hfind, hget, howner⟩, h.unmapped, h.memory, h.mapped, rfl⟩
  rw [lookedUp_lookedUp] at hmap
  rw [vsMapDevice, h.size, if_neg (not_not.2 rfl), if_neg (Nat.not_lt.2 h.bound), hspace]
  simp only [h.owner, h.associated, h.cached, hframe, ne_eq, not_true_eq_false, if_false, hmap]
  rfl

theorem accepted_of_success (h : vsMapDevice s pid c = .ok (.success, s')) :
    ∃ vs wa frame, DeviceAccepted s pid c vs wa ∧ s' = afterDevice s pid c vs wa frame := by
  rw [vsMapDevice] at h
  by_cases hsize : c.size = pageSize
  swap
  · rw [if_pos hsize] at h
    cases h
  rw [if_neg (not_not.2 hsize), hsize] at h
  by_cases hbound : c.window.size < u32 (c.windowOffset + pageSize)
  · rw [if_pos hbound] at h
    cases h
  rw [if_neg hbound] at h
  cases hspace : s.vspaces c.window.clientOwnerPID with
  | none => simp [hspace] at h
  | some vs =>
      simp only [hspace] at h
      by_cases howner : c.window.clientOwnerPID = pid
      swap
      · rw [if_pos howner] at h
        cases h
      rw [if_neg (not_not.2 howner)] at h
      cases hassociated : wAssociateFindWinID vs.windows c.wID with
      | none => simp [hassociated] at h
      | some wa =>
          simp only [hassociated] at h
          by_cases hcached : c.cached = c.window.cacheable
          swap
          · rw [if_pos hcached] at h
            cases h
          rw [if_neg (not_not.2 hcached)] at h
          cases hframe : procservFindDevice c.frameCap c.paddr pageSize with
          | none => simp [hframe] at h
          | some frame =>
              simp only [hframe] at h
              obtain ⟨⟨error, vs'⟩, hmap, h⟩ := bind_eq_ok_iff.1 h
              obtain ⟨rfl, rfl⟩ := Prod.mk.inj (Except.ok.inj h)
              obtain ⟨⟨w, window, hfind, hget, hpid⟩, hunmapped, hmemory, hmapped, hvs⟩ :=
                (vsMap_one_success (u32_lt _)).1 hmap
              rw [findRange_lookedUp] at hfind
              rw [lookedUp_lookedUp] at hvs
              rw [howner] at hspace
              exact ⟨vs, wa, frame, ⟨hsize, Nat.not_lt.1 hbound, hspace, howner, hassociated,
                hcached, by rw [hframe]; rfl, ⟨w, window, hfind, hget, hpid⟩, hunmapped,
                hmemory, hmapped⟩, congrArg (s.setVspace pid) hvs⟩

/-! ## The page of a call -/

theorem onlyInside_iff {window : AssociatedWindow} {page : Nat} :
    OnlyInside vs window page ↔ window.HoldsPage page := by
  refine ⟨OnlyInside.inside, fun hinside => ⟨hinside, fun w _ hapart addr hle hlt hholds => ?_⟩⟩
  simp only [AssociatedWindow.HoldsPage, AssociatedWindow.Holds, Apart, pageSize] at *
  omega

/-- The page of a call that is accepted lies in the window if and only if the call fits. -/
theorem DeviceAccepted.holdsPage_iff (h : DeviceAccepted s pid c vs wa)
    (hword : c.windowOffset < 2 ^ 32) :
    (c.range wa).HoldsPage (u32 (wa.offset + c.windowOffset) / pageSize) ↔ DeviceFits c wa := by
  have hbound := h.bound
  constructor
  · rintro ⟨hbase, hend⟩
    have hle : u32 (wa.offset + c.windowOffset) / pageSize * pageSize ≤
        u32 (wa.offset + c.windowOffset) := Nat.div_mul_le_self _ _
    -- a sum that wraps around is below the base
    have haddress : wa.offset + c.windowOffset < 2 ^ 32 := by
      simp only [DeviceCall.range, u32] at hbase hle
      omega
    rw [u32_of_lt haddress] at hbase hle
    refine ⟨?_, haddress, ?_⟩
    · by_contra hwraps
      -- then the page is the last one, and `w_associate_find_range` finds no window
      obtain ⟨w, window, hfind, _⟩ := h.range
      have hlast := contains_lt (findRange_contains hfind).2.2
      simp only [u32, pageAlign, pageSize] at *
      omega
    · simp only [DeviceCall.range, pageAlign, pageSize] at *
      omega
  · rintro ⟨hoffset, haddress, hbase⟩
    rw [u32_of_lt hoffset] at hbound
    rw [u32_of_lt haddress]
    simp only [DeviceCall.range, AssociatedWindow.HoldsPage, pageAlign, pageSize] at *
    omega

theorem DeviceAccepted.mapsOne (h : DeviceAccepted s pid c vs wa) (frame : Nat) :
    MapsOne s pid vs (u32 (wa.offset + c.windowOffset) / pageSize)
      (afterDevice s pid c vs wa frame) where
  unmapped := h.unmapped
  mapped := ⟨frame, congrArg (Option.map Vspace.pages) (setVspace_self _ _ _)⟩
  others _ hq := setVspace_of_ne _ _ _ hq

theorem MapsOne.page_eq {page frame : Nat}
    (hmaps : MapsOne s pid vs page (afterDevice s pid c vs wa frame)) :
    page = u32 (wa.offset + c.windowOffset) / pageSize := by
  obtain ⟨hunmapped, ⟨frame', hpages⟩, _⟩ := hmaps
  have heq : some (Function.update vs.pages (u32 (wa.offset + c.windowOffset) / pageSize)
      (some ⟨frame, true⟩)) = some (Function.update vs.pages page (some ⟨frame', true⟩)) :=
    (congrArg (Option.map Vspace.pages) (setVspace_self _ _ _)).symm.trans hpages
  by_contra hne
  have hpage := congrFun (Option.some.inj heq) page
  rw [Function.update_of_ne hne, Function.update_self, hunmapped] at hpage
  cases hpage

/-- In a list of disjoint windows, where the window that is passed has the size of its entry, the
condition is that the sum of the offset and the size does not pass the end of the 32 bits. -/
theorem DeviceAccepted.fits_iff (h : DeviceAccepted s pid c vs wa)
    (hfits : Fits vs.windows.associated) (hapart : vs.windows.associated.Pairwise Apart)
    (hsize : c.window.size = wa.size) :
    DeviceFits c wa ↔ c.windowOffset + pageSize < 2 ^ 32 := by
  refine ⟨DeviceFits.offset, fun hoffset => ?_⟩
  have hbound := h.bound
  obtain ⟨w, window, hfind, _⟩ := h.range
  obtain ⟨hw, hfirst, hlast⟩ := findRange_some hfind
  have hwa : wa ∈ vs.windows.associated :=
    (update_perm vs.windows).mem_iff.1 (List.mem_of_find?_eq_some h.associated)
  have hend := (hfits wa hwa).2
  rw [u32_of_lt hoffset, hsize] at hbound
  have haddress : wa.offset + c.windowOffset < 2 ^ 32 := by omega
  rw [u32_of_lt haddress] at hfirst hlast
  -- the window that is found and the entry of the one that is passed hold the address
  have hholds : wa.Holds (wa.offset + c.windowOffset) := by
    simp only [AssociatedWindow.Holds, pageSize] at hbound ⊢
    omega
  have hholds' : w.Holds (wa.offset + c.windowOffset) := by
    simp only [AssociatedWindow.Holds, u32, pageAlign, pageSize] at hfirst hlast ⊢
    omega
  obtain rfl := eq_of_holds hapart hw hwa hholds' hholds
  exact ⟨hoffset, haddress, hfirst.1⟩

theorem DeviceInside.fits (hinside : DeviceInside s pid c) (hword : c.windowOffset < 2 ^ 32)
    (h : DeviceAccepted s pid c vs wa) : DeviceFits c wa := by
  obtain ⟨frame, hframe⟩ := Option.isSome_iff_exists.1 h.device
  obtain ⟨vs', wa', page, hvs', hwa', hmaps, honly⟩ := hinside _ (h.eq hframe)
  obtain rfl := Option.some.inj (h.space.symm.trans hvs')
  obtain rfl := Option.some.inj (h.associated.symm.trans hwa')
  obtain rfl := hmaps.page_eq
  exact (h.holdsPage_iff hword).1 honly.inside

/-- A request that succeeds is a call of `vs_map_device` for the owner of the window. -/
theorem procDeviceMapHandler_success {systemCapabilitiesMask : Nat} {caps : Bool}
    (h : procDeviceMapHandler s systemCapabilitiesMask caps c = .ok (.success, s')) :
    ∃ window, wGetWindow s.windowList c.wID = some window ∧
      vsMapDevice s window.clientOwnerPID { c with window := window } = .ok (.success, s') := by
  rw [procDeviceMapHandler] at h
  by_cases hcaps : caps = false
  · rw [if_pos hcaps] at h
    cases h
  by_cases hmask : systemCapabilitiesMask &&& processPermissionDeviceMap = 0
  · rw [if_neg hcaps, if_pos hmask] at h
    cases h
  rw [if_neg hcaps, if_neg hmask] at h
  cases hget : wGetWindow s.windowList c.wID with
  | none => simp [hget] at h
  | some window =>
      cases hspace : s.vspaces window.clientOwnerPID with
      | none => simp [hget, hspace] at h
      | some vs =>
          simp only [hget, hspace] at h
          exact ⟨window, rfl, h⟩

end Device

/-- **Device frames in windows.** A call of `vs_map_device` that succeeds maps one page, inside the
window that is passed, if and only if it fits or is not accepted. -/
theorem device_inside_iff {s : VspaceState} {pid : Nat} {c : DeviceCall}
    (hword : c.windowOffset < 2 ^ 32) :
    DeviceInside s pid c ↔ ∀ vs wa, DeviceAccepted s pid c vs wa → DeviceFits c wa := by
  constructor
  · intro hinside vs wa h
    exact hinside.fits hword h
  · intro hfits s' hsuccess
    obtain ⟨vs, wa, frame, h, rfl⟩ := accepted_of_success hsuccess
    exact ⟨vs, wa, _, h.space, h.associated, h.mapsOne frame,
      onlyInside_iff.2 ((h.holdsPage_iff hword).2 (hfits vs wa h))⟩

/-! ### Two neighbours -/

/-- Two windows of a page each. -/
def neighbours : List MemEvent :=
  [.createMemWindow 1 0x10000 0x1000 3 true (some 0x10000) true,
    .createMemWindow 1 0x11000 0x1000 3 true (some 0x11000) true]

/-- A frame of a device for the second, at an offset. -/
def deviceCall (windowOffset : Nat) : DeviceCall where
  wID := 2
  window := ⟨1, 0x1000, 3, true, .empty, 0x11000⟩
  windowOffset := windowOffset
  paddr := 0x48020000
  size := 0x1000
  cached := true
  frameCap _ _ := some 7
  memory := true
  mapped := true

theorem exists_neighbours (windowOffset page : Nat)
    (h : ((Run.exec memStep NoWrap neighbours (vspaceInit fun pid => pid = 1)).any fun s =>
      s.associated 1 = [⟨1, 0x10000, 0x1000⟩, ⟨2, 0x11000, 0x1000⟩] &&
        wGetWindow s.windowList 2 = some (deviceCall windowOffset).window &&
        (procDeviceMapHandler s processPermissionDeviceMap true
          (deviceCall windowOffset)).toOption.any fun e =>
            e.1 = .success && e.2.mapped 1 32 = [page]) = true) :
    ∃ s s', Run memStep NoWrap (vspaceInit fun pid => pid = 1) neighbours s ∧
      s.associated 1 = [⟨1, 0x10000, 0x1000⟩, ⟨2, 0x11000, 0x1000⟩] ∧
      procDeviceMapHandler s processPermissionDeviceMap true (deviceCall windowOffset) =
        .ok (.success, s') ∧
      vsMapDevice s 1 (deviceCall windowOffset) = .ok (.success, s') ∧
      s'.mapped 1 32 = [page] := by
  obtain ⟨s, hexec, hs⟩ := (Option.any_eq_true _ _).1 h
  simp only [Bool.and_eq_true, decide_eq_true_eq] at hs
  obtain ⟨⟨hwindows, hwindow⟩, hany⟩ := hs
  obtain ⟨⟨error, s'⟩, hcall, hpage⟩ := (Option.any_eq_true _ _).1 hany
  simp only [Bool.and_eq_true, decide_eq_true_eq] at hpage
  obtain ⟨rfl, hpage⟩ := hpage
  have hcall := eq_ok_of_toOption hcall
  obtain ⟨window, hget, hsuccess⟩ := procDeviceMapHandler_success hcall
  obtain rfl := Option.some.inj (hwindow.symm.trans hget)
  exact ⟨s, s', .of_exec hexec, hwindows, hcall, hsuccess, hpage⟩

/-- At the base of the window. -/
theorem device_inside_base :
    ∃ s s', Run memStep NoWrap (vspaceInit fun pid => pid = 1) neighbours s ∧
      procDeviceMapHandler s processPermissionDeviceMap true (deviceCall 0) = .ok (.success, s') ∧
      s'.mapped 1 32 = [0x11] ∧ DeviceInside s 1 (deviceCall 0) := by
  obtain ⟨s, s', hrun, hwindows, hcall, -, hpage⟩ := exists_neighbours 0 0x11
    (show _ = true by decide +kernel)
  refine ⟨s, s', hrun, hcall, hpage, (device_inside_iff (by decide)).2 fun vs wa h => ?_⟩
  rw [associated_of_vspaces h.space] at hwindows
  have hsize : (deviceCall 0).window.size = wa.size := by
    have hwa := (update_perm vs.windows).mem_iff.1 (List.mem_of_find?_eq_some h.associated)
    rw [hwindows] at hwa
    simp only [List.mem_cons, List.not_mem_nil, or_false] at hwa
    rcases hwa with rfl | rfl <;> rfl
  refine (h.fits_iff ?_ ?_ hsize).2 (by decide)
  · rw [hwindows]
    intro w hw
    simp only [List.mem_cons, List.not_mem_nil, or_false] at hw
    rcases hw with rfl | rfl <;> decide
  · rw [hwindows]
    decide

/-- The comparison passes, and the page is that of the other window. -/
theorem device_page_in_neighbour :
    ∃ s s', Run memStep NoWrap (vspaceInit fun pid => pid = 1) neighbours s ∧
      s.associated 1 = [⟨1, 0x10000, 0x1000⟩, ⟨2, 0x11000, 0x1000⟩] ∧
      procDeviceMapHandler s processPermissionDeviceMap true (deviceCall 0xFFFFF000) =
        .ok (.success, s') ∧
      s'.mapped 1 32 = [0x10] ∧ ¬DeviceInside s 1 (deviceCall 0xFFFFF000) := by
  obtain ⟨s, s', hrun, hwindows, hcall, hsuccess, hpage⟩ := exists_neighbours 0xFFFFF000 0x10
    (show _ = true by decide +kernel)
  refine ⟨s, s', hrun, hwindows, hcall, hpage, fun hinside => ?_⟩
  obtain ⟨vs, wa, frame, h, -⟩ := accepted_of_success hsuccess
  exact absurd (hinside.fits (by decide) h).offset (by decide)

end PartitionSeL4.Refos
