import PartitionSeL4.Lib.Run
import PartitionSeL4.Refos.DataStruct
import PartitionSeL4.Refos.Window

/-!
# `vspace.c`: address spaces and the pages mapped in them

An address space is a list of associated windows and a page table. The windows themselves are kept
in one table for all processes. What the `sel4utils` library does with reservations is not modelled:
the address at which a reservation starts, or that there is none, is part of the call, and so is
whether frames can be mapped. The page table is a map from page numbers to frames.

The calls are the steps of `vspaceStep`. Every lookup may sort the list of windows
(`Vspace.lookedUp`), also one that fails.
-/

namespace PartitionSeL4.Refos

open Lib

/-! ## The state -/

/-- `enum w_window_mode` -/
inductive WindowMode where
  | empty
  | anonymous
  | pager
  deriving DecidableEq, Repr

/-- `struct w_window`. `vspace` is the address space of the owner. -/
structure Window where
  clientOwnerPID : Nat
  size : Nat
  permissions : Nat
  cacheable : Bool
  mode : WindowMode
  /-- The start of the reservation. -/
  reservation : Nat
  deriving DecidableEq, Repr

/-- An entry of the page table. -/
structure Mapping where
  frame : Nat
  /-- Mapped by `vs_map`, and not by the ELF loader. -/
  throughVsMap : Bool
  deriving DecidableEq, Repr

/-- `struct vs_vspace` -/
structure Vspace where
  pid : Nat
  windows : AssociatedWindowlist
  pages : Nat → Option Mapping

/-- `procServ.windowList`, and the address spaces of the processes. -/
structure VspaceState where
  windowList : Coat Window
  vspaces : Nat → Option Vspace

/-- `vs_initialise` -/
def vsInitialise (pid : Nat) : Vspace where
  pid := pid
  windows := wAssociateInit
  pages _ := none

/-- The processes `pids`, each with a new address space. -/
def vspaceInit (pids : Nat → Bool) : VspaceState where
  windowList := .init 1 wMaxWindows
  vspaces pid := if pids pid then some (vsInitialise pid) else none

def VspaceState.setVspace (s : VspaceState) (pid : Nat) (vs : Vspace) : VspaceState :=
  { s with vspaces := Function.update s.vspaces pid (some vs) }

section

variable (s : VspaceState) (pid : Nat) (vs : Vspace)

@[simp] theorem setVspace_windowList : (s.setVspace pid vs).windowList = s.windowList := rfl

@[simp] theorem setVspace_self : (s.setVspace pid vs).vspaces pid = some vs :=
  Function.update_self ..

theorem setVspace_of_ne {q : Nat} (h : q ≠ pid) : (s.setVspace pid vs).vspaces q = s.vspaces q :=
  Function.update_of_ne h ..

end

/-- After a lookup, which sorts the list. -/
def Vspace.lookedUp (vs : Vspace) : Vspace := { vs with windows := wAssociateUpdate vs.windows }

/-- `w_get_window` -/
def wGetWindow (windowList : Coat Window) (wID : Nat) : Option Window :=
  if wID = 0 ∨ wMaxWindows ≤ wID then none else windowList.get wID

/-! ## Mapping and unmapping -/

/-- The pages of the loops over `nFrames` frames from an address on. -/
def framePages (vaddr nFrames : Nat) : List Nat :=
  (List.range nFrames).map fun va => u32 (vaddr + va * pageSize) / pageSize

/-- `vs_unmap_frame` -/
def vsUnmapFrame (pages : Nat → Option Mapping) (page : Nat) : Nat → Option Mapping :=
  Function.update pages page none

/-- The loops over `vs_unmap_frame`. -/
def unmapFrames (vaddr nFrames : Nat) (pages : Nat → Option Mapping) : Nat → Option Mapping :=
  (framePages vaddr nFrames).foldl vsUnmapFrame pages

/-- A page and its frame. -/
def vsMapFrame (pages : Nat → Option Mapping) (entry : Nat × Nat) : Nat → Option Mapping :=
  Function.update pages entry.1 (some ⟨entry.2, true⟩)

/-- `vspace_map_pages_at_vaddr` -/
def mapFrames (vaddr : Nat) (frames : List Nat) (pages : Nat → Option Mapping) :
    Nat → Option Mapping :=
  ((framePages vaddr frames.length).zip frames).foldl vsMapFrame pages

/-- `vs_map`, with whether the capabilities can be copied and the frames be mapped. -/
def vsMap (windowList : Coat Window) (vs : Vspace) (vaddr : Nat) (frames : List Nat)
    (memory mapped : Bool) : Except Failure (Err × Vspace) :=
  match wAssociateFindRange vs.windows (pageAlign vaddr) (u32 (frames.length * pageSize)) with
  | none => .ok (.invalidWindow, vs.lookedUp)
  | some awindow =>
      match wGetWindow windowList awindow.winID with
      | none => .error .assertion
      | some window =>
          if window.clientOwnerPID ≠ vs.pid then .error .assertion
          else if (framePages (pageAlign vaddr) frames.length).any fun page =>
              (vs.pages page).isSome then .ok (.unmapFirst, vs.lookedUp)
          else if memory = false then .ok (.nomem, vs.lookedUp)
          else if mapped = false then .ok (.unmapFirst, vs.lookedUp)
          else
            .ok (.success,
              { vs.lookedUp with pages := mapFrames (pageAlign vaddr) frames vs.pages })

/-- `vs_unmap` -/
def vsUnmap (windowList : Coat Window) (vs : Vspace) (vaddr nFrames : Nat) :
    Except Failure (Err × Vspace) :=
  match wAssociateFindRange vs.windows vaddr (u32 (nFrames * pageSize)) with
  | none => .ok (.invalidWindow, vs.lookedUp)
  | some awindow =>
      match wGetWindow windowList awindow.winID with
      | none => .error .assertion
      | some window =>
          if window.clientOwnerPID ≠ vs.pid then .error .assertion
          else .ok (.success, { vs.lookedUp with pages := unmapFrames vaddr nFrames vs.pages })

/-- `vs_unmap_window` -/
def vsUnmapWindow (windowList : Coat Window) (vs : Vspace) (wID : Nat) : Except Failure Vspace :=
  match wAssociateFindWinID vs.windows wID with
  | none => .ok vs.lookedUp
  | some awindow =>
      match wGetWindow windowList awindow.winID with
      | none => .error .assertion
      | some window =>
          if window.clientOwnerPID ≠ vs.pid then .error .assertion
          else
            .ok { vs.lookedUp with
              pages := unmapFrames awindow.offset (roundUpNpages awindow.size) vs.pages }

/-- `vs_map_across_vspace` -/
def vsMapAcrossVspace (s : VspaceState) (vsSrc : Vspace) (vaddrSrc wID windowDestOffset : Nat)
    (memory mapped : Bool) : Except Failure (Err × VspaceState) :=
  match vsSrc.pages (vaddrSrc / pageSize), wGetWindow s.windowList wID with
  | some src, some windowDest =>
      if windowDest.size ≤ windowDestOffset then .ok (.invalidParam, s)
      else
        match s.vspaces windowDest.clientOwnerPID with
        | none => .ok (.invalidWindow, s)
        | some client =>
            match wAssociateFindWinID client.windows wID with
            | none => .ok (.invalidWindow, s.setVspace windowDest.clientOwnerPID client.lookedUp)
            | some wa => do
                let (error, client) ← vsMap s.windowList client.lookedUp
                  (u32 (wa.offset + windowDestOffset)) [src.frame] memory mapped
                return (error, s.setVspace windowDest.clientOwnerPID client)
  | _, _ => .ok (.invalidParam, s)

/-! ## Windows -/

/-- The part of `window_switch_mode` that unmaps what was in the window. -/
def unmapPrevious (s : VspaceState) (wID : Nat) (window : Window) : Except Failure VspaceState :=
  if window.mode = .empty then .ok s
  else
    match s.vspaces window.clientOwnerPID with
    | none => .ok s
    | some client => do
        let client ← vsUnmapWindow s.windowList client wID
        return s.setVspace window.clientOwnerPID client

/-- `window_switch_mode`, as far as the pages are concerned. -/
def windowSwitchMode (s : VspaceState) (wID : Nat) (window : Window) (mode : WindowMode) :
    Except Failure VspaceState := do
  let s ← unmapPrevious s wID window
  return { s with windowList := s.windowList.set wID { window with mode := mode } }

/-- `w_delete_window`, with `window_oat_delete`. -/
def wDeleteWindow (s : VspaceState) (wID : Nat) : Except Failure VspaceState :=
  match s.windowList.toDelete wID with
  | none => .ok s
  | some window => do
      let s ← windowSwitchMode s wID window .empty
      return { s with windowList := s.windowList.remove wID }

/-- `W_INVALID_WINID` -/
def wInvalidWinid : Int := 0

/-- `w_create_window`, with whether there is memory for it. -/
def wCreateWindow (windowList : Coat Window) (window : Window) (memory : Bool) :
    Except Failure (Option Nat × Coat Window) := do
  let (new, windowList) ←
    windowList.create wInvalidWinid fun _ => if memory then some window else none
  match new with
  | none => return (none, windowList)
  | some (id, _) => return (some id, windowList.set id window)

/-- `vs_create_window`, with the start of the reservation if it could be made. -/
def vsCreateWindow (s : VspaceState) (vs : Vspace) (vaddr size permissions : Nat)
    (cacheable : Bool) (reservation : Option Nat) (memory : Bool) :
    Except Failure (Err × VspaceState) :=
  if wAssociateCheck vs.windows vaddr size = false then
    .ok (.invalidWindow, s.setVspace vs.pid vs.lookedUp)
  else
    match reservation with
    | none => .ok (.invalidWindow, s.setVspace vs.pid vs.lookedUp)
    | some start =>
        let window : Window :=
          { clientOwnerPID := vs.pid, size := size, permissions := permissions,
            cacheable := cacheable, mode := .empty, reservation := start }
        match wCreateWindow s.windowList window memory with
        | .error failure => .error failure
        | .ok (none, windowList) =>
            .ok (.nomem, { s.setVspace vs.pid vs.lookedUp with windowList := windowList })
        | .ok (some wID, windowList) =>
            match wAssociate (wAssociateUpdate vs.windows) wID vaddr size with
            | .ok (.success, windows) =>
                .ok (.success,
                  { s.setVspace vs.pid { vs with windows := windows } with
                    windowList := windowList })
            | _ => .error .assertion

/-- `vs_delete_window` -/
def vsDeleteWindow (s : VspaceState) (vs : Vspace) (wID : Nat) : Except Failure VspaceState :=
  match wAssociateFindWinID vs.windows wID with
  | none => .ok (s.setVspace vs.pid vs.lookedUp)
  | some _ => do
      let vs ← vsUnmapWindow s.windowList vs.lookedUp wID
      wDeleteWindow (s.setVspace vs.pid { vs with windows := wUnassociate vs.windows wID }) wID

/-- `w_resize_window` and `awindow->size = size`, with the start of the moved reservation. -/
def resizeTo (s : VspaceState) (vs : Vspace) (wID : Nat) (window : Window) (size : Nat)
    (moved : Option Nat) : Err × VspaceState :=
  let vs' := { vs with
    windows := { vs.windows with associated := setSize wID size vs.windows.associated } }
  if size = window.size then (.success, s.setVspace vs.pid vs')
  else
    match moved with
    | none => (.invalidWindow, s.setVspace vs.pid vs)
    | some start =>
        (.success, { s.setVspace vs.pid vs' with
          windowList := s.windowList.set wID { window with size := size, reservation := start } })

/-- `vs_resize_window`. The library rounds the start of a reservation down to a page, so that the
assertion stops every resize of a window whose base is not aligned. -/
def vsResizeWindow (s : VspaceState) (vs : Vspace) (wID size : Nat) (moved : Option Nat) :
    Except Failure (Err × VspaceState) :=
  if size = 0 then .ok (.invalidParam, s)
  else
    match wAssociateFindWinID vs.windows wID with
    | none => .ok (.invalidWindow, s.setVspace vs.pid vs.lookedUp)
    | some awindow =>
        match wGetWindow s.windowList wID with
        | none => .ok (.invalidWindow, s.setVspace vs.pid vs.lookedUp)
        | some window =>
            if awindow.offset ≠ window.reservation then .error .assertion
            else if awindow.size < size then
              if wAssociateCheck vs.lookedUp.windows (u32 (awindow.offset + awindow.size))
                  (size - awindow.size) then
                .ok (resizeTo s vs.lookedUp wID window size moved)
              else .ok (.invalidParam, s.setVspace vs.pid vs.lookedUp)
            else if size < awindow.size then do
              let (error, vs) ← vsUnmap s.windowList vs.lookedUp
                (pageAlign (u32 (awindow.offset + size))) (roundUpNpages (awindow.size - size))
              if error = .success then return resizeTo s vs wID window size moved
              else return (error, s.setVspace vs.pid vs)
            else .ok (resizeTo s vs.lookedUp wID window size moved)

/-! ## Runs -/

/-- The calls. `load` is a page that the ELF loader maps. -/
inductive VspaceEvent where
  | create (pid vaddr size permissions : Nat) (cacheable : Bool) (reservation : Option Nat)
      (memory : Bool)
  | delete (pid wID : Nat)
  | resize (pid wID size : Nat) (moved : Option Nat)
  | map (pid vaddr : Nat) (frames : List Nat) (memory mapped : Bool)
  | mapAcross (pidSrc vaddrSrc wID windowDestOffset : Nat) (memory mapped : Bool)
  | unmap (pid vaddr nFrames : Nat)
  | switchMode (wID : Nat) (mode : WindowMode)
  | load (pid page frame : Nat)
  deriving DecidableEq

/-- The step of a call. -/
def vspaceStep (s : VspaceState) : VspaceEvent → Except Failure VspaceState
  | .create pid vaddr size permissions cacheable reservation memory =>
      match s.vspaces pid with
      | none => .ok s
      | some vs => do
          let (_, s) ← vsCreateWindow s vs vaddr size permissions cacheable reservation memory
          return s
  | .delete pid wID =>
      match s.vspaces pid with
      | none => .ok s
      | some vs => vsDeleteWindow s vs wID
  | .resize pid wID size moved =>
      match s.vspaces pid with
      | none => .ok s
      | some vs => do
          let (_, s) ← vsResizeWindow s vs wID size moved
          return s
  | .map pid vaddr frames memory mapped =>
      match s.vspaces pid with
      | none => .ok s
      | some vs => do
          let (_, vs) ← vsMap s.windowList vs vaddr frames memory mapped
          return s.setVspace pid vs
  | .mapAcross pidSrc vaddrSrc wID windowDestOffset memory mapped =>
      match s.vspaces pidSrc with
      | none => .ok s
      | some vsSrc => do
          let (_, s) ← vsMapAcrossVspace s vsSrc vaddrSrc wID windowDestOffset memory mapped
          return s
  | .unmap pid vaddr nFrames =>
      match s.vspaces pid with
      | none => .ok s
      | some vs => do
          let (_, vs) ← vsUnmap s.windowList vs vaddr nFrames
          return s.setVspace pid vs
  | .switchMode wID mode =>
      match wGetWindow s.windowList wID with
      | none => .ok s
      | some window => windowSwitchMode s wID window mode
  | .load pid page frame =>
      match s.vspaces pid with
      | none => .ok s
      | some vs =>
          .ok (s.setVspace pid
            { vs with pages := Function.update vs.pages page (some ⟨frame, false⟩) })

/-! ## `mem_syscall.c`: requests for windows -/

/-- `PROCESS_KERNEL_RESERVED` -/
def processKernelReserved : Nat := 0xE0000000

/-- Requests of a process. -/
inductive MemEvent where
  | createMemWindow (pid vaddr size permissions : Nat) (cached : Bool) (reservation : Option Nat)
      (memory : Bool)
  | resizeMemWindow (pid wID size : Nat) (moved : Option Nat)
  | deleteMemWindow (pid wID : Nat)
  deriving DecidableEq

/-- `proc_create_mem_window_internal_handler`, `proc_resize_mem_window_handler` and
`proc_delete_mem_window_handler`. The sum of the first is one of 32 bits. -/
def memStep (s : VspaceState) : MemEvent → Except Failure VspaceState
  | .createMemWindow pid vaddr size permissions cached reservation memory =>
      if processKernelReserved ≤ vaddr ∨ processKernelReserved < u32 (size + vaddr) then .ok s
      else vspaceStep s (.create pid vaddr size permissions cached reservation memory)
  | .resizeMemWindow pid wID size moved => vspaceStep s (.resize pid wID size moved)
  | .deleteMemWindow pid wID => vspaceStep s (.delete pid wID)

end PartitionSeL4.Refos
