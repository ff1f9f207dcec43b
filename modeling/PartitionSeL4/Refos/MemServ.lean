import PartitionSeL4.Lib.RefCount
import PartitionSeL4.Lib.Run
import PartitionSeL4.Refos.DataStruct
import PartitionSeL4.Refos.Vspace

/-!
# The dataspaces of the process server and who refers to them

A RAM dataspace is counted: it has one reference of its own, one of every window it is mapped in,
one of every process whose parameter buffer it is and one of every notification buffer on it.
References are taken and dropped in `window.c`, `process.c` and `ringbuffer.c`; `data_close` takes
the dataspace out of all of them and then drops the last one.

A reference is a pointer. Here it is an id with the number of the creation of its dataspace, so that
one that outlives its dataspace can be told from one to a later dataspace with the same id:
following it is a fault.

`procServ.shared_dspace` is such a pointer too, and one that is not counted.
-/

namespace PartitionSeL4.Refos

open Lib

/-! ## The state -/

/-- `RAM_DATASPACE_MAX_NUM_DATASPACE` -/
def ramDataspaceMaxNumDataspace : Nat := 8192

/-- A `struct ram_dspace *`. -/
structure DspacePtr where
  ID : Nat
  serial : Nat
  deriving DecidableEq, Repr

/-- A `struct ram_dspace` in the list, with the number of its creation. -/
structure LiveDspace extends RamDspace where
  serial : Nat

/-- The mode of a `struct w_window` and what it needs. -/
structure MemWindow where
  mode : WindowMode := .empty
  /-- The endpoint, 0 if there is none. -/
  pager : Nat := 0
  pagerPID : Nat := 0
  ramDataspace : Option DspacePtr := none
  ramDataspaceOffset : Nat := 0
  deriving DecidableEq, Repr

/-- `struct proc_pcb`: its buffers, and the windows of its address space. -/
structure MemPcb where
  paramBuffer : Option DspacePtr := none
  /-- The dataspace of the ring buffer. -/
  notificationBuffer : Option DspacePtr := none
  windows : List Nat := []
  deriving DecidableEq, Repr

/-- `procServ`, with the number of dataspaces created so far. -/
structure MemServ where
  dspaceList : Coat LiveDspace
  windowList : Coat MemWindow
  pcbs : Nat → Option MemPcb
  /-- `PID_MAX` -/
  pidMax : Nat
  created : Nat
  sharedDspace : Option DspacePtr

/-- After `ram_dspace_init`, `w_init` and `pid_init`. -/
def memServInit (pidMax : Nat) : MemServ where
  dspaceList := .init 1 ramDataspaceMaxNumDataspace
  windowList := .init 1 wMaxWindows
  pcbs _ := none
  pidMax := pidMax
  created := 0
  sharedDspace := none

namespace MemServ

def setDspace (s : MemServ) (ID : Nat) (dspace : LiveDspace) : MemServ :=
  { s with dspaceList := s.dspaceList.set ID dspace }

/-- `dspace->ref = ref` -/
def setRef (s : MemServ) (ID : Nat) (dspace : LiveDspace) (ref : Nat) : MemServ :=
  s.setDspace ID { dspace with ref := ref }

def setWindow (s : MemServ) (wID : Nat) (window : MemWindow) : MemServ :=
  { s with windowList := s.windowList.set wID window }

def setPcb (s : MemServ) (pid : Nat) (pcb : MemPcb) : MemServ :=
  { s with pcbs := Function.update s.pcbs pid (some pcb) }

/-- Follow a pointer. -/
def deref (s : MemServ) (p : DspacePtr) : Except Failure LiveDspace :=
  match s.dspaceList.table p.ID with
  | some dspace => if dspace.serial = p.serial then .ok dspace else .error .fault
  | none => .error .fault

/-- `ram_dspace_get` -/
def ramDspaceGet (s : MemServ) (ID : Nat) : Option LiveDspace :=
  if ID = 0 ∨ ramDataspaceMaxNumDataspace ≤ ID then none else s.dspaceList.get ID

/-- `w_get_window` -/
def wGetWindow (s : MemServ) (wID : Nat) : Option MemWindow :=
  if wID = 0 ∨ wMaxWindows ≤ wID then none else s.windowList.get wID

/-! ## References -/

/-- `ram_dspace_ref` -/
def ramDspaceRef (s : MemServ) (ID : Nat) : Except Failure MemServ :=
  match s.ramDspaceGet ID with
  | none => .error .assertion
  | some dspace =>
      if dspace.ref = 0 then .error .assertion
      else .ok (s.setRef ID dspace (dspace.ref + 1))

/-- The ids of the loop of `w_purge_dspace`. -/
def windowIds : List Nat := List.range' 1 (wMaxWindows - 1)

/-- Whether a window is one on the dataspace with the id. -/
def onDspace (s : MemServ) (ID wID : Nat) : Bool :=
  match s.wGetWindow wID with
  | some window => window.ramDataspace.any fun p => p.ID = ID
  | none => false

/-- `coat_free` and `ram_dspace_oat_delete`, of a dataspace without references. A window on it would
drop a reference that is not there. -/
def ramDspaceOatDelete (s : MemServ) (ID : Nat) : Except Failure MemServ :=
  if windowIds.any (s.onDspace ID) then .error .assertion
  else .ok { s with dspaceList := s.dspaceList.remove ID }

/-- `ram_dspace_unref` -/
def ramDspaceUnref (s : MemServ) (ID : Nat) : Except Failure MemServ :=
  match s.ramDspaceGet ID with
  | none => .error .assertion
  | some dspace =>
      if dspace.ref = 0 then .error .assertion
      else if dspace.ref = 1 then s.ramDspaceOatDelete ID
      else .ok (s.setRef ID dspace (dspace.ref - 1))

/-- Drop the reference of a pointer. -/
def dropRef (s : MemServ) (p : DspacePtr) : Except Failure MemServ := do
  let _ ← s.deref p
  s.ramDspaceUnref p.ID

/-! ## Windows -/

/-- `window_switch_mode`, as far as references are concerned. -/
def windowSwitchMode (s : MemServ) (wID : Nat) (window : MemWindow) (mode : WindowMode) :
    Except Failure MemServ :=
  match window.ramDataspace with
  | some p => do
      let s ← s.dropRef p
      return s.setWindow wID { mode := mode }
  | none => .ok (s.setWindow wID { mode := mode })

/-- `w_set_anon_dspace` -/
def wSetAnonDspace (s : MemServ) (wID : Nat) (window : MemWindow) (dspace : Option DspacePtr)
    (offset : Nat) : Except Failure MemServ :=
  match dspace with
  | none => s.windowSwitchMode wID window .empty
  | some p => do
      let s ← s.windowSwitchMode wID window .anonymous
      let s := s.setWindow wID
        { mode := .anonymous, ramDataspace := some p, ramDataspaceOffset := offset }
      s.ramDspaceRef p.ID

/-- `w_set_pager_endpoint` -/
def wSetPagerEndpoint (s : MemServ) (wID : Nat) (window : MemWindow) (endpoint pid : Nat) :
    Except Failure MemServ :=
  if endpoint = 0 then s.windowSwitchMode wID window .empty
  else do
    let s ← s.windowSwitchMode wID window .pager
    return s.setWindow wID { mode := .pager, pager := endpoint, pagerPID := pid }

/-- Release a pointer if it is one to the dataspace with the id. -/
def purge (s : MemServ) (ID : Nat) (ptr : Option DspacePtr) (release : Except Failure MemServ) :
    Except Failure MemServ :=
  match ptr with
  | none => .ok s
  | some p => do
      let _ ← s.deref p
      if p.ID = ID then release else return s

/-- A round of the loop of `w_purge_dspace`. -/
def purgeWindow (ID : Nat) (s : MemServ) (wID : Nat) : Except Failure MemServ :=
  match s.wGetWindow wID with
  | none => .ok s
  | some window => s.purge ID window.ramDataspace (s.windowSwitchMode wID window .empty)

/-- `w_purge_dspace` -/
def wPurgeDspace (s : MemServ) (ID : Nat) : Except Failure MemServ :=
  windowIds.foldlM (purgeWindow ID) s

/-- `w_delete_window`, with `window_oat_delete`. -/
def wDeleteWindow (s : MemServ) (wID : Nat) : Except Failure MemServ :=
  match s.windowList.toDelete wID with
  | none => .ok s
  | some window => do
      let s ← s.windowSwitchMode wID window .empty
      return { s with windowList := s.windowList.remove wID }

/-! ## The buffers of processes -/

/-- `proc_set_parambuffer` -/
def procSetParambuffer (s : MemServ) (pid : Nat) (pcb : MemPcb) (paramBuffer : Option DspacePtr) :
    Except Failure MemServ :=
  if pcb.paramBuffer = paramBuffer then .ok s
  else do
    let s ←
      match pcb.paramBuffer with
      | some p => s.dropRef p
      | none => .ok s
    let s := s.setPcb pid { pcb with paramBuffer := none }
    match paramBuffer with
    | some p => do
        let s ← s.ramDspaceRef p.ID
        return s.setPcb pid { pcb with paramBuffer := some p }
    | none => return s

/-- `rb_delete` of a notification buffer, if there is one. -/
def rbDelete (s : MemServ) (pid : Nat) (pcb : MemPcb) : Except Failure MemServ :=
  match pcb.notificationBuffer with
  | some p => do
      let s ← s.dropRef p
      return s.setPcb pid { pcb with notificationBuffer := none }
  | none => .ok s

/-- `proc_set_notificationbuffer`, with whether there is memory for the ring buffer. -/
def procSetNotificationbuffer (s : MemServ) (pid : Nat) (pcb : MemPcb) (notifBuffer : DspacePtr)
    (memory : Bool) : Except Failure MemServ := do
  let s ← s.rbDelete pid pcb
  if memory then
    let s ← s.ramDspaceRef notifBuffer.ID
    return s.setPcb pid { pcb with notificationBuffer := some notifBuffer }
  else return s

/-- The first part of `proc_dspace_delete_callback`. -/
def purgeParam (ID pid : Nat) (s : MemServ) : Except Failure MemServ :=
  match s.pcbs pid with
  | none => .ok s
  | some pcb => s.purge ID pcb.paramBuffer (s.procSetParambuffer pid pcb none)

/-- Its second part. -/
def purgeNotification (ID pid : Nat) (s : MemServ) : Except Failure MemServ :=
  match s.pcbs pid with
  | none => .ok s
  | some pcb => s.purge ID pcb.notificationBuffer (s.rbDelete pid pcb)

/-- `proc_dspace_delete_callback` -/
def procDspaceDeleteCallback (ID : Nat) (s : MemServ) (pid : Nat) : Except Failure MemServ := do
  let s ← purgeParam ID pid s
  purgeNotification ID pid s

/-- The ids of `pid_iterate`. -/
def pids (s : MemServ) : List Nat := List.range' 1 (s.pidMax - 1)

/-- `proc_release` and `pid_free` -/
def procRelease (s : MemServ) (pid : Nat) (pcb : MemPcb) : Except Failure MemServ := do
  let s ← s.procSetParambuffer pid pcb none
  let s ← s.rbDelete pid { pcb with paramBuffer := none }
  let s ← pcb.windows.foldlM wDeleteWindow s
  return { s with pcbs := Function.update s.pcbs pid none }

/-! ## Handlers -/

/-- `ram_dspace_create`, with whether there is memory for it. -/
def ramDspaceCreate (s : MemServ) (size : Nat) (memory : Bool) :
    Except Failure (Option DspacePtr × MemServ) := do
  let (new, dspaceList) ← s.dspaceList.create ramDataspaceInvalidID fun _ =>
    if memory then some ⟨ramDspaceOatCreate size, s.created⟩ else none
  match new with
  | none => return (none, { s with dspaceList := dspaceList })
  | some (ID, _) =>
      return (some ⟨ID, s.created⟩,
        { s with dspaceList := dspaceList, created := s.created + 1 })

/-- `data_open_handler`. `device` says whether a device is asked for and can be had. -/
def dataOpenHandler (s : MemServ) (size : Nat) (memory : Bool) (device : Option Bool) :
    Except Failure MemServ :=
  if size = 0 then .ok s
  else do
    let (dspace, s) ← s.ramDspaceCreate size memory
    match dspace with
    | none => return s
    | some p => if device = some false then s.ramDspaceUnref p.ID else return s

/-- `data_close_handler` -/
def dataCloseHandler (s : MemServ) (ID : Nat) : Except Failure MemServ :=
  match s.ramDspaceGet ID with
  | none => .ok s
  | some _ => do
      let s ← s.wPurgeDspace ID
      let s ← s.pids.foldlM (procDspaceDeleteCallback ID) s
      s.ramDspaceUnref ID

/-- `data_datamap_handler` -/
def dataDatamapHandler (s : MemServ) (ID wID offset : Nat) : Except Failure MemServ :=
  match s.wGetWindow wID, s.ramDspaceGet ID with
  | some window, some dspace =>
      if u32 (dspace.npages * pageSize) < offset then .ok s
      else s.wSetAnonDspace wID window (some ⟨ID, dspace.serial⟩) offset
  | _, _ => .ok s

/-- `data_dataunmap_handler` -/
def dataDataunmapHandler (s : MemServ) (wID : Nat) : Except Failure MemServ :=
  match s.wGetWindow wID with
  | none => .ok s
  | some window =>
      if window.mode = .anonymous then s.wSetAnonDspace wID window none 0 else .ok s

/-- `proc_set_parambuffer_handler`; `none` unsets the buffer. -/
def procSetParambufferHandler (s : MemServ) (pid : Nat) (ID : Option Nat) :
    Except Failure MemServ :=
  match s.pcbs pid with
  | none => .ok s
  | some pcb =>
      match ID with
      | none => s.procSetParambuffer pid pcb none
      | some ID =>
          match s.ramDspaceGet ID with
          | none => .ok s
          | some dspace => s.procSetParambuffer pid pcb (some ⟨ID, dspace.serial⟩)

/-- `proc_notification_buffer_handler` -/
def procNotificationBufferHandler (s : MemServ) (pid ID : Nat) (memory : Bool) :
    Except Failure MemServ :=
  match s.pcbs pid, s.ramDspaceGet ID with
  | some pcb, some dspace => s.procSetNotificationbuffer pid pcb ⟨ID, dspace.serial⟩ memory
  | _, _ => .ok s

/-- `proc_register_as_pager_handler`, and `proc_unregister_as_pager_handler` for the endpoint 0. -/
def procRegisterAsPagerHandler (s : MemServ) (wID endpoint pid : Nat) : Except Failure MemServ :=
  match s.wGetWindow wID with
  | none => .ok s
  | some window => s.wSetPagerEndpoint wID window endpoint pid

/-- The creation of a window, where its range is accepted. -/
def vsCreateWindow (s : MemServ) (pid : Nat) (accepted memory : Bool) : Except Failure MemServ :=
  match s.pcbs pid with
  | none => .ok s
  | some pcb =>
      if accepted then do
        let (new, windowList) ←
          s.windowList.create wInvalidWinid fun _ => if memory then some {} else none
        match new with
        | none => return { s with windowList := windowList }
        | some (wID, _) =>
            return { s with windowList := windowList }.setPcb pid
              { pcb with windows := pcb.windows ++ [wID] }
      else .ok s

/-- The deletion of a window of a process. -/
def vsDeleteWindow (s : MemServ) (pid wID : Nat) : Except Failure MemServ :=
  match s.pcbs pid with
  | none => .ok s
  | some pcb =>
      if wID ∈ pcb.windows then
        (s.setPcb pid { pcb with windows := pcb.windows.filter (· ≠ wID) }).wDeleteWindow wID
      else .ok s

/-- A new process under a free pid. -/
def procNew (s : MemServ) (pid : Nat) : MemServ :=
  if 1 ≤ pid ∧ pid < s.pidMax ∧ s.pcbs pid = none then s.setPcb pid {} else s

/-- `create_shared_mem` uses the dataspace at once. -/
def createSharedMem (s : MemServ) (size : Nat) (memory : Bool) : Except Failure MemServ := do
  let (dspace, s) ← s.ramDspaceCreate size memory
  match dspace with
  | none => .error .fault
  | some p => return { s with sharedDspace := some p }

/-- `get_shared_dspace_handler`: the id in the badge of the capability. -/
def getSharedDspaceHandler (s : MemServ) : Except Failure Nat :=
  match s.sharedDspace with
  | none => .error .fault
  | some p => do
      let _ ← s.deref p
      return p.ID

end MemServ

/-! ## Runs -/

/-- Calls. -/
inductive MemServEvent where
  | dataOpen (size : Nat) (memory : Bool) (device : Option Bool)
  | dataClose (ID : Nat)
  | dataDatamap (ID wID offset : Nat)
  | dataDataunmap (wID : Nat)
  | setParambuffer (pid : Nat) (ID : Option Nat)
  | notificationBuffer (pid ID : Nat) (memory : Bool)
  | registerAsPager (wID endpoint pid : Nat)
  | createWindow (pid : Nat) (accepted memory : Bool)
  | deleteWindow (pid wID : Nat)
  | newProcess (pid : Nat)
  | exit (pid : Nat)
  | createSharedMem (size : Nat) (memory : Bool)
  | getSharedDspace
  deriving DecidableEq

/-- The step of a call. -/
def memServStep (s : MemServ) : MemServEvent → Except Failure MemServ
  | .dataOpen size memory device => s.dataOpenHandler size memory device
  | .dataClose ID => s.dataCloseHandler ID
  | .dataDatamap ID wID offset => s.dataDatamapHandler ID wID offset
  | .dataDataunmap wID => s.dataDataunmapHandler wID
  | .setParambuffer pid ID => s.procSetParambufferHandler pid ID
  | .notificationBuffer pid ID memory => s.procNotificationBufferHandler pid ID memory
  | .registerAsPager wID endpoint pid => s.procRegisterAsPagerHandler wID endpoint pid
  | .createWindow pid accepted memory => s.vsCreateWindow pid accepted memory
  | .deleteWindow pid wID => s.vsDeleteWindow pid wID
  | .newProcess pid => .ok (s.procNew pid)
  | .exit pid =>
      match s.pcbs pid with
      | none => .ok s
      | some pcb => s.procRelease pid pcb
  | .createSharedMem size memory => s.createSharedMem size memory
  | .getSharedDspace => do
      let _ ← s.getSharedDspaceHandler
      return s

/-- There is memory for a new object, and an id for it below the end of the table. -/
def Coat.Left {α : Type} (t : Coat α) (maxID : Nat) (memory : Bool) : Prop :=
  (∃ next ∈ t.pool.alloc, next.1 < maxID) ∧ memory = true

instance {α : Type} (t : Coat α) (maxID : Nat) (memory : Bool) :
    Decidable (t.Left maxID memory) := inferInstanceAs (Decidable (_ ∧ _))

/-- The tables are not exhausted: what the call creates can be created. -/
def TablesLeft (s : MemServ) : MemServEvent → Prop
  | .dataOpen size memory _ => size ≠ 0 → s.dspaceList.Left ramDataspaceMaxNumDataspace memory
  | .createSharedMem _ memory => s.dspaceList.Left ramDataspaceMaxNumDataspace memory
  | .createWindow pid accepted memory => (s.pcbs pid).isSome → accepted = true →
      s.windowList.Left wMaxWindows memory
  | _ => True

instance (s : MemServ) : (e : MemServEvent) → Decidable (TablesLeft s e)
  | .dataOpen _ _ _ | .createWindow _ _ _ => inferInstanceAs (Decidable (_ → _))
  | .createSharedMem _ _ => inferInstanceAs (Decidable (Coat.Left _ _ _))
  | .dataClose _ | .dataDatamap _ _ _ | .dataDataunmap _ | .setParambuffer _ _
  | .notificationBuffer _ _ _ | .registerAsPager _ _ _ | .deleteWindow _ _ | .newProcess _
  | .exit _ | .getSharedDspace => inferInstanceAs (Decidable True)

end PartitionSeL4.Refos
