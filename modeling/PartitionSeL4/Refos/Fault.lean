import PartitionSeL4.Refos.ContentInit
import PartitionSeL4.Refos.VspaceStep

/-!
# `fault_handler.c`: page faults, and the calls on memory

A page fault is looked up in the windows of the process. What follows depends on the mode of the
window: a page of a RAM dataspace is mapped, a content initialiser or a pager is notified, or the
fault is a segmentation fault and the thread stays blocked.

The state puts together what `Vspace` says about windows and address spaces and what `ContentInit`
says about a dataspace. Dataspaces are not closed here (`MemServ` does that), so a pointer to one is
its id. The notification buffer of a process is the list of what was written to it.
-/

namespace PartitionSeL4.Refos

open Lib

/-! ## The state -/

/-- `W_PERMISSION_WRITE` -/
def wPermissionWrite : Nat := 0x1

/-- `W_PERMISSION_READ` -/
def wPermissionRead : Nat := 0x2

/-- `PROCSERV_NOTIFY_FAULT_DELEGATION` and `PROCSERV_NOTIFY_CONTENT_INIT` -/
inductive NotifyLabel where
  | faultDelegation
  | contentInit
  deriving DecidableEq, Repr

/-- `struct proc_notification` -/
structure ProcNotification where
  label : NotifyLabel
  arg : List Nat
  deriving DecidableEq, Repr

/-- `struct w_window`: what the window is mapped to. -/
structure WindowTarget where
  pager : Nat := 0
  pagerPID : Nat := 0
  ramDataspace : Option Nat := none
  ramDataspaceOffset : Nat := 0
  deriving DecidableEq, Repr

/-- `struct proc_pcb` -/
structure FaultPcb where
  /-- The reply capability of a thread that waits for its pager, 0 if there is none. -/
  faultReply : Nat := 0
  paramBuffer : Option Nat := none
  notificationBuffer : Option (List ProcNotification) := none
  deriving DecidableEq, Repr

/-- `procServ` -/
structure FaultServ where
  vspaceState : VspaceState
  targets : Nat → WindowTarget
  dspaceList : Coat RamDspace
  pcbs : Nat → Option FaultPcb

/-- `RAM_DATASPACE_MAX_NUM_DATASPACE` -/
def ramDspaceMax : Nat := 8192

/-- The processes `pids`, without windows and dataspaces. -/
def faultServInit (pids : Nat → Bool) : FaultServ where
  vspaceState := vspaceInit pids
  targets _ := {}
  dspaceList := .init 1 ramDspaceMax
  pcbs pid := if pids pid then some {} else none

/-- `struct procserv_vmfault_msg`, and how the calls outside end that the handler makes. -/
structure VmFault where
  pid : Nat
  pc : Nat
  faultAddr : Nat
  instruction : Nat
  read : Bool
  /-- The frame of the page, `none` where it cannot be allocated. -/
  frame : Option Nat
  /-- Whether there is memory for the waiter or for the copies of the capabilities. -/
  memory : Bool
  /-- Whether the kernel maps the frame. -/
  mapped : Bool
  /-- The slot that `vka_cspace_alloc_path` gives. -/
  cslot : Option { slot : Nat // slot ≠ 0 }
  /-- Whether `vka_cnode_saveCaller` succeeds. -/
  saved : Bool
  /-- Whether `rb_write` succeeds. -/
  written : Bool
  deriving DecidableEq, Repr

/-- The reply capability for a waiter, if it can be saved. -/
def VmFault.callerReply (f : VmFault) : Option Nat :=
  if f.saved then f.cslot.map Subtype.val else none

/-- How a fault ends: in `output_segmentation_fault`, in a reply, or with a notification. -/
inductive FaultEnd where
  | segfault
  | replied
  | delegated
  deriving DecidableEq, Repr

namespace FaultServ

def setVspace (s : FaultServ) (pid : Nat) (vs : Vspace) : FaultServ :=
  { s with vspaceState := s.vspaceState.setVspace pid vs }

def setDspace (s : FaultServ) (ID : Nat) (dspace : RamDspace) : FaultServ :=
  { s with dspaceList := s.dspaceList.set ID dspace }

def setPcb (s : FaultServ) (pid : Nat) (pcb : FaultPcb) : FaultServ :=
  { s with pcbs := Function.update s.pcbs pid (some pcb) }

/-- `ram_dspace_get` -/
def ramDspaceGet (s : FaultServ) (ID : Nat) : Option RamDspace :=
  if ID = 0 ∨ ramDspaceMax ≤ ID then none else s.dspaceList.get ID

/-! ## Faults -/

/-- `proc_save_caller`. The slot stays with the process also where the kernel refuses. -/
def procSaveCaller (s : FaultServ) (f : VmFault) (pcb : FaultPcb) : Err × FaultServ :=
  match f.cslot with
  | none => (.nomem, s.setPcb f.pid { pcb with faultReply := 0 })
  | some cslot =>
      (if f.saved then .success else .invalid, s.setPcb f.pid { pcb with faultReply := cslot })

/-- `rb_write` to the notification buffer of a process. -/
def rbWrite (s : FaultServ) (pid : Nat) (notification : ProcNotification) : FaultServ :=
  match s.pcbs pid with
  | none => s
  | some pcb =>
      s.setPcb pid
        { pcb with notificationBuffer := pcb.notificationBuffer.map (· ++ [notification]) }

/-- `fault_delegate_notification` -/
def faultDelegateNotification (s : FaultServ) (f : VmFault) (pcb : FaultPcb) (delegationPID : Nat)
    (delegationPCB : FaultPcb) (notification : ProcNotification) (saveReply : Bool) :
    FaultEnd × FaultServ :=
  if delegationPCB.notificationBuffer = none then (.segfault, s)
  else
    let (error, s) := if saveReply then s.procSaveCaller f pcb else (.success, s)
    if error ≠ .success then (.segfault, s)
    else if !f.written then (.segfault, s)
    else (.delegated, s.rbWrite delegationPID notification)

/-- What `handle_vm_fault_dspace` knows about a fault. The page is mapped afterwards. -/
def dspaceFault (s : FaultServ) (f : VmFault) (aw : AssociatedWindow) (dspace : RamDspace) :
    DspaceFault where
  faultAddr := f.faultAddr
  ramDataspaceOffset := (s.targets aw.winID).ramDataspaceOffset
  awOffset := aw.offset
  awSize := aw.size
  pager := (s.pcbs dspace.contentInitPID).isSome
  callerReply := f.callerReply
  memory := f.memory
  frame := f.frame.isSome
  mapped := .success

/-- The end of `handle_vm_fault_dspace`, once the dataspace is dealt with: the page is mapped, or
the content initialiser is notified. -/
def finishVmFaultDspace (s : FaultServ) (f : VmFault) (pcb : FaultPcb) (vs : Vspace)
    (contentInitPID : Nat) (notification : ProcNotification) :
    Err → Except Failure (FaultEnd × FaultServ)
  | .success =>
      match f.frame with
      | none => .ok (.segfault, s)
      | some frame => do
          let (error, vs) ←
            vsMap s.vspaceState.windowList vs f.faultAddr [frame] f.memory f.mapped
          return (if error = .success then .replied else .segfault, s.setVspace f.pid vs)
  | .delegated =>
      match s.pcbs contentInitPID with
      | none => .ok (.segfault, s)
      | some cinitPCB =>
          .ok (s.faultDelegateNotification f pcb contentInitPID cinitPCB notification false)
  | _ => .ok (.segfault, s)

/-- `handle_vm_fault_dspace`. What happens to the dataspace is `Refos.handleVmFaultDspace`: it ends
in success where the page is to be mapped, and in `EDELEGATED` where a waiter has been added. -/
def handleVmFaultDspace (s : FaultServ) (f : VmFault) (pcb : FaultPcb) (vs : Vspace)
    (aw : AssociatedWindow) : Except Failure (FaultEnd × FaultServ) :=
  match (s.targets aw.winID).ramDataspace with
  | none => .error .assertion
  | some ID =>
      match s.dspaceList.table ID with
      | none => .error .assertion
      | some dspace => do
          let fault := s.dspaceFault f aw dspace
          let (error, content) ← Refos.handleVmFaultDspace ⟨dspace, []⟩ fault
          (s.setDspace ID content.dspace).finishVmFaultDspace f pcb vs dspace.contentInitPID
            ⟨.contentInit, [ID, pageAlign fault.dspaceOffset]⟩ error

/-- `handle_vm_fault_pager` -/
def handleVmFaultPager (s : FaultServ) (f : VmFault) (pcb : FaultPcb) (aw : AssociatedWindow)
    (window : Window) : Except Failure (FaultEnd × FaultServ) :=
  let target := s.targets aw.winID
  let notification : ProcNotification :=
    { label := .faultDelegation
      arg := [aw.winID, window.size, f.faultAddr, aw.offset, f.instruction, window.permissions,
        f.pc] }
  if target.pagerPID = 0 then .error .assertion
  else
    match s.pcbs target.pagerPID with
    | none => .ok (.segfault, s)
    | some pagerPCB =>
        .ok (s.faultDelegateNotification f pcb target.pagerPID pagerPCB notification true)

/-- `handle_vm_fault`, for the process of a fault. The permissions are tested with `|`. -/
def handleVmFault (s : FaultServ) (f : VmFault) (pcb : FaultPcb) (vs : Vspace) :
    Except Failure (FaultEnd × FaultServ) :=
  if pcb.faultReply ≠ 0 then .ok (.segfault, s)
  else
    let vs' := vs.lookedUp
    let s := s.setVspace f.pid vs'
    match wAssociateFind vs.windows f.faultAddr with
    | none => .ok (.segfault, s)
    | some aw =>
        match wGetWindow s.vspaceState.windowList aw.winID with
        | none => .error .assertion
        | some window =>
            if f.read = true ∧ window.permissions ||| wPermissionRead = 0 then .ok (.segfault, s)
            else if f.read = false ∧ window.permissions ||| wPermissionWrite = 0 then
              .ok (.segfault, s)
            else if (vs.pages (f.faultAddr / pageSize)).isSome then .ok (.segfault, s)
            else
              match window.mode with
              | .empty => .ok (.segfault, s)
              | .anonymous => s.handleVmFaultDspace f pcb vs' aw
              | .pager => s.handleVmFaultPager f pcb aw window

/-! ## Calls on dataspaces -/

/-- `data_open_handler`, with whether a device is asked for and can be had. An id that
`ram_dspace_get` refuses cannot be given back. -/
def dataOpenHandler (s : FaultServ) (name : String) (size : Int) (device : Option Bool) :
    Except Failure FaultServ :=
  if size ≤ 0 then .ok s
  else if name ≠ "" ∧ name ≠ "anon" then .ok s
  else
    let dspace := { ramDspaceOatCreate size.toNat with physicalAddrEnabled := device = some true }
    match s.dspaceList.create ramDataspaceInvalidID fun _ => some dspace with
    | .error failure => .error failure
    | .ok (none, dspaceList) => .ok { s with dspaceList := dspaceList }
    | .ok (some (ID, _), dspaceList) =>
        if device = some false then
          if ramDspaceMax ≤ ID then .error .assertion
          else .ok { s with dspaceList := dspaceList.remove ID }
        else .ok { s with dspaceList := dspaceList }

/-- `data_expand_handler` -/
def dataExpandHandler (s : FaultServ) (ID size : Nat) : FaultServ :=
  match s.ramDspaceGet ID with
  | none => s
  | some dspace => s.setDspace ID (ramDspaceExpand dspace size true true).2

/-- `window_switch_mode`, and the fields that are set after it. -/
def switchWindow (s : FaultServ) (wID : Nat) (window : Window) (mode : WindowMode)
    (target : WindowTarget) : Except Failure FaultServ := do
  let vspaceState ← windowSwitchMode s.vspaceState wID window mode
  return { s with vspaceState := vspaceState, targets := Function.update s.targets wID target }

/-- `data_datamap_handler` -/
def dataDatamapHandler (s : FaultServ) (ID wID offset : Nat) : Except Failure FaultServ :=
  match wGetWindow s.vspaceState.windowList wID, s.ramDspaceGet ID with
  | some window, some dspace =>
      if u32 (dspace.npages * pageSize) < offset then .ok s
      else
        s.switchWindow wID window .anonymous
          { ramDataspace := some ID, ramDataspaceOffset := offset }
  | _, _ => .ok s

/-- `data_dataunmap_handler` -/
def dataDataunmapHandler (s : FaultServ) (wID : Nat) : Except Failure FaultServ :=
  match wGetWindow s.vspaceState.windowList wID with
  | none => .ok s
  | some window =>
      if window.mode = .anonymous then s.switchWindow wID window .empty {} else .ok s

/-- `data_have_data_handler`, and `data_unhave_data_handler` without an endpoint. -/
def dataHaveDataHandler (s : FaultServ) (pid ID : Nat) (faultNotifyEP : Option Nat) :
    Except Failure FaultServ :=
  match s.ramDspaceGet ID with
  | none => .ok s
  | some dspace => do
      let (_, content) ← Refos.dataHaveDataHandler ⟨dspace, []⟩ faultNotifyEP pid true
      return s.setDspace ID content.dspace

/-- `data_provide_data_from_parambuffer_handler`. Who waits gets a reply. -/
def dataProvideDataHandler (s : FaultServ) (pcb : FaultPcb) (ID offset contentSize : Nat) :
    Except Failure FaultServ :=
  match s.ramDspaceGet ID with
  | none => .ok s
  | some dspace => do
      let paramBuffer := pcb.paramBuffer.bind s.dspaceList.table
      let (_, content) ←
        Refos.dataProvideDataHandler ⟨dspace, []⟩ paramBuffer (fun _ => true) offset contentSize
      return s.setDspace ID content.dspace

/-! ## Other calls -/

/-- `proc_set_parambuffer_handler` -/
def procSetParambufferHandler (s : FaultServ) (pid : Nat) (pcb : FaultPcb) (ID : Option Nat) :
    FaultServ :=
  match ID with
  | none => s.setPcb pid { pcb with paramBuffer := none }
  | some ID =>
      match s.ramDspaceGet ID with
      | none => s
      | some _ => s.setPcb pid { pcb with paramBuffer := some ID }

/-- `proc_notification_buffer_handler` -/
def procNotificationBufferHandler (s : FaultServ) (pid : Nat) (pcb : FaultPcb) (ID : Nat) :
    FaultServ :=
  match s.ramDspaceGet ID with
  | none => s
  | some _ => s.setPcb pid { pcb with notificationBuffer := some [] }

/-- `proc_register_as_pager_handler`, and `proc_unregister_as_pager_handler` for the endpoint 0. -/
def procRegisterAsPagerHandler (s : FaultServ) (pid wID endpoint : Nat) :
    Except Failure FaultServ :=
  match wGetWindow s.vspaceState.windowList wID with
  | none => .ok s
  | some window =>
      if endpoint = 0 then s.switchWindow wID window .empty {}
      else s.switchWindow wID window .pager { pager := endpoint, pagerPID := pid }

end FaultServ

/-! ## Runs -/

/-- The calls on dataspaces, with a process that makes them where it matters, and page faults. -/
inductive MemCall where
  | dataOpen (name : String) (size : Int) (device : Option Bool)
  | dataExpand (ID size : Nat)
  | dataDatamap (ID wID offset : Nat)
  | dataDataunmap (wID : Nat)
  | dataHaveData (pid ID : Nat) (faultNotifyEP : Option Nat)
  | dataProvideData (pid ID offset contentSize : Nat)
  | fault (f : VmFault)
  deriving DecidableEq

/-- These, and the calls that set up windows, buffers and pagers. -/
inductive ServEvent where
  | call (c : MemCall)
  | window (e : MemEvent)
  | setParambuffer (pid : Nat) (ID : Option Nat)
  | notificationBuffer (pid ID : Nat)
  | registerAsPager (pid wID endpoint : Nat)
  deriving DecidableEq

/-- A call. Nothing comes from a process that does not exist. -/
def memCall (s : FaultServ) : MemCall → Except Failure FaultServ
  | .dataOpen name size device => s.dataOpenHandler name size device
  | .dataExpand ID size => .ok (s.dataExpandHandler ID size)
  | .dataDatamap ID wID offset => s.dataDatamapHandler ID wID offset
  | .dataDataunmap wID => s.dataDataunmapHandler wID
  | .dataHaveData pid ID faultNotifyEP =>
      match s.pcbs pid with
      | none => .ok s
      | some _ => s.dataHaveDataHandler pid ID faultNotifyEP
  | .dataProvideData pid ID offset contentSize =>
      match s.pcbs pid with
      | none => .ok s
      | some pcb => s.dataProvideDataHandler pcb ID offset contentSize
  | .fault f =>
      match s.pcbs f.pid, s.vspaceState.vspaces f.pid with
      | some pcb, some vs => do
          let (_, s) ← s.handleVmFault f pcb vs
          return s
      | _, _ => .ok s

/-- The step of an event. -/
def faultServStep (s : FaultServ) : ServEvent → Except Failure FaultServ
  | .call c => memCall s c
  | .window e => do
      let vspaceState ← memStep s.vspaceState e
      return { s with vspaceState := vspaceState }
  | .setParambuffer pid ID =>
      match s.pcbs pid with
      | none => .ok s
      | some pcb => .ok (s.procSetParambufferHandler pid pcb ID)
  | .notificationBuffer pid ID =>
      match s.pcbs pid with
      | none => .ok s
      | some pcb => .ok (s.procNotificationBufferHandler pid pcb ID)
  | .registerAsPager pid wID endpoint =>
      match s.pcbs pid with
      | none => .ok s
      | some _ => s.procRegisterAsPagerHandler pid wID endpoint

end PartitionSeL4.Refos
