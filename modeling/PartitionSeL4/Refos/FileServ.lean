import PartitionSeL4.Refos.DataStruct
import PartitionSeL4.Refos.Dataspace
import PartitionSeL4.Lib.Run

/-!
# The file server

The file server serves the files of an archive, which are read-only, and up to 64 RAM files, which
its clients create. An open file is a *dataspace*: a pointer to the contents and a size of its own.
A dataspace is read and written directly, mapped into a window, for which the file server then is
the pager, or taken as the initial contents of a dataspace of the process server. For the last two
the server keeps an association from the id of the window or the external dataspace to the *id* of
its own dataspace, and serves the notifications of the process server from there.

Calls to the process server and the allocation of page frames succeed here. The allocations on the
heap may fail, and those with which `cvector_add` makes a vector longer then end in its assertion:
whether a vector has room for one more item, or gets it, is part of the event. The list of free ids
is too short to have a mapping of its own, so that it is cut back where it is.

Three things are kept that the source has no variables for: the name a dataspace was opened under,
the file that an association was made for, and the list of creations of RAM files and writes to
them.
-/

namespace PartitionSeL4.Refos

open Lib

/-! ## The data -/

/-- `CPIO_RAMFS_MAX_CREATED_FILES` -/
def cpioRamfsMaxCreatedFiles : Nat := 64

/-- `CPIO_RAMFS_MAX_FILESSIZE` -/
def cpioRamfsMaxFilessize : Nat := 40960

/-- `CPIO_RAMFS_MAX_FILENAME` -/
def cpioRamfsMaxFilename : Nat := 32

/-- `FILESERVER_MAX_DATASPACES` -/
def fileserverMaxDataspaces : Nat := 8192

/-- `FS_DSPACE_BADGE_BASE` -/
def fsDspaceBadgeBase : Nat := 0x32 + 2048

/-- The files of `_cpio_archive`, with their names. -/
abbrev CpioArchive := List (List UInt8 × List UInt8)

/-- `cpio_get_file` -/
def cpioGetFile (archive : CpioArchive) (name : List UInt8) : Option (List UInt8) :=
  (archive.find? fun entry => entry.1 = name).map Prod.snd

/-- A pointer to the contents of a file: in the archive, or in `_ramfs_archive`. -/
inductive FileData where
  | cpio (name : List UInt8)
  | ramfs (i : Nat)
  deriving DecidableEq, Repr

/-- `struct fs_dataspace` -/
structure FsDataspace where
  dID : Nat
  fileData : FileData
  fileDataSize : Nat
  fileCreated : Bool
  /-- The name it was opened under. -/
  name : List UInt8
  deriving DecidableEq, Repr

/-- `struct dataspace_association_info` -/
structure DataspaceAssociationInfo where
  dataspaceID : Nat
  dataspaceOffset : Nat
  /-- The file that was open under the id when the association was made. -/
  file : FileData
  deriving DecidableEq, Repr

/-- The association with a dataspace, at an offset. -/
def FsDataspace.association (dspace : FsDataspace) (offset : Nat) : DataspaceAssociationInfo where
  dataspaceID := dspace.dID
  dataspaceOffset := offset
  file := dspace.fileData

/-- What was done to RAM files. -/
inductive RamOp where
  /-- An `open` with `O_CREAT`. -/
  | create (name : List UInt8)
  | write (name : List UInt8) (offset : Nat) (data : List UInt8)
  deriving DecidableEq, Repr

/-- The state of the file server. The names of the RAM files are rows of 32 bytes in one array. -/
structure FileServ where
  allocTable : Coat FsDataspace
  windowAssocTable : Nat → Option DataspaceAssociationInfo
  dspaceAssocTable : Nat → Option DataspaceAssociationInfo
  ramfsArchive : Nat → Nat → UInt8
  ramfsFilename : Nat → UInt8
  ramfsFilesz : Nat → Nat
  ramfsCurfile : Nat
  /-- The creations and writes so far. -/
  ops : List RamOp

/-- `dspace_table_init`. The static arrays are zero; so is, here, what lies behind them. -/
def fileServInit : FileServ where
  allocTable := .init 1 fileserverMaxDataspaces
  windowAssocTable _ := none
  dspaceAssocTable _ := none
  ramfsArchive _ _ := 0
  ramfsFilename _ := 0
  ramfsFilesz _ := 0
  ramfsCurfile := 0
  ops := []

namespace FileServ

/-- `dspace_get` -/
def dspaceGet (s : FileServ) (id : Nat) : Option FsDataspace :=
  if fileserverMaxDataspaces ≤ id then none else s.allocTable.get id

/-- `dspace_get_badge` -/
def dspaceGetBadge (s : FileServ) (badge : Nat) : Option FsDataspace :=
  if badge < fsDspaceBadgeBase ∨ fsDspaceBadgeBase + fileserverMaxDataspaces ≤ badge then none
  else s.dspaceGet (badge - fsDspaceBadgeBase)

/-- `dspace_delete`. `freelist` is whether the list of free ids has room for the id, or gets it. -/
def dspaceDelete (s : FileServ) (id : Nat) (freelist : Bool) : Except Failure FileServ :=
  match s.allocTable.toDelete id with
  | some _ =>
      if freelist then .ok { s with allocTable := s.allocTable.remove id } else .error .assertion
  | none => .ok s

/-- The byte at a position of a file. -/
def byte (archive : CpioArchive) (s : FileServ) (file : FileData) (pos : Nat) : UInt8 :=
  match file with
  | .cpio name => ((cpioGetFile archive name).getD []).getD pos 0
  | .ramfs i => s.ramfsArchive i pos

end FileServ

/-- What the allocations of an association come to. -/
structure AssocOutcome where
  /-- There is memory for the association. -/
  malloc : Bool
  /-- The hash table has an entry for the id, or there is memory for one. -/
  entry : Bool
  /-- The vector of its bucket has room for a new entry, or gets it. -/
  bucket : Bool
  deriving DecidableEq, Repr

def AssocOutcome.granted : AssocOutcome := ⟨true, true, true⟩

/-- Whether `chash_set` runs into the assertion of `cvector_add`. -/
def AssocOutcome.asserts (o : AssocOutcome) : Bool := o.malloc && o.entry && !o.bucket

/-- `dspace_externalID_associate`, which first removes the association there was. -/
def dspaceExternalIDAssociate (table : Nat → Option DataspaceAssociationInfo) (objID : Nat)
    (di : DataspaceAssociationInfo) (o : AssocOutcome) :
    Except Failure (Err × (Nat → Option DataspaceAssociationInfo)) :=
  if o.malloc = false then .ok (.nomem, Function.update table objID none)
  -- the answer of `chash_set` is not looked at
  else if o.entry = false then .ok (.success, Function.update table objID none)
  else if o.bucket = false then .error .assertion
  else .ok (.success, Function.update table objID (some di))

/-! ## `data_open` -/

/-- `strcmp(name, s) == 0`, for a string `s` at an address. -/
def strEq (mem : Nat → UInt8) : List UInt8 → Nat → Bool
  | [], addr => mem addr = 0
  | c :: name, addr => mem addr = c && strEq mem name (addr + 1)

/-- `strncpy`: the string, padded with zeros to `n` bytes, or its first `n` bytes. -/
def strncpyBytes (name : List UInt8) (n : Nat) : List UInt8 :=
  name.take n ++ List.replicate (n - name.length) 0

/-- The bits of `rpc_flags` that are looked at. -/
structure OpenFlags where
  /-- `rpc_flags & O_ACCMODE` is `O_RDONLY`. -/
  rdonly : Bool
  /-- `rpc_flags & O_CREAT` -/
  creat : Bool
  deriving DecidableEq, Repr

/-- A file to be opened. -/
structure FoundFile where
  fileData : FileData
  fileDataSize : Nat
  fileCreated : Bool
  deriving DecidableEq, Repr

namespace FileServ

/-- The loop of `data_open_handler` over the RAM files. -/
def findRamfs (s : FileServ) (name : List UInt8) : Option Nat :=
  (List.range s.ramfsCurfile).find? fun i => strEq s.ramfsFilename name (cpioRamfsMaxFilename * i)

/-- A RAM file is made empty, because it is new or created again. -/
def createRamfs (s : FileServ) (i : Nat) (name : List UInt8) : FileServ :=
  { s with
    ramfsArchive := Function.update s.ramfsArchive i fun _ => 0
    ramfsFilesz := Function.update s.ramfsFilesz i 0
    ops := s.ops ++ [.create name] }

/-- The first part of `data_open_handler`: the file, in the archive or a RAM file. The contents of a
new RAM file are the zeros that are there. -/
def findFile (archive : CpioArchive) (s : FileServ) (name : List UInt8) (flags : OpenFlags) :
    Except Err (FoundFile × FileServ) :=
  match cpioGetFile archive name with
  | some contents =>
      if flags.rdonly = false then .error .accessDenied
      else .ok ({ fileData := .cpio name, fileDataSize := u32 contents.length,
                  fileCreated := false }, s)
  | none =>
      match s.findRamfs name with
      | some i =>
          let s := if flags.creat then s.createRamfs i name else s
          .ok ({ fileData := .ramfs i, fileDataSize := s.ramfsFilesz i, fileCreated := true }, s)
      | none =>
          if flags.creat = false then .error .fileNotFound
          else if cpioRamfsMaxCreatedFiles ≤ s.ramfsCurfile then .error .accessDenied
          else
            let i := s.ramfsCurfile
            .ok ({ fileData := .ramfs i, fileDataSize := 0, fileCreated := true },
              { s with
                ramfsFilename := blit s.ramfsFilename (cpioRamfsMaxFilename * i)
                  (strncpyBytes name cpioRamfsMaxFilename)
                ramfsCurfile := i + 1
                ops := s.ops ++ [.create name] })

end FileServ

/-- What the allocations of `coat_alloc` come to. -/
structure OpenOutcome where
  /-- The table of the objects reaches to the new id, or grows to it. -/
  table : Bool
  /-- There is memory for the dataspace. -/
  malloc : Bool
  cslot : Bool
  /-- The list of free ids has room for the id if it is given back, or gets it. -/
  freelist : Bool
  deriving DecidableEq, Repr

def OpenOutcome.granted : OpenOutcome := ⟨true, true, true, true⟩

/-- Whether `coat_alloc` runs into an assertion once it has an id: that of `cvector_add` for the
table, that of `dspace_oat_create`, or, without a slot for the capability, that of `cvector_add` for
the id. -/
def OpenOutcome.asserts (o : OpenOutcome) : Bool :=
  !o.table || !o.malloc || (!o.cslot && !o.freelist)

/-- The answer to a request or notification. -/
inductive FileReply where
  | error (e : Err)
  | ok
  /-- The badge of a new dataspace. -/
  | dspace (badge : Nat)
  | bytes (data : List UInt8)
  | written (count : Nat)
  /-- A page frame is mapped into the client's window. -/
  | page (frame : Nat → UInt8)
  /-- Contents are provided to the process server. -/
  | provided (data : List UInt8)

/-- `data_open_handler` -/
def dataOpenHandler (archive : CpioArchive) (s : FileServ) (name : List UInt8) (flags : OpenFlags)
    (o : OpenOutcome) : Except Failure (FileReply × FileServ) :=
  match s.findFile archive name flags with
  | .error e => .ok (.error e, s)
  | .ok (file, s) =>
      let create := fun id =>
        if o.malloc && o.cslot then
          some { dID := id, fileData := file.fileData, fileDataSize := file.fileDataSize,
                 fileCreated := file.fileCreated, name := name : FsDataspace }
        else none
      if s.allocTable.pool.alloc.isSome ∧ o.asserts = true then .error .assertion
      else
        match s.allocTable.alloc create with
        | (none, allocTable) => .ok (.error .nomem, { s with allocTable := allocTable })
        | (some (id, _), allocTable) =>
            .ok (.dspace (id + fsDspaceBadgeBase), { s with allocTable := allocTable })

/-! ## The other requests -/

/-- `data_close_handler` -/
def dataCloseHandler (s : FileServ) (caps : Bool) (fd : Nat) (freelist : Bool) :
    Except Failure (FileReply × FileServ) :=
  if caps = false then .ok (.error .invalidParam, s)
  else if (s.dspaceGetBadge fd).isNone then .ok (.error .invalidParam, s)
  else do
    let s ← s.dspaceDelete (fd - fsDspaceBadgeBase) freelist
    return (.ok, s)

/-- `data_read_handler`: the bytes read, into a buffer of `count` bytes. -/
def dataReadHandler (archive : CpioArchive) (s : FileServ) (caps : Bool) (fd offset count : Nat) :
    FileReply :=
  if caps = false then .error .invalidParam
  else
    match s.dspaceGetBadge fd with
    | none => .bytes []
    | some dspace =>
        if dspace.fileDataSize ≤ offset then .bytes []
        else .bytes (slice (s.byte archive dspace.fileData) offset
          (min (dspace.fileDataSize - offset) count))

/-- `data_write_handler`. The sum of offset and count is a 32-bit word. A `memcpy` past the file is
an access outside the array. -/
def dataWriteHandler (s : FileServ) (caps : Bool) (fd offset : Nat) (data : List UInt8) :
    Except Failure (FileReply × FileServ) :=
  if caps = false then .ok (.error .invalidParam, s)
  else
    match s.dspaceGetBadge fd with
    | none => .ok (.written 0, s)
    | some dspace =>
        match dspace.fileCreated, dspace.fileData with
        | true, .ramfs i =>
            let stop := u32 (offset + data.length)
            if dspace.fileDataSize < stop ∧ cpioRamfsMaxFilessize < stop then .error .assertion
            else if cpioRamfsMaxFilessize < offset + data.length then .error .fault
            else
              let dspace := { dspace with fileDataSize := max dspace.fileDataSize stop }
              .ok (.written data.length,
                { s with
                  allocTable := s.allocTable.set (fd - fsDspaceBadgeBase) dspace
                  ramfsFilesz := Function.update s.ramfsFilesz i dspace.fileDataSize
                  ramfsArchive := Function.update s.ramfsArchive i
                    (blit (s.ramfsArchive i) offset data)
                  ops := s.ops ++ [.write dspace.name offset data] })
        | _, _ => .ok (.error .accessDenied, s)

/-- `data_datamap_handler`. `winID` is the answer of `proc_register_as_pager`. -/
def dataDatamapHandler (s : FileServ) (caps : Bool) (fd : Nat) (window : Bool) (offset winID : Nat)
    (o : AssocOutcome) : Except Failure (FileReply × FileServ) :=
  if caps = false then .ok (.error .invalidParam, s)
  else
    match s.dspaceGetBadge fd with
    | none => .ok (.error .invalidParam, s)
    | some dspace =>
        if window = false then .ok (.error .invalidParam, s)
        else do
          let (error, table) ← dspaceExternalIDAssociate s.windowAssocTable winID
            (dspace.association offset) o
          return (if error = .success then .ok else .error error,
            { s with windowAssocTable := table })

/-- `data_dataunmap_handler`. `winID` is the answer of `proc_window_getID`. -/
def dataDataunmapHandler (s : FileServ) (caps window : Bool) (winID : Nat) :
    FileReply × FileServ :=
  if caps = false ∨ window = false then (.error .invalidParam, s)
  else (.ok, { s with windowAssocTable := Function.update s.windowAssocTable winID none })

/-- `data_init_data_handler`. `dataID` is the answer of `data_have_data`. -/
def dataInitDataHandler (s : FileServ) (caps : Bool) (srcDataspace : Nat) (dest : Bool)
    (srcDataspaceOffset dataID : Nat) (o : AssocOutcome) : Except Failure (FileReply × FileServ) :=
  if caps = false then .ok (.error .invalidParam, s)
  else
    match s.dspaceGetBadge srcDataspace with
    | none => .ok (.error .invalidParam, s)
    | some dspace =>
        if dest = false then .ok (.error .nomem, s)
        else do
          let (error, table) ← dspaceExternalIDAssociate s.dspaceAssocTable dataID
            (dspace.association srcDataspaceOffset) o
          return (if error = .success then .ok else .error error,
            { s with dspaceAssocTable := table })

/-! ## Notifications -/

/-- The arguments of `PROCSERV_NOTIFY_FAULT_DELEGATION`. -/
structure FaultNotification where
  winID : Nat
  winSize : Nat
  faultAddr : Nat
  winBase : Nat
  deriving DecidableEq, Repr

namespace FaultNotification

/-- `initFrameSkip`: what the first page of a window has before the window. -/
def initFrameSkip (n : FaultNotification) : Nat :=
  if pageAlign n.faultAddr < n.winBase then n.winBase - pageAlign n.faultAddr else 0

/-- `dataspaceSkipWinOffset`: the offset of the page in the window. -/
def dataspaceSkipWinOffset (n : FaultNotification) : Nat :=
  if pageAlign n.faultAddr < n.winBase then 0 else pageAlign n.faultAddr - n.winBase

end FaultNotification

/-- A difference of 32-bit words. -/
def sub32 (a b : Nat) : Nat := u32 (a + 2 ^ 32 - b)

/-- `handle_fileserver_fault` -/
def handleFileserverFault (archive : CpioArchive) (s : FileServ) (n : FaultNotification) :
    Except Failure (FileReply × FileServ) :=
  match s.windowAssocTable n.winID with
  | none => .error .assertion
  | some dwa =>
      match s.dspaceGet dwa.dataspaceID with
      | none => .error .assertion
      | some dspace =>
          let size := dspace.fileDataSize
          let left := sub32 (sub32 size n.dataspaceSkipWinOffset) dwa.dataspaceOffset
          let nbytes := min (min (pageSize - n.initFrameSkip) left)
            (sub32 n.winSize n.dataspaceSkipWinOffset)
          if size < left ∨ size < sub32 size n.dataspaceSkipWinOffset ∨
              size < sub32 size dwa.dataspaceOffset then .error .assertion
          else
            .ok (.page (blit (fun _ => 0) n.initFrameSkip
              (slice (s.byte archive dspace.fileData)
                (dwa.dataspaceOffset + n.dataspaceSkipWinOffset) nbytes)), s)

/-- `handle_fileserver_content_init` -/
def handleFileserverContentInit (archive : CpioArchive) (s : FileServ)
    (dataID destDataspaceOffset : Nat) : Except Failure (FileReply × FileServ) :=
  match s.dspaceAssocTable dataID with
  | none => .error .assertion
  | some dda =>
      match s.dspaceGet dda.dataspaceID with
      | none => .error .assertion
      | some dspace =>
          let dataspaceOffset := u32 (destDataspaceOffset + dda.dataspaceOffset)
          let contentSize := min (sub32 dspace.fileDataSize dataspaceOffset) pageSize
          if dataspaceOffset < dspace.fileDataSize then
            .ok (.provided (slice (s.byte archive dspace.fileData) dataspaceOffset contentSize), s)
          else .error .assertion

/-! ## The server -/

/-- The requests and notifications that the file server handles. -/
inductive FileEvent where
  | dataOpen (name : List UInt8) (flags : OpenFlags) (o : OpenOutcome)
  | dataClose (caps : Bool) (fd : Nat) (freelist : Bool)
  | dataRead (caps : Bool) (fd offset count : Nat)
  | dataWrite (caps : Bool) (fd offset : Nat) (data : List UInt8)
  | dataDatamap (caps : Bool) (fd : Nat) (window : Bool) (offset winID : Nat) (o : AssocOutcome)
  | dataDataunmap (caps window : Bool) (winID : Nat)
  | dataInitData (caps : Bool) (fd : Nat) (dest : Bool) (offset dataID : Nat) (o : AssocOutcome)
  | fault (n : FaultNotification)
  | contentInit (dataID destDataspaceOffset : Nat)
  deriving DecidableEq, Repr

/-- The answer to an event, and the state after it. -/
def fileHandle (archive : CpioArchive) (s : FileServ) :
    FileEvent → Except Failure (FileReply × FileServ)
  | .dataOpen name flags o => dataOpenHandler archive s name flags o
  | .dataClose caps fd freelist => dataCloseHandler s caps fd freelist
  | .dataRead caps fd offset count => .ok (dataReadHandler archive s caps fd offset count, s)
  | .dataWrite caps fd offset data => dataWriteHandler s caps fd offset data
  | .dataDatamap caps fd window offset winID o =>
      dataDatamapHandler s caps fd window offset winID o
  | .dataDataunmap caps window winID => .ok (dataDataunmapHandler s caps window winID)
  | .dataInitData caps fd dest offset dataID o =>
      dataInitDataHandler s caps fd dest offset dataID o
  | .fault n => handleFileserverFault archive s n
  | .contentInit dataID destDataspaceOffset =>
      handleFileserverContentInit archive s dataID destDataspaceOffset

/-- The effect of an event. -/
def fileStep (archive : CpioArchive) (s : FileServ) (e : FileEvent) : Except Failure FileServ :=
  (fileHandle archive s e).map Prod.snd

/-- The numbers of an event are 32-bit words, a string holds no zero, and a fault lies in its
window. -/
def FileEvent.Words : FileEvent → Prop
  | .dataOpen name _ _ => 0 ∉ name
  | .dataWrite _ _ offset data => offset < 2 ^ 32 ∧ data.length < 2 ^ 32
  | .dataDatamap _ _ _ offset _ _ | .dataInitData _ _ _ offset _ _ => offset < 2 ^ 32
  | .fault n => n.winBase ≤ n.faultAddr ∧ n.faultAddr < n.winBase + n.winSize ∧
      n.winBase + n.winSize ≤ 2 ^ 32
  | .contentInit _ destDataspaceOffset => destDataspaceOffset < 2 ^ 32
  | .dataClose _ _ _ | .dataRead _ _ _ _ | .dataDataunmap _ _ _ => True

instance : (e : FileEvent) → Decidable e.Words
  | .dataOpen _ _ _ => inferInstanceAs (Decidable (_ ∉ _))
  | .dataWrite _ _ _ _ => inferInstanceAs (Decidable (_ ∧ _))
  | .dataDatamap _ _ _ _ _ _ | .dataInitData _ _ _ _ _ _ => inferInstanceAs (Decidable (_ < _))
  | .fault _ => inferInstanceAs (Decidable (_ ∧ _ ∧ _))
  | .contentInit _ _ => inferInstanceAs (Decidable (_ < _))
  | .dataClose _ _ _ | .dataRead _ _ _ _ | .dataDataunmap _ _ _ =>
      inferInstanceAs (Decidable True)

/-! ## What a step does -/

/-- The dataspace that an `open` adds. -/
def FoundFile.dataspace (file : FoundFile) (id : Nat) (name : List UInt8) : FsDataspace where
  dID := id
  fileData := file.fileData
  fileDataSize := file.fileDataSize
  fileCreated := file.fileCreated
  name := name

/-- The ways in which a step changes the state. -/
inductive FileChange (archive : CpioArchive) (s : FileServ) : FileEvent → FileServ → Prop
  | unchanged (e : FileEvent) : FileChange archive s e s
  /-- The file was found, and maybe created, but there is no dataspace for it. -/
  | notOpened {name : List UInt8} {flags : OpenFlags} {o : OpenOutcome} {file : FoundFile}
      {s' : FileServ} (t : Coat FsDataspace)
      (found : s.findFile archive name flags = .ok (file, s')) (coat : t.Ok)
      (table : t.table = s.allocTable.table) :
      FileChange archive s (.dataOpen name flags o) { s' with allocTable := t }
  | opened {name : List UInt8} {flags : OpenFlags} {o : OpenOutcome} {file : FoundFile}
      {s' : FileServ} {id : Nat} {pool : Cpool} (t : Coat FsDataspace)
      (found : s.findFile archive name flags = .ok (file, s'))
      (alloc : s.allocTable.pool.alloc = some (id, pool)) (coat : t.Ok)
      (fresh : s.allocTable.table id = none)
      (table : t.table = Function.update s.allocTable.table id (some (file.dataspace id name))) :
      FileChange archive s (.dataOpen name flags o) { s' with allocTable := t }
  | closed {caps freelist : Bool} {fd id : Nat} {dspace : FsDataspace}
      (live : s.allocTable.table id = some dspace) :
      FileChange archive s (.dataClose caps fd freelist)
        { s with allocTable := s.allocTable.remove id }
  | wrote {caps : Bool} {fd offset id i : Nat} {data : List UInt8} {dspace : FsDataspace}
      (get : s.dspaceGetBadge fd = some dspace) (live : s.allocTable.table id = some dspace)
      (created : dspace.fileCreated = true) (file : dspace.fileData = .ramfs i)
      (fits : offset + data.length ≤ cpioRamfsMaxFilessize) :
      FileChange archive s (.dataWrite caps fd offset data)
        { s with
          allocTable := s.allocTable.set id
            { dspace with fileDataSize := max dspace.fileDataSize (offset + data.length) }
          ramfsFilesz := Function.update s.ramfsFilesz i
            (max dspace.fileDataSize (offset + data.length))
          ramfsArchive := Function.update s.ramfsArchive i (blit (s.ramfsArchive i) offset data)
          ops := s.ops ++ [.write dspace.name offset data] }
  | mapped {caps window : Bool} {o : AssocOutcome} {fd offset winID id : Nat}
      {dspace : FsDataspace}
      (di : Option DataspaceAssociationInfo) (live : s.allocTable.table id = some dspace)
      (assoc : ∀ d ∈ di, d = dspace.association offset) :
      FileChange archive s (.dataDatamap caps fd window offset winID o)
        { s with windowAssocTable := Function.update s.windowAssocTable winID di }
  | unmapped {caps window : Bool} {winID : Nat} :
      FileChange archive s (.dataDataunmap caps window winID)
        { s with windowAssocTable := Function.update s.windowAssocTable winID none }
  | initialised {caps dest : Bool} {o : AssocOutcome} {fd offset dataID id : Nat}
      {dspace : FsDataspace}
      (di : Option DataspaceAssociationInfo) (live : s.allocTable.table id = some dspace)
      (assoc : ∀ d ∈ di, d = dspace.association offset) :
      FileChange archive s (.dataInitData caps fd dest offset dataID o)
        { s with dspaceAssocTable := Function.update s.dspaceAssocTable dataID di }

namespace FileServ

variable {archive : CpioArchive} {s s' : FileServ}

theorem table_of_dspaceGet {id : Nat} {dspace : FsDataspace} (h : s.dspaceGet id = some dspace) :
    s.allocTable.table id = some dspace := by
  rw [dspaceGet] at h
  split_ifs at h
  exact Coat.table_of_get h

theorem table_of_dspaceGetBadge {fd : Nat} {dspace : FsDataspace}
    (h : s.dspaceGetBadge fd = some dspace) :
    s.allocTable.table (fd - fsDspaceBadgeBase) = some dspace := by
  rw [dspaceGetBadge] at h
  split_ifs at h
  exact table_of_dspaceGet h

theorem findFile_frame {name : List UInt8} {flags : OpenFlags} {file : FoundFile}
    (h : s.findFile archive name flags = .ok (file, s')) :
    s'.allocTable = s.allocTable ∧ s'.windowAssocTable = s.windowAssocTable ∧
      s'.dspaceAssocTable = s.dspaceAssocTable := by
  simp only [findFile] at h
  split at h
  · split_ifs at h
    obtain ⟨_, rfl⟩ := Prod.mk.inj (Except.ok.inj h)
    exact ⟨rfl, rfl, rfl⟩
  · split at h
    · obtain ⟨_, rfl⟩ := Prod.mk.inj (Except.ok.inj h)
      split_ifs <;> exact ⟨rfl, rfl, rfl⟩
    · split_ifs at h
      obtain ⟨_, rfl⟩ := Prod.mk.inj (Except.ok.inj h)
      exact ⟨rfl, rfl, rfl⟩

theorem change_of_open {name : List UInt8} {flags : OpenFlags} {o : OpenOutcome} {r : FileReply}
    (h : s.allocTable.Ok) (hs' : dataOpenHandler archive s name flags o = .ok (r, s')) :
    FileChange archive s (.dataOpen name flags o) s' := by
  simp only [dataOpenHandler] at hs'
  split at hs'
  · obtain ⟨_, rfl⟩ := Prod.mk.inj (Except.ok.inj hs')
    exact .unchanged _
  · rename_i file s₁ hfound
    obtain ⟨hsame, _⟩ := findFile_frame hfound
    rw [hsame] at hs'
    by_cases hoom : s.allocTable.pool.alloc.isSome ∧ o.asserts = true
    · rw [if_pos hoom] at hs'
      cases hs'
    rw [if_neg hoom] at hs'
    split at hs'
    · rename_i t halloc
      obtain ⟨_, rfl⟩ := Prod.mk.inj (Except.ok.inj hs')
      obtain ⟨hcoat, htable, _⟩ := h.of_alloc_none halloc
      exact .notOpened t hfound hcoat htable
    · rename_i id dspace t halloc
      obtain ⟨_, rfl⟩ := Prod.mk.inj (Except.ok.inj hs')
      obtain ⟨hcoat, htable, hfresh, hcreate, ⟨pool, hpool⟩, _⟩ := h.of_alloc_some halloc
      split_ifs at hcreate
      obtain rfl := Option.some.inj hcreate
      exact .opened t hfound hpool hcoat hfresh htable

theorem change_of_write {caps : Bool} {fd offset : Nat} {data : List UInt8} {r : FileReply}
    (hs' : dataWriteHandler s caps fd offset data = .ok (r, s')) :
    FileChange archive s (.dataWrite caps fd offset data) s' := by
  simp only [dataWriteHandler] at hs'
  split at hs'
  · obtain ⟨_, rfl⟩ := Prod.mk.inj (Except.ok.inj hs')
    exact .unchanged _
  split at hs'
  · obtain ⟨_, rfl⟩ := Prod.mk.inj (Except.ok.inj hs')
    exact .unchanged _
  rename_i dspace hget
  split at hs'
  · rename_i i hcreated hfile
    split_ifs at hs' with hmax hlong
    obtain ⟨_, rfl⟩ := Prod.mk.inj (Except.ok.inj hs')
    have hfits := Nat.not_lt.1 hlong
    have hword : u32 (offset + data.length) = offset + data.length :=
      u32_of_lt (Nat.lt_of_le_of_lt hfits (by decide))
    rw [hword]
    exact .wrote hget (table_of_dspaceGetBadge hget) hcreated hfile hfits
  · obtain ⟨_, rfl⟩ := Prod.mk.inj (Except.ok.inj hs')
    exact .unchanged _

theorem change_of_close {caps freelist : Bool} {fd : Nat} {r : FileReply}
    (hs' : dataCloseHandler s caps fd freelist = .ok (r, s')) :
    FileChange archive s (.dataClose caps fd freelist) s' := by
  simp only [dataCloseHandler] at hs'
  split at hs'
  · exact (Prod.mk.inj (Except.ok.inj hs')).2 ▸ .unchanged _
  split at hs'
  · exact (Prod.mk.inj (Except.ok.inj hs')).2 ▸ .unchanged _
  obtain ⟨t, ht, hs'⟩ := bind_eq_ok_iff.1 hs'
  obtain rfl := (Prod.mk.inj (Except.ok.inj hs')).2
  rw [dspaceDelete] at ht
  split at ht
  · rename_i dspace hdel
    split_ifs at ht
    exact Except.ok.inj ht ▸ .closed (Coat.table_of_toDelete hdel)
  · exact Except.ok.inj ht ▸ .unchanged _

/-- An association is made, or the one that there was is removed. -/
theorem associate_cases {table table' : Nat → Option DataspaceAssociationInfo} {objID : Nat}
    {di : DataspaceAssociationInfo} {o : AssocOutcome} {e : Err}
    (h : dspaceExternalIDAssociate table objID di o = .ok (e, table')) :
    ∃ x : Option DataspaceAssociationInfo, table' = Function.update table objID x ∧
      ∀ d ∈ x, d = di := by
  rw [dspaceExternalIDAssociate] at h
  split_ifs at h
  · exact ⟨none, (Prod.mk.inj (Except.ok.inj h)).2.symm, by simp⟩
  · exact ⟨none, (Prod.mk.inj (Except.ok.inj h)).2.symm, by simp⟩
  · exact ⟨some di, (Prod.mk.inj (Except.ok.inj h)).2.symm, by simp⟩

theorem change_of_datamap {caps window : Bool} {o : AssocOutcome} {fd offset winID : Nat}
    {r : FileReply} (hs' : dataDatamapHandler s caps fd window offset winID o = .ok (r, s')) :
    FileChange archive s (.dataDatamap caps fd window offset winID o) s' := by
  simp only [dataDatamapHandler] at hs'
  split at hs'
  · exact (Prod.mk.inj (Except.ok.inj hs')).2 ▸ .unchanged _
  split at hs'
  · exact (Prod.mk.inj (Except.ok.inj hs')).2 ▸ .unchanged _
  rename_i dspace hget
  split at hs'
  · exact (Prod.mk.inj (Except.ok.inj hs')).2 ▸ .unchanged _
  obtain ⟨⟨e, table⟩, htable, hs'⟩ := bind_eq_ok_iff.1 hs'
  obtain rfl := (Prod.mk.inj (Except.ok.inj hs')).2
  obtain ⟨di, rfl, hdi⟩ := associate_cases htable
  exact .mapped di (table_of_dspaceGetBadge hget) hdi

theorem change_of_initData {caps dest : Bool} {o : AssocOutcome} {fd offset dataID : Nat}
    {r : FileReply} (hs' : dataInitDataHandler s caps fd dest offset dataID o = .ok (r, s')) :
    FileChange archive s (.dataInitData caps fd dest offset dataID o) s' := by
  simp only [dataInitDataHandler] at hs'
  split at hs'
  · exact (Prod.mk.inj (Except.ok.inj hs')).2 ▸ .unchanged _
  split at hs'
  · exact (Prod.mk.inj (Except.ok.inj hs')).2 ▸ .unchanged _
  rename_i dspace hget
  split at hs'
  · exact (Prod.mk.inj (Except.ok.inj hs')).2 ▸ .unchanged _
  obtain ⟨⟨e, table⟩, htable, hs'⟩ := bind_eq_ok_iff.1 hs'
  obtain rfl := (Prod.mk.inj (Except.ok.inj hs')).2
  obtain ⟨di, rfl, hdi⟩ := associate_cases htable
  exact .initialised di (table_of_dspaceGetBadge hget) hdi

theorem eq_of_fault {n : FaultNotification} {r : FileReply}
    (hs' : handleFileserverFault archive s n = .ok (r, s')) : s = s' := by
  simp only [handleFileserverFault] at hs'
  split at hs'
  · cases hs'
  split at hs'
  · cases hs'
  split_ifs at hs'
  exact (Prod.mk.inj (Except.ok.inj hs')).2

theorem eq_of_contentInit {dataID offset : Nat} {r : FileReply}
    (hs' : handleFileserverContentInit archive s dataID offset = .ok (r, s')) : s = s' := by
  simp only [handleFileserverContentInit] at hs'
  split at hs'
  · cases hs'
  split at hs'
  · cases hs'
  split_ifs at hs'
  exact (Prod.mk.inj (Except.ok.inj hs')).2

theorem handle_of_step {e : FileEvent} (hs' : fileStep archive s e = .ok s') :
    ∃ r, fileHandle archive s e = .ok (r, s') := by
  cases hx : fileHandle archive s e with
  | error f => simp [fileStep, hx, Except.map] at hs'
  | ok x =>
      obtain rfl : x.2 = s' := by simpa [fileStep, hx, Except.map] using hs'
      exact ⟨x.1, rfl⟩

/-- Every step is one of the changes. -/
theorem change_of_step {e : FileEvent} (h : s.allocTable.Ok) (hs' : fileStep archive s e = .ok s') :
    FileChange archive s e s' := by
  obtain ⟨r, hr⟩ := handle_of_step hs'
  cases e with
  | dataOpen name flags o => exact change_of_open h hr
  | dataClose caps fd freelist => exact change_of_close hr
  | dataRead caps fd offset count =>
      exact (Prod.mk.inj (Except.ok.inj hr)).2 ▸ .unchanged _
  | dataWrite caps fd offset data => exact change_of_write hr
  | dataDatamap caps fd window offset winID o => exact change_of_datamap hr
  | dataDataunmap caps window winID =>
      simp only [fileHandle, dataDataunmapHandler, Except.ok.injEq] at hr
      split at hr
      · exact (Prod.mk.inj hr).2 ▸ .unchanged _
      · exact (Prod.mk.inj hr).2 ▸ .unmapped
  | dataInitData caps fd dest offset dataID o => exact change_of_initData hr
  | fault n => exact eq_of_fault hr ▸ .unchanged _
  | contentInit dataID offset => exact eq_of_contentInit hr ▸ .unchanged _

end FileServ

end PartitionSeL4.Refos
