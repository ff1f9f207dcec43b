import PartitionSeL4.Server

/-!
# `port.c`: sampling ports

The port table and its operations, and the three request handlers for sampling ports of
`proc_syscall.c`. A pointer that a client passes is `none` for `NULL`, and otherwise the bytes that
can be read from it on; an access beyond them, or outside an array, is the failure `fault`.

Two things of the source stand out. `proc_port_sampling_create_handler` ends in `while(1)`, and
`samplingCreate` is that handler with the loop taken out. And `pok_port_get` copies the message
into a local array, for a debugging message, and not into the caller's buffer. The model leaves out
that array, with the write one past its end.
-/

namespace PartitionSeL4

/-! ## Data -/

/-- `pok_port_kinds_t` -/
inductive PortKind where
  | queueing
  | sampling
  | invalid
  deriving DecidableEq, Repr

/-- `pok_port_directions_t` -/
inductive PortDirection where
  | directionIn
  | directionOut
  deriving DecidableEq, Repr

/-- The direction that a client's `int` stands for. -/
def PortDirection.ofInt (direction : Int32) : Option PortDirection :=
  if direction = 1 then some .directionIn
  else if direction = 2 then some .directionOut
  else none

/-- `pok_port_t`, as `port_init` leaves it. A port that was never created has no direction and no
block of memory. -/
structure Port where
  partition : Nat := 0
  index : Nat := 0
  full : Bool := false
  size : Nat := 0
  offB : Nat := 0
  offE : Nat := 0
  direction : Option PortDirection := none
  ready : Bool := false
  empty : Bool := true
  kind : PortKind := .invalid
  refresh : Nat := 0
  lastReceive : Nat := 0
  mustBeFlushed : Bool := false
  data : Option (List UInt8) := none
  deriving DecidableEq, Repr

/-- The port tables of `deployment.h`. -/
structure PortConfig where
  /-- `POK_PORTS_NAME` -/
  portsName : List String
  /-- `POK_CONFIG_PARTITIONS_PORTS` -/
  partitionsPorts : List Nat
  /-- `POK_PORTS_ID` -/
  portsId : List Nat
  /-- `POK_PORTS_DESTS` -/
  portsDests : List Nat
  /-- `POK_PORTS_KIND` -/
  portsKind : List PortKind

/-- `POK_CONFIG_NB_PORTS` -/
def PortConfig.nbPorts (pcfg : PortConfig) : Nat := pcfg.portsName.length

/-- The ports of `deployment.h`. -/
def deployedPorts : PortConfig where
  portsName := ["dataout", "datain"]
  partitionsPorts := [0, 1]
  portsId := [0, 1]
  portsDests := [1, 0]
  portsKind := [.sampling, .sampling]

/-- `pok_ports` -/
abbrev Ports := Nat → Port

/-- `port_init` -/
def portInit : Ports := fun _ => {}

/-- `POK_PORT_MAX_SIZE` -/
def pokPortMaxSize : Nat := 512

/-- A client's `int`, converted to the type `unsigned int`. -/
def uint (n : Int32) : Nat := n.toUInt32.toNat

/-- A client's `int`, converted to the type `uint8_t`. -/
def uint8 (n : Int32) : Nat := u8 (uint n)

/-! ## `port.c` -/

/-- `pok_own_port`. Its bounds check lets the port `POK_CONFIG_NB_PORTS` through. -/
def pokOwnPort (pcfg : PortConfig) (partition port : Nat) : Except Failure Bool :=
  if pcfg.nbPorts < port then .ok false
  else
    match pcfg.partitionsPorts[port]? with
    | some owner => .ok (owner = partition)
    | none => .error .fault

/-- `pok_port_sampling_id` -/
def pokPortSamplingId (pcfg : PortConfig) (partition : Nat) (name : String) :
    Except Failure (PokRet × Option Nat) :=
  match (List.range pcfg.nbPorts).find? fun i =>
      pcfg.portsName[i]? = some name ∧ pcfg.portsKind[i]? = some .sampling with
  | none => .ok (.notfound, none)
  | some i => do
      let own ← pokOwnPort pcfg partition i
      return if own then (.ok, some i) else (.port, none)

/-- The record that `pok_port_create` leaves. It keeps the flag `empty`. -/
def Port.create (index size partition : Nat) (direction : PortDirection) (port : Port) : Port :=
  { port with
    index := index
    offB := 0
    offE := 0
    size := size
    full := false
    partition := partition
    direction := some direction
    ready := true
    kind := .sampling
    data := some (List.replicate size 0) }

/-- `pok_port_create` for a sampling port: the return code, the id and the table. -/
def pokPortCreate (pcfg : PortConfig) (partition : Nat) (ports : Ports) (name : String)
    (size direction : Int32) : Except Failure (PokRet × Option Nat × Ports) :=
  if pokPortMaxSize < uint size then .ok (.port, none, ports)
  else
    match PortDirection.ofInt direction with
    | none => .ok (.port, none, ports)
    | some direction => do
        match ← pokPortSamplingId pcfg partition name with
        | (.ok, some gid) =>
            if (ports gid).ready then return (.exists, some gid, ports)
            else
              let port :=
                (ports gid).create (pcfg.portsId.getD gid 0) (uint size) partition direction
              return (.ok, some gid, Function.update ports gid port)
        | (ret, _) => return (ret, none, ports)

/-- `memcpy(dest, data, size)`; the rest of the destination block stays. -/
def memcpy (dest : Option (List UInt8)) (data : List UInt8) (size : Nat) :
    Except Failure (Option (List UInt8)) :=
  if size = 0 then .ok dest
  else
    match dest with
    | none => .error .fault
    | some block =>
        if block.length < size ∨ data.length < size then .error .fault
        else .ok (some (data.take size ++ block.drop size))

/-- `pok_port_write` -/
def pokPortWrite (pcfg : PortConfig) (now : Nat) (ports : Ports) (pid : Nat) (data : List UInt8)
    (size : Nat) : Except Failure (PokRet × Ports) :=
  match pcfg.portsDests[pid]? with
  | none => .error .fault
  | some dest =>
      if (ports pid).kind = .sampling then
        if pcfg.nbPorts ≤ dest then .error .fault
        else if (ports dest).size < size then .ok (.size, ports)
        else do
          let block ← memcpy (ports dest).data data size
          return (.ok, Function.update ports dest
            { ports dest with data := block, empty := false, lastReceive := u32 now })
      else .ok (.einval, ports)

/-- `pok_port_get`: the return code, and the caller's buffer, which it does not write to. -/
def pokPortGet (ports : Ports) (pid : Nat) (data : List UInt8) (size : Nat) :
    PokRet × List UInt8 :=
  if (ports pid).kind = .sampling then
    if (ports pid).empty then (.empty, data)
    else if (ports pid).size < size then (.size, data)
    else (.ok, data)
  else (.einval, data)

/-! ## The handlers -/

/-- `pok_ports[id]` for an `int` id. -/
def portAt (pcfg : PortConfig) (ports : Ports) (id : Int32) : Except Failure Port :=
  if 0 ≤ id.toInt ∧ id.toInt < pcfg.nbPorts then .ok (ports (uint id)) else .error .fault

/-- The checks of the id with which the write and the read handler start: the range, the owner, and
then the port's record, for the checks that follow. A handler refuses a request with `refuse`. -/
def withPort {α : Type} (pcfg : PortConfig) (partition : Nat) (ports : Ports) (id : Int32)
    (refuse : PokRet → α) (k : Port → Except Failure α) : Except Failure α :=
  if pcfg.nbPorts < id.toInt then .ok (refuse .einval)
  else do
    let own ← pokOwnPort pcfg partition (uint8 id)
    if own = false then return refuse .port
    else
      let port ← portAt pcfg ports id
      k port

/-- `proc_port_sampling_create_handler`, which ends in an endless loop. -/
def procPortSamplingCreateHandler (pcfg : PortConfig) (partition : Nat) (ports : Ports)
    (name : String) (size core : Int32) : Except Failure (PokRet × Ports) := do
  let _ ← pokPortCreate pcfg partition ports name size core
  .error .hang

/-- `proc_port_sampling_create_handler` without its endless loop. -/
def samplingCreate (pcfg : PortConfig) (partition : Nat) (ports : Ports) (name : String)
    (size core period : Int32) : Except Failure (PokRet × Ports) := do
  match ← pokPortCreate pcfg partition ports name size core with
  | (.ok, some id, ports) =>
      return (.ok, Function.update ports id
        { ports id with refresh := uint period, lastReceive := 0 })
  | (ret, _, ports) => return (ret, ports)

/-- `proc_port_sampling_write_handler`. It does not look at what `pok_port_write` returns. -/
def procPortSamplingWriteHandler (pcfg : PortConfig) (partition now : Nat) (ports : Ports)
    (id : Int32) (data : Option (List UInt8)) (len : Int32) : Except Failure (PokRet × Ports) :=
  match data with
  | none => .ok (.einval, ports)
  | some data =>
      withPort pcfg partition ports id (fun ret => (ret, ports)) fun port =>
        if port.ready = false then .ok (.einval, ports)
        else if port.size < uint len then .ok (.einval, ports)
        else if port.direction ≠ some .directionOut then .ok (.direction, ports)
        else do
          let (_, ports) ← pokPortWrite pcfg now ports (uint8 id) data (uint len)
          return (.ok, Function.update ports (uint id)
            { ports (uint id) with mustBeFlushed := true })

/-- What a read returns: the code, `len` and `valid` where it sets them, and the buffer. -/
structure ReadResult where
  ret : PokRet
  len : Option Nat := none
  valid : Option Bool := none
  buffer : List UInt8 := []
  deriving DecidableEq, Repr

/-- `proc_port_sampling_read_handler` -/
def procPortSamplingReadHandler (pcfg : PortConfig) (partition now : Nat) (ports : Ports)
    (id : Int32) (data : Option (List UInt8)) : Except Failure ReadResult :=
  match data with
  | none => .ok { ret := .einval }
  | some data =>
      withPort pcfg partition ports id (fun ret => { ret := ret, buffer := data }) fun port =>
        if port.ready = false then .ok { ret := .port, buffer := data }
        else if port.kind ≠ .sampling then .ok { ret := .einval, buffer := data }
        else if port.direction ≠ some .directionIn then .ok { ret := .mode, buffer := data }
        else
          let (ret, buffer) := pokPortGet ports (uint8 id) data port.size
          if ret = .empty then
            .ok { ret := .empty, len := some 0, valid := some false, buffer := buffer }
          else
            .ok {
              ret := .ok
              len := some port.size
              valid := some (¬u32 (port.lastReceive + port.refresh) < now)
              buffer := buffer }

/-! ## Port requests -/

/-- A request for a port, with the partition and the tick counter that it meets. -/
inductive PortEvent where
  | create (partition : Nat) (name : String) (size core period : Int32)
  | write (partition now : Nat) (id : Int32) (data : Option (List UInt8)) (len : Int32)
  | read (partition now : Nat) (id : Int32) (data : Option (List UInt8))

/-- What a request for a port returns and does to the table, with the loop of the create handler
taken out. -/
def handlePort (pcfg : PortConfig) (ports : Ports) : PortEvent → Except Failure (PokRet × Ports)
  | .create partition name size core period =>
      samplingCreate pcfg partition ports name size core period
  | .write partition now id data len =>
      procPortSamplingWriteHandler pcfg partition now ports id data len
  | .read partition now id data => do
      let result ← procPortSamplingReadHandler pcfg partition now ports id data
      return (result.ret, ports)

/-- What a request for a port does to the table. -/
def portStep (pcfg : PortConfig) (ports : Ports) (e : PortEvent) : Except Failure Ports := do
  let (_, ports) ← handlePort pcfg ports e
  return ports

end PartitionSeL4
