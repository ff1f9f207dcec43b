import PartitionSeL4.Port

/-!
# What the port requests do

Everything a port request can do, said once. A port is named by an `int`, of which the ownership
check sees the low byte only. Three things can become of it: it is the port of its owner (`Owned`);
the request is refused; or an array is accessed outside its bounds (not `Addressable`). A port of
the partition must then be one that takes the request (`Writable`, `Readable`).

`Port.Ok` is what holds of every port at all times (`PortsReached.ok`): a port that was created has
a block of its size, and one that was not has none and size 0.
-/

namespace PartitionSeL4

open Lib

/-- Usable port tables: every port has an owner and a destination, and a port number fits a
`uint8_t`. -/
structure PortConfig.Ok (pcfg : PortConfig) : Prop where
  owners : pcfg.partitionsPorts.length = pcfg.nbPorts
  dests : pcfg.portsDests.length = pcfg.nbPorts
  dests_lt : ∀ dest ∈ pcfg.portsDests, dest < pcfg.nbPorts
  nbPorts_lt : pcfg.nbPorts < 2 ^ 8

theorem deployedPorts_ok : deployedPorts.Ok := by
  refine ⟨?_, ?_, ?_, ?_⟩ <;> decide

/-! ## Naming a port -/

theorem uint_of_nonneg {id : Int32} (h : 0 ≤ id.toInt) : (uint id : Int) = id.toInt := by
  have hcond := BitVec.toInt_eq_toNat_cond id.toBitVec
  have hlt := id.toBitVec.isLt
  show (id.toBitVec.toNat : Int) = id.toBitVec.toInt
  change 0 ≤ id.toBitVec.toInt at h
  omega

theorem toInt_of_uint_lt {id : Int32} (h : uint id < 2 ^ 31) : id.toInt = uint id := by
  have hcond := BitVec.toInt_eq_toNat_cond id.toBitVec
  change id.toBitVec.toNat < 2 ^ 31 at h
  show id.toBitVec.toInt = (id.toBitVec.toNat : Int)
  omega

section Naming

variable {pcfg : PortConfig} {partition : Nat} {id : Int32}

/-- The id is that of a port of the partition. -/
def Owned (pcfg : PortConfig) (partition : Nat) (id : Int32) : Prop :=
  0 ≤ id.toInt ∧ id.toInt < pcfg.nbPorts ∧ pcfg.partitionsPorts[uint id]? = some partition

/-- The id is refused, or its use stays inside the arrays: it is beyond the check of the range; or
its low byte is not `POK_CONFIG_NB_PORTS`, and if it is that of a port of the partition, then the id
is not negative. -/
def Addressable (pcfg : PortConfig) (partition : Nat) (id : Int32) : Prop :=
  pcfg.nbPorts < id.toInt ∨
    (uint8 id ≠ pcfg.nbPorts ∧
      (pcfg.partitionsPorts[uint8 id]? = some partition → 0 ≤ id.toInt))

instance : Decidable (Owned pcfg partition id) := inferInstanceAs (Decidable (_ ∧ _ ∧ _))

instance : Decidable (Addressable pcfg partition id) :=
  inferInstanceAs (Decidable (_ ∨ (_ ∧ (_ → _))))

theorem PortConfig.Ok.uint8_eq (hpcfg : pcfg.Ok) (hpos : 0 ≤ id.toInt)
    (hle : id.toInt ≤ pcfg.nbPorts) : uint8 id = uint id := by
  have huint := uint_of_nonneg hpos
  have hlt := hpcfg.nbPorts_lt
  exact u8_of_lt (by omega)

theorem Owned.uint_lt (h : Owned pcfg partition id) : uint id < pcfg.nbPorts := by
  have huint := uint_of_nonneg h.1
  have hlt := h.2.1
  omega

theorem Owned.uint8_eq (h : Owned pcfg partition id) (hpcfg : pcfg.Ok) : uint8 id = uint id :=
  hpcfg.uint8_eq h.1 (Int.le_of_lt h.2.1)

/-- `pok_own_port` reads past its table for the port `POK_CONFIG_NB_PORTS`. -/
theorem pokOwnPort_eq (hpcfg : pcfg.Ok) (port : Nat) :
    pokOwnPort pcfg partition port =
      if port = pcfg.nbPorts then .error .fault
      else .ok (decide (pcfg.partitionsPorts[port]? = some partition)) := by
  have hlen := hpcfg.owners
  unfold pokOwnPort
  by_cases hlt : port < pcfg.nbPorts
  · obtain ⟨owner, howner⟩ : ∃ owner, pcfg.partitionsPorts[port]? = some owner :=
      ⟨_, List.getElem?_eq_getElem (by omega)⟩
    rw [if_neg (by omega), if_neg (by omega), howner]
    simp
  · have hnone : pcfg.partitionsPorts[port]? = none := List.getElem?_eq_none (by omega)
    rw [hnone]
    by_cases heq : port = pcfg.nbPorts
    · rw [if_neg (by omega), if_pos heq]
    · rw [if_pos (by omega), if_neg heq]
      simp

/-- The codes with which a request is refused. -/
def PokRet.Refuses (ret : PokRet) : Prop := ret ≠ .ok ∧ ret ≠ .empty

section WithPort

variable {α : Type} (ports : Ports) (refuse : PokRet → α) (k : Port → Except Failure α)

theorem withPort_of_owned (hpcfg : pcfg.Ok) (h : Owned pcfg partition id) :
    withPort pcfg partition ports id refuse k = k (ports (uint id)) := by
  have hlt := h.uint_lt
  have hrange : ¬(pcfg.nbPorts : Int) < id.toInt := by
    have := h.2.1
    omega
  unfold withPort
  rw [if_neg hrange, h.uint8_eq hpcfg, pokOwnPort_eq hpcfg, if_neg (Nat.ne_of_lt hlt)]
  simp [h.2.2, portAt, h.1, h.2.1, bind, Except.bind]

theorem withPort_refuses (hpcfg : pcfg.Ok) (h : ¬Owned pcfg partition id)
    (haddr : Addressable pcfg partition id) :
    ∃ err : PokRet, err.Refuses ∧
      withPort pcfg partition ports id refuse k = .ok (refuse err) := by
  unfold withPort
  by_cases hrange : (pcfg.nbPorts : Int) < id.toInt
  · rw [if_pos hrange]
    exact ⟨.einval, by simp [PokRet.Refuses], rfl⟩
  obtain ⟨hend, hpos⟩ := haddr.resolve_left hrange
  have hown : pcfg.partitionsPorts[uint8 id]? ≠ some partition := by
    intro hown
    have hbyte := hpcfg.uint8_eq (hpos hown) (by omega)
    have huint := uint_of_nonneg (hpos hown)
    refine h ⟨hpos hown, by omega, ?_⟩
    rw [← hbyte]
    exact hown
  rw [if_neg hrange, pokOwnPort_eq hpcfg, if_neg hend]
  refine ⟨.port, by simp [PokRet.Refuses], ?_⟩
  simp [hown, bind, Except.bind, pure, Except.pure]

/-- An id that leads outside the arrays: the table of owners is read past its end, or that of the
ports before its beginning. -/
theorem withPort_faults (hpcfg : pcfg.Ok) (h : ¬Addressable pcfg partition id) :
    withPort pcfg partition ports id refuse k = .error .fault := by
  unfold Addressable at h
  push Not at h
  obtain ⟨hrange, hneg⟩ := h
  unfold withPort
  rw [if_neg (by omega), pokOwnPort_eq hpcfg]
  by_cases hend : uint8 id = pcfg.nbPorts
  · rw [if_pos hend]
    rfl
  · obtain ⟨hown, hneg⟩ := hneg hend
    have hnot : ¬0 ≤ id.toInt := by omega
    rw [if_neg hend]
    simp [hown, portAt, hnot, bind, Except.bind]

end WithPort

end Naming

/-! ## Port records -/

/-- What holds of every port at all times. -/
structure Port.Ok (p : Port) : Prop where
  fresh : p.ready = false →
    p.size = 0 ∧ p.data = none ∧ p.direction = none ∧ p.kind = .invalid
  created : p.ready = true → p.kind = .sampling ∧ ∃ block, p.data = some block ∧
    block.length = p.size

theorem portInit_ok (i : Nat) : (portInit i).Ok :=
  ⟨fun _ => ⟨rfl, rfl, rfl, rfl⟩, fun h => (by cases h)⟩

/-- The destination's record after `pok_port_write` has copied a message of `size` bytes. -/
def Port.receive (now : Nat) (data : List UInt8) (size : Nat) (p : Port) : Port :=
  { p with
    data := p.data.map fun block => data.take size ++ block.drop size
    empty := false
    lastReceive := u32 now }

theorem Port.Ok.receive {p : Port} (h : p.Ok) (now : Nat) {data : List UInt8} {size : Nat}
    (hsize : size ≤ p.size) (hdata : size ≤ data.length) : (p.receive now data size).Ok := by
  constructor
  · intro hready
    obtain ⟨h0, hnone, hdir, hkind⟩ := h.fresh hready
    refine ⟨h0, ?_, hdir, hkind⟩
    show p.data.map _ = none
    rw [hnone]
    rfl
  · intro hready
    obtain ⟨hkind, block, hblock, hlen⟩ := h.created hready
    refine ⟨hkind, data.take size ++ block.drop size, ?_, ?_⟩
    · show p.data.map _ = _
      rw [hblock]
      rfl
    · show _ = p.size
      rw [List.length_append, List.length_take, List.length_drop]
      omega

theorem Port.Ok.flush {p : Port} (h : p.Ok) (flushed : Bool) :
    Port.Ok { p with mustBeFlushed := flushed } :=
  ⟨h.fresh, h.created⟩

theorem update_ok {ports : Ports} (h : ∀ i, (ports i).Ok) {j : Nat} {p : Port} (hp : p.Ok)
    (i : Nat) : (Function.update ports j p i).Ok := by
  rw [Function.update_apply]
  split_ifs
  · exact hp
  · exact h i

/-! ## Creating a port -/

/-- The port's record after a creation that goes through. -/
def Port.created (index size partition : Nat) (direction : PortDirection) (period : Nat)
    (p : Port) : Port :=
  { p.create index size partition direction with refresh := period, lastReceive := 0 }

/-- A creation makes a port of the partition that was not created before ready, or is refused. -/
theorem samplingCreate_cases {pcfg : PortConfig} (hpcfg : pcfg.Ok) (partition : Nat) (ports : Ports)
    (name : String) (size core period : Int32) :
    (∃ gid direction, (ports gid).ready = false ∧ PortDirection.ofInt core = some direction ∧
      samplingCreate pcfg partition ports name size core period =
        .ok (.ok, Function.update ports gid ((ports gid).created (pcfg.portsId.getD gid 0)
          (uint size) partition direction (uint period)))) ∨
      ∃ err : PokRet, err.Refuses ∧
        samplingCreate pcfg partition ports name size core period = .ok (err, ports) := by
  unfold samplingCreate pokPortCreate
  by_cases hsize : pokPortMaxSize < uint size
  · rw [if_pos hsize]
    exact Or.inr ⟨.port, by simp [PokRet.Refuses], rfl⟩
  rw [if_neg hsize]
  cases hdir : PortDirection.ofInt core with
  | none => exact Or.inr ⟨.port, by simp [PokRet.Refuses], rfl⟩
  | some direction =>
      unfold pokPortSamplingId
      cases hfind : (List.range pcfg.nbPorts).find? fun i =>
          decide (pcfg.portsName[i]? = some name ∧ pcfg.portsKind[i]? = some .sampling) with
      | none => exact Or.inr ⟨.notfound, by simp [PokRet.Refuses], rfl⟩
      | some gid =>
          have hlt : gid < pcfg.nbPorts := List.mem_range.1 (List.mem_of_find?_eq_some hfind)
          simp only [pokOwnPort_eq hpcfg, if_neg (Nat.ne_of_lt hlt)]
          by_cases hown : pcfg.partitionsPorts[gid]? = some partition
          · cases hready : (ports gid).ready with
            | true =>
                refine Or.inr ⟨.exists, by simp [PokRet.Refuses], ?_⟩
                simp [hown, hready, bind, Except.bind, pure, Except.pure]
            | false =>
                refine Or.inl ⟨gid, direction, hready, rfl, ?_⟩
                simp [hown, hready, bind, Except.bind, pure, Except.pure, Port.created]
          · refine Or.inr ⟨.port, by simp [PokRet.Refuses], ?_⟩
            simp [hown, bind, Except.bind, pure, Except.pure]

/-! ## Writing to a port -/

/-- The destination of a port. -/
def PortConfig.dest (pcfg : PortConfig) (port : Nat) : Nat := pcfg.portsDests.getD port 0

theorem PortConfig.Ok.portsDests_eq {pcfg : PortConfig} (hpcfg : pcfg.Ok) {port : Nat}
    (hport : port < pcfg.nbPorts) : pcfg.portsDests[port]? = some (pcfg.dest port) := by
  have hlen := hpcfg.dests
  rw [PortConfig.dest, List.getD_eq_getElem?_getD, List.getElem?_eq_getElem (by omega)]
  rfl

theorem PortConfig.Ok.dest_lt {pcfg : PortConfig} (hpcfg : pcfg.Ok) {port : Nat}
    (hport : port < pcfg.nbPorts) : pcfg.dest port < pcfg.nbPorts :=
  hpcfg.dests_lt _ (List.mem_of_getElem? (hpcfg.portsDests_eq hport))

section Write

variable {pcfg : PortConfig} {partition : Nat} {ports : Ports} {id len : Int32}

/-- The port takes a message of `len` bytes from the partition. -/
def Writable (pcfg : PortConfig) (partition : Nat) (ports : Ports) (id len : Int32) : Prop :=
  Owned pcfg partition id ∧ (ports (uint id)).ready = true ∧
    uint len ≤ (ports (uint id)).size ∧ (ports (uint id)).direction = some .directionOut

instance : Decidable (Writable pcfg partition ports id len) :=
  inferInstanceAs (Decidable (_ ∧ _ ∧ _ ∧ _))

/-- A copy into a port's block that fits goes through if the message can be read. -/
theorem Port.Ok.memcpy_eq {p : Port} (h : p.Ok) {size : Nat} (hsize : size ≤ p.size)
    (data : List UInt8) :
    memcpy p.data data size =
      if data.length < size then .error .fault
      else .ok (p.data.map fun block => data.take size ++ block.drop size) := by
  unfold memcpy
  by_cases hzero : size = 0
  · simp [hzero]
  have hready : p.ready = true := by
    by_contra hnot
    have := (h.fresh (by simpa using hnot)).1
    omega
  obtain ⟨_, block, hblock, hlen⟩ := h.created hready
  rw [if_neg hzero, hblock]
  by_cases hdata : data.length < size
  · simp [hdata]
  · have hfit : ¬(block.length < size ∨ data.length < size) := by omega
    simp only [if_neg hdata, if_neg hfit]
    rfl

theorem pokPortWrite_eq (hpcfg : pcfg.Ok) (hports : ∀ i, (ports i).Ok) (now : Nat) {pid : Nat}
    (hpid : pid < pcfg.nbPorts) (hready : (ports pid).ready = true) (data : List UInt8)
    (size : Nat) :
    pokPortWrite pcfg now ports pid data size =
      if (ports (pcfg.dest pid)).size < size then .ok (.size, ports)
      else if data.length < size then .error .fault
      else .ok (.ok, Function.update ports (pcfg.dest pid)
        ((ports (pcfg.dest pid)).receive now data size)) := by
  have hkind := ((hports pid).created hready).1
  have hdest := hpcfg.dest_lt hpid
  unfold pokPortWrite
  simp only [hpcfg.portsDests_eq hpid, hkind, if_true]
  rw [if_neg (by omega)]
  by_cases hsize : (ports (pcfg.dest pid)).size < size
  · rw [if_pos hsize, if_pos hsize]
  · rw [if_neg hsize, if_neg hsize, (hports _).memcpy_eq (by omega)]
    by_cases hdata : data.length < size
    · rw [if_pos hdata, if_pos hdata]
      rfl
    · rw [if_neg hdata, if_neg hdata]
      rfl

/-- The table after `pok_port_write`: a message that is too long for the destination is lost. -/
def transfer (pcfg : PortConfig) (now : Nat) (ports : Ports) (port : Nat) (data : List UInt8)
    (size : Nat) : Ports :=
  if (ports (pcfg.dest port)).size < size then ports
  else Function.update ports (pcfg.dest port) ((ports (pcfg.dest port)).receive now data size)

/-- The table after a write that returns `POK_ERRNO_OK`. -/
def afterWrite (pcfg : PortConfig) (now : Nat) (ports : Ports) (port : Nat) (data : List UInt8)
    (size : Nat) : Ports :=
  Function.update (transfer pcfg now ports port data size) port
    { transfer pcfg now ports port data size port with mustBeFlushed := true }

variable (hpcfg : pcfg.Ok) (now : Nat) (data : List UInt8)

include hpcfg

/-- A write to a port that takes the message returns `POK_ERRNO_OK`, unless the message has to be
copied and cannot be read. -/
theorem writeHandler_of_writable (hports : ∀ i, (ports i).Ok)
    (h : Writable pcfg partition ports id len) :
    procPortSamplingWriteHandler pcfg partition now ports id (some data) len =
      if (ports (pcfg.dest (uint id))).size < uint len ∨ uint len ≤ data.length then
        .ok (.ok, afterWrite pcfg now ports (uint id) data (uint len))
      else .error .fault := by
  obtain ⟨hown, hready, hsize, hdir⟩ := h
  rw [procPortSamplingWriteHandler, withPort_of_owned _ _ _ hpcfg hown, if_neg (by simp [hready]),
    if_neg (by omega), if_neg (not_not.2 hdir), hown.uint8_eq hpcfg,
    pokPortWrite_eq hpcfg hports now hown.uint_lt hready]
  by_cases hfit : (ports (pcfg.dest (uint id))).size < uint len
  · rw [if_pos hfit, if_pos (Or.inl hfit)]
    simp [afterWrite, transfer, hfit, bind, Except.bind, pure, Except.pure]
  · by_cases hdata : data.length < uint len
    · rw [if_neg hfit, if_pos hdata, if_neg (by omega)]
      rfl
    · rw [if_neg hfit, if_neg hdata, if_pos (Or.inr (by omega))]
      simp [afterWrite, transfer, hfit, bind, Except.bind, pure, Except.pure]

theorem writeHandler_refuses (h : ¬Writable pcfg partition ports id len)
    (haddr : Addressable pcfg partition id) :
    ∃ err : PokRet, err.Refuses ∧
      procPortSamplingWriteHandler pcfg partition now ports id (some data) len =
        .ok (err, ports) := by
  simp only [procPortSamplingWriteHandler]
  by_cases hown : Owned pcfg partition id
  · rw [withPort_of_owned _ _ _ hpcfg hown]
    by_cases hready : (ports (uint id)).ready = false
    · exact ⟨.einval, by simp [PokRet.Refuses], if_pos hready⟩
    rw [if_neg hready]
    by_cases hsize : (ports (uint id)).size < uint len
    · exact ⟨.einval, by simp [PokRet.Refuses], if_pos hsize⟩
    rw [if_neg hsize]
    have hdir : (ports (uint id)).direction ≠ some .directionOut := fun hdir =>
      h ⟨hown, by simpa using hready, by omega, hdir⟩
    exact ⟨.direction, by simp [PokRet.Refuses], if_pos hdir⟩
  · exact withPort_refuses ports (fun ret => (ret, ports)) _ hpcfg hown haddr

theorem writeHandler_faults (h : ¬Addressable pcfg partition id) :
    procPortSamplingWriteHandler pcfg partition now ports id (some data) len = .error .fault := by
  simp only [procPortSamplingWriteHandler]
  exact withPort_faults _ _ _ hpcfg h

theorem writeHandler_returns_iff (hports : ∀ i, (ports i).Ok) :
    (∃ ret ports', procPortSamplingWriteHandler pcfg partition now ports id (some data) len =
        .ok (ret, ports')) ↔
      Addressable pcfg partition id ∧
        (Writable pcfg partition ports id len →
          (ports (pcfg.dest (uint id))).size < uint len ∨ uint len ≤ data.length) := by
  constructor
  · intro ⟨ret, ports', hwrite⟩
    constructor
    · by_contra hnot
      rw [writeHandler_faults hpcfg now data hnot] at hwrite
      cases hwrite
    · intro hw
      rw [writeHandler_of_writable hpcfg now data hports hw] at hwrite
      split_ifs at hwrite with hcopy
      exact hcopy
  · intro ⟨haddr, hcopy⟩
    by_cases hw : Writable pcfg partition ports id len
    · rw [writeHandler_of_writable hpcfg now data hports hw, if_pos (hcopy hw)]
      exact ⟨_, _, rfl⟩
    · obtain ⟨err, _, hwrite⟩ := writeHandler_refuses hpcfg now data hw haddr
      exact ⟨err, ports, hwrite⟩

end Write

/-! ## Reading from a port -/

section Read

variable {pcfg : PortConfig} {partition : Nat} {ports : Ports} {id : Int32}

/-- The port may be read by the partition. -/
def Readable (pcfg : PortConfig) (partition : Nat) (ports : Ports) (id : Int32) : Prop :=
  Owned pcfg partition id ∧ (ports (uint id)).ready = true ∧
    (ports (uint id)).direction = some .directionIn

instance : Decidable (Readable pcfg partition ports id) :=
  inferInstanceAs (Decidable (_ ∧ _ ∧ _))

variable (hpcfg : pcfg.Ok) (now : Nat) (data : List UInt8)

include hpcfg

theorem readHandler_eq (hports : ∀ i, (ports i).Ok) (h : Readable pcfg partition ports id) :
    procPortSamplingReadHandler pcfg partition now ports id (some data) =
      .ok (if (ports (uint id)).empty then
          { ret := .empty, len := some 0, valid := some false, buffer := data }
        else {
          ret := .ok
          len := some (ports (uint id)).size
          valid := some (¬u32 ((ports (uint id)).lastReceive + (ports (uint id)).refresh) < now)
          buffer := data }) := by
  obtain ⟨hown, hready, hdir⟩ := h
  have hkind := ((hports (uint id)).created hready).1
  simp only [procPortSamplingReadHandler]
  rw [withPort_of_owned _ _ _ hpcfg hown, if_neg (by simp [hready]), if_neg (not_not.2 hkind),
    if_neg (not_not.2 hdir), hown.uint8_eq hpcfg]
  cases hempty : (ports (uint id)).empty <;> simp [pokPortGet, hkind, hempty]

/-- The return code of a permitted read depends on the flag `empty` only. -/
theorem readHandler_of_readable (hports : ∀ i, (ports i).Ok)
    (h : Readable pcfg partition ports id) :
    ∃ len valid, procPortSamplingReadHandler pcfg partition now ports id (some data) =
      .ok {
        ret := if (ports (uint id)).empty then .empty else .ok
        len := some len
        valid := some valid
        buffer := data } := by
  rw [readHandler_eq hpcfg now data hports h]
  cases (ports (uint id)).empty with
  | true => exact ⟨_, _, rfl⟩
  | false => exact ⟨_, _, rfl⟩

theorem readHandler_refuses (h : ¬Readable pcfg partition ports id)
    (haddr : Addressable pcfg partition id) :
    ∃ err : PokRet, err.Refuses ∧
      procPortSamplingReadHandler pcfg partition now ports id (some data) =
        .ok { ret := err, buffer := data } := by
  simp only [procPortSamplingReadHandler]
  by_cases hown : Owned pcfg partition id
  · rw [withPort_of_owned _ _ _ hpcfg hown]
    by_cases hready : (ports (uint id)).ready = false
    · exact ⟨.port, by simp [PokRet.Refuses], if_pos hready⟩
    rw [if_neg hready]
    by_cases hkind : (ports (uint id)).kind ≠ .sampling
    · exact ⟨.einval, by simp [PokRet.Refuses], if_pos hkind⟩
    rw [if_neg hkind]
    have hdir : (ports (uint id)).direction ≠ some .directionIn := fun hdir =>
      h ⟨hown, by simpa using hready, hdir⟩
    exact ⟨.mode, by simp [PokRet.Refuses], if_pos hdir⟩
  · exact withPort_refuses ports (fun ret => ({ ret := ret, buffer := data } : ReadResult)) _ hpcfg
      hown haddr

theorem readHandler_faults (h : ¬Addressable pcfg partition id) :
    procPortSamplingReadHandler pcfg partition now ports id (some data) = .error .fault := by
  simp only [procPortSamplingReadHandler]
  exact withPort_faults _ _ _ hpcfg h

theorem readHandler_returns_iff (hports : ∀ i, (ports i).Ok) :
    (∃ result, procPortSamplingReadHandler pcfg partition now ports id (some data) =
        .ok result) ↔ Addressable pcfg partition id := by
  constructor
  · intro ⟨result, hread⟩
    by_contra hnot
    rw [readHandler_faults hpcfg now data hnot] at hread
    cases hread
  · intro haddr
    by_cases hr : Readable pcfg partition ports id
    · obtain ⟨_, _, hread⟩ := readHandler_of_readable hpcfg now data hports hr
      exact ⟨_, hread⟩
    · obtain ⟨_, _, hread⟩ := readHandler_refuses hpcfg now data hr haddr
      exact ⟨_, hread⟩

end Read

/-! ## Runs of port requests -/

section Runs

variable {pcfg : PortConfig} {ports ports' : Ports} {e : PortEvent} {ret : PokRet}

/-- Everything a port request that returns has done: it created a port, it sent a message, or it
left the table as it was. -/
theorem handlePort_cases (hpcfg : pcfg.Ok) (hports : ∀ i, (ports i).Ok)
    (h : handlePort pcfg ports e = .ok (ret, ports')) :
    (∃ gid index size partition direction period, (ports gid).ready = false ∧ ret = .ok ∧
        (∃ name size' core, e = .create partition name size' core period) ∧
        ports' = Function.update ports gid
          ((ports gid).created index size partition direction (uint period))) ∨
      (∃ partition now id data len, e = .write partition now id (some data) len ∧
        Writable pcfg partition ports id len ∧ ret = .ok ∧
        ((ports (pcfg.dest (uint id))).size < uint len ∨ uint len ≤ data.length) ∧
        ports' = afterWrite pcfg now ports (uint id) data (uint len)) ∨
      (ports' = ports ∧
        (ret = .ok → ∃ partition now id data, e = .read partition now id data)) := by
  cases e with
  | create partition name size core period =>
      rcases samplingCreate_cases hpcfg partition ports name size core period with
        ⟨gid, direction, hready, _, heq⟩ | ⟨err, herr, heq⟩
      · rw [handlePort, heq] at h
        obtain ⟨rfl, rfl⟩ := Prod.mk.inj (Except.ok.inj h)
        exact Or.inl ⟨gid, _, _, partition, direction, period, hready, rfl, ⟨_, _, _, rfl⟩, rfl⟩
      · rw [handlePort, heq] at h
        obtain ⟨rfl, rfl⟩ := Prod.mk.inj (Except.ok.inj h)
        exact Or.inr (Or.inr ⟨rfl, fun hok => absurd hok herr.1⟩)
  | write partition now id data len =>
      rw [handlePort] at h
      cases data with
      | none =>
          obtain ⟨rfl, rfl⟩ := Prod.mk.inj (Except.ok.inj h)
          exact Or.inr (Or.inr ⟨rfl, fun hok => (by cases hok)⟩)
      | some data =>
          by_cases hw : Writable pcfg partition ports id len
          · rw [writeHandler_of_writable hpcfg now data hports hw] at h
            split_ifs at h with hcopy
            obtain ⟨rfl, rfl⟩ := Prod.mk.inj (Except.ok.inj h)
            exact Or.inr (Or.inl ⟨partition, now, id, data, len, rfl, hw, rfl, hcopy, rfl⟩)
          · by_cases haddr : Addressable pcfg partition id
            · obtain ⟨err, herr, heq⟩ := writeHandler_refuses hpcfg now data hw haddr
              rw [heq] at h
              obtain ⟨rfl, rfl⟩ := Prod.mk.inj (Except.ok.inj h)
              exact Or.inr (Or.inr ⟨rfl, fun hok => absurd hok herr.1⟩)
            · rw [writeHandler_faults hpcfg now data haddr] at h
              cases h
  | read partition now id data =>
      obtain ⟨r, _, hret⟩ := bind_eq_ok_iff.1 h
      obtain ⟨_, rfl⟩ := Prod.mk.inj (Except.ok.inj hret)
      exact Or.inr (Or.inr ⟨rfl, fun _ => ⟨partition, now, id, data, rfl⟩⟩)

theorem afterWrite_ok (hports : ∀ i, (ports i).Ok) (now port : Nat) {data : List UInt8} {size : Nat}
    (hcopy : (ports (pcfg.dest port)).size < size ∨ size ≤ data.length) (i : Nat) :
    (afterWrite pcfg now ports port data size i).Ok := by
  have hsent : ∀ j, (transfer pcfg now ports port data size j).Ok := by
    unfold transfer
    split_ifs with hfit
    · exact hports
    · exact update_ok hports ((hports _).receive now (by omega) (by omega))
  exact update_ok hsent ((hsent port).flush true) i

/-- Every port request keeps every port's record in order. -/
theorem handlePort_ok (hpcfg : pcfg.Ok) (hports : ∀ i, (ports i).Ok)
    (h : handlePort pcfg ports e = .ok (ret, ports')) (i : Nat) : (ports' i).Ok := by
  rcases handlePort_cases hpcfg hports h with
    ⟨gid, index, size, partition, direction, period, _, _, _, rfl⟩ |
      ⟨partition, now, id, data, len, _, _, _, hcopy, rfl⟩ | ⟨rfl, _⟩
  · exact update_ok hports ⟨fun h => (by cases h), fun _ => ⟨rfl, _, rfl, List.length_replicate⟩⟩ i
  · exact afterWrite_ok hports now _ hcopy i
  · exact hports i

/-- The port tables that a run of port requests leads to. -/
def PortsReached (pcfg : PortConfig) (ports : Ports) : Prop :=
  ∃ evs, Run (portStep pcfg) (fun _ _ => True) portInit evs ports

theorem PortsReached.ok (hpcfg : pcfg.Ok) (h : PortsReached pcfg ports) : ∀ i, (ports i).Ok := by
  obtain ⟨evs, hrun⟩ := h
  refine hrun.invariant (I := fun ports => ∀ i, (ports i).Ok) portInit_ok fun t e u hI _ hu => ?_
  obtain ⟨⟨ret, t'⟩, ht', hret⟩ := bind_eq_ok_iff.1 hu
  cases hret
  exact handlePort_ok hpcfg hI ht'

end Runs

end PartitionSeL4
