import PartitionSeL4.PortProof

/-!
# What the port handlers check

Two guarantees a client would read off the handlers, and exactly how far they go.

* `writeHandler_stores_iff` — a write that reports success was stored. The handler checks the source
  port and `pok_port_write` the destination, but the verdict of the latter is dropped, it does not
  ask whether the destination was created, and the tick is cut to 32 bits.
* `portId_checked_iff` — an id is checked before it is an index. Both range checks let
  `POK_CONFIG_NB_PORTS` through, and the ownership check sees the low byte of the id only, so that a
  negative id with the low byte of a port of the partition is used as an index.
-/

namespace PartitionSeL4

open Lib

/-! ## A write that reports success was stored -/

/-- The destination was created, the message fits into it, and it now holds the message, as the one
that arrived at `now`. -/
structure MessageStored (ports ports' : Ports) (dest now : Nat) (data : List UInt8) (size : Nat) :
    Prop where
  created : (ports dest).ready = true
  fits : size ≤ (ports dest).size
  holds : ∃ block, (ports' dest).data = some block ∧ size ≤ block.length ∧
    block.take size = data.take size
  notEmpty : (ports' dest).empty = false
  lastReceive : (ports' dest).lastReceive = now

/-- A write reports success only if the message was stored, and a message that was not stored
leaves both ports as they were. -/
structure ReportsStored (pcfg : PortConfig) (now : Nat) (ports : Ports) (id : Int32)
    (data : Option (List UInt8)) (len : Int32) (ret : PokRet) (ports' : Ports) : Prop where
  success : ret = .ok → ∃ msg, data = some msg ∧
    MessageStored ports ports' (pcfg.dest (uint id)) now msg (uint len)
  failure : ret ≠ .ok → ports' (uint id) = ports (uint id) ∧
    ports' (pcfg.dest (uint id)) = ports (pcfg.dest (uint id))

/-- The destination takes every message that the source takes, at a tick of 32 bits. -/
def DestinationTakes (pcfg : PortConfig) (now : Nat) (ports : Ports) (id len : Int32) : Prop :=
  (ports (pcfg.dest (uint id))).ready = true ∧
    uint len ≤ (ports (pcfg.dest (uint id))).size ∧ now < 2 ^ 32

instance (pcfg : PortConfig) (now : Nat) (ports : Ports) (id len : Int32) :
    Decidable (DestinationTakes pcfg now ports id len) :=
  inferInstanceAs (Decidable (_ ∧ _ ∧ _))

section Write

variable {pcfg : PortConfig} {partition now : Nat} {ports ports' : Ports} {id len : Int32}

theorem afterWrite_destination (pcfg : PortConfig) (now : Nat) (ports : Ports) (port : Nat)
    (data : List UInt8) (size : Nat) :
    ∃ flush, afterWrite pcfg now ports port data size (pcfg.dest port) =
      { transfer pcfg now ports port data size (pcfg.dest port) with mustBeFlushed := flush } := by
  rw [afterWrite, Function.update_apply]
  split_ifs with heq
  · exact ⟨true, by rw [heq]⟩
  · exact ⟨_, rfl⟩

theorem receive_holds (now : Nat) {p : Port} (hp : p.Ok) (hready : p.ready = true)
    {data : List UInt8} {size : Nat} (hdata : size ≤ data.length) :
    ∃ block, (p.receive now data size).data = some block ∧ size ≤ block.length ∧
      block.take size = data.take size := by
  obtain ⟨_, block, hblock, hlen⟩ := hp.created hready
  refine ⟨data.take size ++ block.drop size, ?_, ?_, ?_⟩
  · show p.data.map _ = _
    rw [hblock]
    rfl
  · rw [List.length_append, List.length_take]
    omega
  · rw [List.take_append_of_le_length (by rw [List.length_take]; omega), List.take_take,
      Nat.min_self]

/-- **A sampling write that reports success was stored** exactly when it is refused by the handler,
or the destination takes the message and the tick fits into `last_receive`. -/
theorem writeHandler_stores_iff (hpcfg : pcfg.Ok) (hports : ∀ i, (ports i).Ok)
    {data : Option (List UInt8)} {ret : PokRet}
    (h : procPortSamplingWriteHandler pcfg partition now ports id data len = .ok (ret, ports')) :
    ReportsStored pcfg now ports id data len ret ports' ↔
      data = none ∨ ¬ Writable pcfg partition ports id len ∨
        DestinationTakes pcfg now ports id len := by
  cases data with
  | none =>
      cases h
      refine ⟨fun _ => Or.inl rfl, fun _ => ⟨fun hok => ?_, fun _ => ⟨rfl, rfl⟩⟩⟩
      cases hok
  | some msg =>
      by_cases hw : Writable pcfg partition ports id len
      · rw [writeHandler_of_writable hpcfg now msg hports hw] at h
        split_ifs at h with hcopy
        obtain ⟨rfl, rfl⟩ := Prod.mk.inj (Except.ok.inj h)
        obtain ⟨flush, hdest⟩ := afterWrite_destination pcfg now ports (uint id) msg (uint len)
        constructor
        · intro hr
          obtain ⟨_, hmsg, hstored⟩ := hr.success rfl
          cases hmsg
          refine Or.inr (Or.inr ⟨hstored.created, hstored.fits, ?_⟩)
          -- The tick was cut to 32 bits, so that it is one of 32 bits if it was kept.
          have htick := hstored.lastReceive
          have hfits := hstored.fits
          rw [hdest, transfer, if_neg (by omega), Function.update_self] at htick
          have hlt : u32 now < 2 ^ 32 := Nat.mod_lt _ (by decide)
          change u32 now = now at htick
          omega
        · intro hor
          rcases hor with hnone | hnot | ⟨hready, hfits, htick⟩
          · cases hnone
          · exact absurd hw hnot
          · have hdata := hcopy.resolve_left (by omega)
            obtain ⟨block, hblock, hlen, htake⟩ :=
              receive_holds now (hports _) hready hdata
            refine ⟨fun _ => ⟨msg, rfl, hready, hfits, ⟨block, ?_, hlen, htake⟩, ?_, ?_⟩,
              fun hne => absurd rfl hne⟩
            · rw [hdest, transfer, if_neg (by omega), Function.update_self]
              exact hblock
            · rw [hdest, transfer, if_neg (by omega), Function.update_self]
              rfl
            · rw [hdest, transfer, if_neg (by omega), Function.update_self]
              exact u32_of_lt htick
      · -- Every other write is refused, and the table stays as it was.
        have haddr : Addressable pcfg partition id := by
          by_contra hnot
          rw [writeHandler_faults hpcfg now msg hnot] at h
          cases h
        obtain ⟨err, herr, heq⟩ := writeHandler_refuses hpcfg now msg hw haddr
        rw [heq] at h
        obtain ⟨rfl, rfl⟩ := Prod.mk.inj (Except.ok.inj h)
        exact ⟨fun _ => Or.inr (Or.inl hw), fun _ =>
          ⟨fun hok => absurd hok herr.1, fun _ => ⟨rfl, rfl⟩⟩⟩

end Write

/-- Both deployed ports created, for 16 and for 2 bytes. -/
def bothPorts : List PortEvent :=
  [.create 0 "dataout" 16 2 100, .create 1 "datain" 2 1 100]

/-- A write of two bytes at tick 7, which fit into the destination. -/
theorem writeHandler_stores_iff_deployed :
    ∃ ports ret ports', Run (portStep deployedPorts) (fun _ _ => True) portInit bothPorts ports ∧
      procPortSamplingWriteHandler deployedPorts 0 7 ports 0 (some [1, 2, 3]) 2 =
        .ok (ret, ports') ∧
      ReportsStored deployedPorts 7 ports 0 (some [1, 2, 3]) 2 ret ports' := by
  obtain ⟨ports, hrun, hw, htakes⟩ : ∃ ports, Run (portStep deployedPorts) (fun _ _ => True)
      portInit bothPorts ports ∧ Writable deployedPorts 0 ports 0 2 ∧
        DestinationTakes deployedPorts 7 ports 0 2 := by
    apply Run.exists_of_exec
    decide +kernel
  have hports := PortsReached.ok deployedPorts_ok ⟨_, hrun⟩
  have hwrite := writeHandler_of_writable deployedPorts_ok 7 [1, 2, 3] hports hw
  rw [if_pos (Or.inr (by decide))] at hwrite
  exact ⟨ports, _, _, hrun, hwrite,
    (writeHandler_stores_iff deployedPorts_ok hports hwrite).2 (Or.inr (Or.inr htakes))⟩

/-- A write of three bytes, one more than the destination has room for: it reports success, and the
message is lost. -/
theorem writeHandler_loses_message :
    ∃ ports ports', Run (portStep deployedPorts) (fun _ _ => True) portInit bothPorts ports ∧
      procPortSamplingWriteHandler deployedPorts 0 7 ports 0 (some [1, 2, 3]) 3 =
        .ok (.ok, ports') ∧
      ¬ ReportsStored deployedPorts 7 ports 0 (some [1, 2, 3]) 3 .ok ports' := by
  obtain ⟨ports, hrun, hw, hsize⟩ : ∃ ports, Run (portStep deployedPorts) (fun _ _ => True)
      portInit bothPorts ports ∧ Writable deployedPorts 0 ports 0 3 ∧ (ports 1).size = 2 := by
    apply Run.exists_of_exec
    decide +kernel
  have hports := PortsReached.ok deployedPorts_ok ⟨_, hrun⟩
  have hwrite := writeHandler_of_writable deployedPorts_ok 7 [1, 2, 3] hports hw
  rw [if_pos (Or.inr (by decide))] at hwrite
  refine ⟨ports, _, hrun, hwrite, fun hr => ?_⟩
  obtain ⟨_, _, hstored⟩ := hr.success rfl
  have hfits := hstored.fits
  change 3 ≤ (ports 1).size at hfits
  omega

/-! ## An id is checked before it is an index -/

/-- No access with the id leads outside the tables, and a request on an id that is not one of the
partition's ports is refused without an effect. -/
structure IdChecked (pcfg : PortConfig) (partition now : Nat) (ports : Ports) (id : Int32)
    (data : Option (List UInt8)) (len : Int32) : Prop where
  own : ∃ own, pokOwnPort pcfg partition (uint8 id) = .ok own
  write : ∃ ret ports',
    procPortSamplingWriteHandler pcfg partition now ports id data len = .ok (ret, ports') ∧
      (¬ Owned pcfg partition id → ret.Refuses ∧ ports' = ports)
  read : ∃ result, procPortSamplingReadHandler pcfg partition now ports id data = .ok result ∧
    (¬ Owned pcfg partition id → result.ret.Refuses)

/-- The low byte of the id is not `POK_CONFIG_NB_PORTS`, and it is not that of a port of the
partition while the id itself is negative. -/
def IdInBounds (pcfg : PortConfig) (partition : Nat) (id : Int32) (data : Option (List UInt8)) :
    Prop :=
  uint8 id ≠ pcfg.nbPorts ∧
    (data = none ∨ (pcfg.partitionsPorts[uint8 id]? = some partition → 0 ≤ id.toInt))

section Ids

variable {pcfg : PortConfig} {partition now : Nat} {ports : Ports} {id len : Int32}
  {data : Option (List UInt8)}

theorem IdInBounds.addressable {msg : List UInt8} (h : IdInBounds pcfg partition id (some msg)) :
    Addressable pcfg partition id :=
  Or.inr ⟨h.1, h.2.resolve_left (by simp)⟩

theorem IdInBounds.write (hpcfg : pcfg.Ok) (hports : ∀ i, (ports i).Ok)
    (hdata : ∀ msg, data = some msg → uint len ≤ msg.length)
    (h : IdInBounds pcfg partition id data) :
    ∃ ret ports',
      procPortSamplingWriteHandler pcfg partition now ports id data len = .ok (ret, ports') ∧
        (¬ Owned pcfg partition id → ret.Refuses ∧ ports' = ports) := by
  cases data with
  | none => exact ⟨.einval, ports, rfl, fun _ => ⟨by simp [PokRet.Refuses], rfl⟩⟩
  | some msg =>
      by_cases hw : Writable pcfg partition ports id len
      · have hwrite := writeHandler_of_writable hpcfg now msg hports hw
        rw [if_pos (Or.inr (hdata msg rfl))] at hwrite
        exact ⟨_, _, hwrite, fun hown => absurd hw.1 hown⟩
      · obtain ⟨err, herr, hwrite⟩ := writeHandler_refuses hpcfg now msg hw h.addressable
        exact ⟨err, ports, hwrite, fun _ => ⟨herr, rfl⟩⟩

theorem IdInBounds.read (hpcfg : pcfg.Ok) (hports : ∀ i, (ports i).Ok)
    (h : IdInBounds pcfg partition id data) :
    ∃ result, procPortSamplingReadHandler pcfg partition now ports id data = .ok result ∧
      (¬ Owned pcfg partition id → result.ret.Refuses) := by
  cases data with
  | none => exact ⟨{ ret := .einval }, rfl, fun _ => by simp [PokRet.Refuses]⟩
  | some msg =>
      by_cases hr : Readable pcfg partition ports id
      · obtain ⟨n, valid, hread⟩ := readHandler_of_readable hpcfg now msg hports hr
        exact ⟨_, hread, fun hown => absurd hr.1 hown⟩
      · obtain ⟨err, herr, hread⟩ := readHandler_refuses hpcfg now msg hr h.addressable
        exact ⟨_, hread, fun _ => herr⟩

/-- **Port ids are checked** exactly when the low byte of the id is not `POK_CONFIG_NB_PORTS`, and
not that of a port of the partition while the id is negative. -/
theorem portId_checked_iff (hpcfg : pcfg.Ok) (hports : ∀ i, (ports i).Ok)
    (hdata : ∀ msg, data = some msg → uint len ≤ msg.length) :
    IdChecked pcfg partition now ports id data len ↔ IdInBounds pcfg partition id data := by
  constructor
  · rintro ⟨⟨own, hown⟩, _, result, hread, _⟩
    have hlow : uint8 id ≠ pcfg.nbPorts := by
      intro heq
      rw [pokOwnPort_eq hpcfg, if_pos heq] at hown
      cases hown
    refine ⟨hlow, ?_⟩
    cases data with
    | none => exact Or.inl rfl
    | some msg =>
        refine Or.inr fun hport => ?_
        by_contra hneg
        have hnot : ¬ Addressable pcfg partition id := by
          rintro (hrange | ⟨_, hpos⟩)
          · omega
          · exact hneg (hpos hport)
        rw [readHandler_faults hpcfg now msg hnot] at hread
        cases hread
  · intro h
    have hown : pokOwnPort pcfg partition (uint8 id) = _ := pokOwnPort_eq hpcfg (uint8 id)
    rw [if_neg h.1] at hown
    exact ⟨⟨_, hown⟩, h.write hpcfg hports hdata, h.read hpcfg hports⟩

end Ids

/-- Port 1 is not one of partition 0's, and requests for it are refused. -/
theorem portId_checked_iff_deployed :
    IdChecked deployedPorts 0 7 portInit 1 (some [1, 2, 3]) 3 := by
  refine (portId_checked_iff deployedPorts_ok portInit_ok ?_).2 ⟨by decide, Or.inr (by decide)⟩
  intro msg hmsg
  cases hmsg
  decide

/-- There are two ports, so 2 is not the number of one; and -256 has the low byte of port 0, which
is partition 0's. -/
theorem portId_not_checked :
    pokOwnPort deployedPorts 0 (uint8 2) = .error .fault ∧
      procPortSamplingReadHandler deployedPorts 0 7 portInit (-256) (some [0]) = .error .fault ∧
      ¬ IdChecked deployedPorts 0 7 portInit 2 (some [0]) 1 ∧
      ¬ IdChecked deployedPorts 0 7 portInit (-256) (some [0]) 1 := by
  have hown : pokOwnPort deployedPorts 0 (uint8 2) = .error .fault := by rfl
  have hread : procPortSamplingReadHandler deployedPorts 0 7 portInit (-256) (some [0]) =
      .error .fault := readHandler_faults deployedPorts_ok 7 [0] (by decide)
  refine ⟨hown, hread, fun h => ?_, fun h => ?_⟩
  · obtain ⟨own, hok⟩ := h.own
    rw [hown] at hok
    cases hok
  · obtain ⟨result, hok, _⟩ := h.read
    rw [hread] at hok
    cases hok

end PartitionSeL4
