import PartitionSeL4.WellFormed
import PartitionSeL4.PortProof

/-!
# Requests that bring the process server down

Every partition depends on the process server, so no request should end it: each should return to
the server loop, an invalid one with an error and without effect. The code keeps to this only in
part.

* A mode request that `pok_partition_set_mode` refuses fails the assertion behind its call.
* The handler that creates a sampling port ends in an endless loop, whatever the request.
* A port id can lead outside an array, and a write copies from wherever the client's pointer leads.
* A request for a thread outside the current partition is dropped without an answer, and a message
  that is too long for the destination port with the answer `POK_ERRNO_OK`.

`server_survives_iff` says exactly which requests are handled as they should be, in every state the
scheduler and the port table can be in.
-/

namespace PartitionSeL4

open Lib

/-- The state of the process server: the scheduler's variables and the port table. -/
structure ProcServ where
  sched : State
  ports : Ports

/-- The requests of a partition's thread. Nothing in a request says who sent it. -/
inductive Request where
  | apex (r : ApexRequest)
  | samplingCreate (name : String) (size core period : Int32)
  | samplingWrite (id : Int32) (data : Option (List UInt8)) (len : Int32)
  | samplingRead (id : Int32) (data : Option (List UInt8))

/-- Handle a request: the answer, if the client gets one, and the new state. -/
def ProcServ.handle (cfg : Config) (pcfg : PortConfig) (σ : ProcServ) :
    Request → Except Failure (Option PokRet × ProcServ)
  | .apex r => do
      let s ← handleRequest cfg σ.sched r
      return (none, { σ with sched := s })
  | .samplingCreate name size core _ => do
      let (ret, ports) ← procPortSamplingCreateHandler pcfg σ.sched.currentPartition σ.ports
        name size core
      return (some ret, { σ with ports := ports })
  | .samplingWrite id data len => do
      let (ret, ports) ← procPortSamplingWriteHandler pcfg σ.sched.currentPartition
        σ.sched.tickCounter σ.ports id data len
      return (some ret, { σ with ports := ports })
  | .samplingRead id data => do
      let result ← procPortSamplingReadHandler pcfg σ.sched.currentPartition
        σ.sched.tickCounter σ.ports id data
      return (some result.ret, σ)

/-! ## What is asked of a request -/

section Spec

variable (cfg : Config) (pcfg : PortConfig) (σ : ProcServ)

/-- The valid requests. -/
def Valid : Request → Prop
  | .apex r => Effective σ.sched r
  | .samplingCreate name size core _ =>
      uint size ≤ pokPortMaxSize ∧ (PortDirection.ofInt core).isSome ∧
        ∃ i < pcfg.nbPorts, pcfg.portsName[i]? = some name ∧
          pcfg.portsKind[i]? = some .sampling ∧
          pcfg.partitionsPorts[i]? = some σ.sched.currentPartition ∧ (σ.ports i).ready = false
  | .samplingWrite id data len =>
      data.isSome ∧ Writable pcfg σ.sched.currentPartition σ.ports id len ∧
        uint len ≤ (σ.ports (pcfg.dest (uint id))).size
  | .samplingRead id data =>
      data.isSome ∧ Readable pcfg σ.sched.currentPartition σ.ports id

/-- The request returns to the server loop. -/
def Returns (req : Request) : Prop := ∃ reply σ', σ.handle cfg pcfg req = .ok (reply, σ')

/-- The request returns, and if it is invalid, it is answered with an error and changes nothing. -/
def Survives (req : Request) : Prop :=
  ∃ reply σ', σ.handle cfg pcfg req = .ok (reply, σ') ∧
    (¬Valid pcfg σ req → (∃ err, reply = some err ∧ err ≠ .ok) ∧ σ' = σ)

/-! ## When it is met -/

/-- When a request returns. A mode request must be one to enter the normal mode, with the main
thread current. A port id must stay inside the arrays, and a message that is copied must be
readable. -/
def ReturnsWhen : Request → Prop
  | .apex r => Accepted σ.sched r
  | .samplingCreate _ _ _ _ => False
  | .samplingWrite _ none _ | .samplingRead _ none => True
  | .samplingWrite id (some data) len =>
      Addressable pcfg σ.sched.currentPartition id ∧
        (Writable pcfg σ.sched.currentPartition σ.ports id len →
          (σ.ports (pcfg.dest (uint id))).size < uint len ∨ uint len ≤ data.length)
  | .samplingRead id (some _) => Addressable pcfg σ.sched.currentPartition id

/-- The request is not one that the server drops without an error: it names no thread outside the
current partition, and the message it sends fits the destination port. -/
def NotDropped : Request → Prop
  | .apex r => Effective σ.sched r
  | .samplingWrite id (some _) len =>
      Writable pcfg σ.sched.currentPartition σ.ports id len →
        uint len ≤ (σ.ports (pcfg.dest (uint id))).size
  | _ => True

end Spec

section Survival

variable {cfg : Config} {pcfg : PortConfig} {σ : ProcServ}

theorem Effective.accepted {s : State} {r : ApexRequest} (h : Effective s r) : Accepted s r := by
  cases r with
  | setPartitionMode mode => exact h
  | _ => trivial

/-! ### APEX requests -/

theorem handle_apex {r : ApexRequest} {reply : Option PokRet} {σ' : ProcServ} :
    σ.handle cfg pcfg (.apex r) = .ok (reply, σ') ↔
      ∃ s', step cfg σ.sched (.request r) = .ok s' ∧ reply = none ∧
        σ' = { σ with sched := s' } := by
  rw [ProcServ.handle, bind_eq_ok_iff]
  constructor
  · rintro ⟨s', hs', hret⟩
    obtain ⟨rfl, rfl⟩ := Prod.mk.inj (Except.ok.inj hret)
    exact ⟨s', hs', rfl, rfl⟩
  · rintro ⟨s', hs', rfl, rfl⟩
    exact ⟨s', hs', rfl⟩

theorem apex_returns_iff (hcfg : cfg.PartitionsOk) (hinv : Inv cfg σ.sched) (r : ApexRequest) :
    Returns cfg pcfg σ (.apex r) ↔ Accepted σ.sched r := by
  constructor
  · rintro ⟨reply, σ', h⟩
    obtain ⟨s', hs', _⟩ := handle_apex.1 h
    by_cases heff : Effective σ.sched r
    · exact heff.accepted
    · exact ((step_request_of_not_effective heff).1 hs').1
  · intro hacc
    obtain ⟨s', hs'⟩ := step_progress (e := .request r) hcfg hinv hacc (by simp)
    exact ⟨none, _, handle_apex.2 ⟨s', hs', rfl, rfl⟩⟩

/-- An APEX request that is invalid gets no answer. -/
theorem apex_survives_iff (hcfg : cfg.PartitionsOk) (hinv : Inv cfg σ.sched) (r : ApexRequest) :
    Survives cfg pcfg σ (.apex r) ↔ Effective σ.sched r := by
  constructor
  · rintro ⟨reply, σ', h, hinvalid⟩
    obtain ⟨_, _, rfl, _⟩ := handle_apex.1 h
    by_contra hnot
    obtain ⟨⟨err, herr, _⟩, _⟩ := hinvalid hnot
    cases herr
  · intro heff
    have hret : Returns cfg pcfg σ (.apex r) := (apex_returns_iff hcfg hinv r).2 heff.accepted
    obtain ⟨reply, σ', h⟩ := hret
    exact ⟨reply, σ', h, fun hnot => absurd heff hnot⟩

/-! ### Port requests -/

/-- The create handler does not return. -/
theorem create_not_returns (name : String) (size core period : Int32) :
    ¬Returns cfg pcfg σ (.samplingCreate name size core period) := by
  rintro ⟨reply, σ', h⟩
  obtain ⟨_, hcreate, _⟩ := bind_eq_ok_iff.1 h
  obtain ⟨_, _, hloop⟩ := bind_eq_ok_iff.1 hcreate
  cases hloop

theorem survives_of_refused {req : Request} {err : PokRet} (herr : err ≠ .ok)
    (h : σ.handle cfg pcfg req = .ok (some err, σ)) : Survives cfg pcfg σ req :=
  ⟨some err, σ, h, fun _ => ⟨⟨err, rfl, herr⟩, rfl⟩⟩

theorem Survives.returns {req : Request} (h : Survives cfg pcfg σ req) :
    Returns cfg pcfg σ req := by
  obtain ⟨reply, σ', h, _⟩ := h
  exact ⟨reply, σ', h⟩

theorem handle_write {id : Int32} {data : Option (List UInt8)} {len : Int32}
    {reply : Option PokRet} {σ' : ProcServ} :
    σ.handle cfg pcfg (.samplingWrite id data len) = .ok (reply, σ') ↔
      ∃ ret ports, procPortSamplingWriteHandler pcfg σ.sched.currentPartition
          σ.sched.tickCounter σ.ports id data len = .ok (ret, ports) ∧
        reply = some ret ∧ σ' = { σ with ports := ports } := by
  rw [ProcServ.handle, bind_eq_ok_iff]
  constructor
  · rintro ⟨⟨ret, ports⟩, hwrite, hret⟩
    obtain ⟨rfl, rfl⟩ := Prod.mk.inj (Except.ok.inj hret)
    exact ⟨ret, ports, hwrite, rfl, rfl⟩
  · rintro ⟨ret, ports, hwrite, rfl, rfl⟩
    exact ⟨(ret, ports), hwrite, rfl⟩

theorem handle_read {id : Int32} {data : Option (List UInt8)} {reply : Option PokRet}
    {σ' : ProcServ} :
    σ.handle cfg pcfg (.samplingRead id data) = .ok (reply, σ') ↔
      ∃ result, procPortSamplingReadHandler pcfg σ.sched.currentPartition
          σ.sched.tickCounter σ.ports id data = .ok result ∧
        reply = some result.ret ∧ σ' = σ := by
  rw [ProcServ.handle, bind_eq_ok_iff]
  constructor
  · rintro ⟨result, hread, hret⟩
    obtain ⟨rfl, rfl⟩ := Prod.mk.inj (Except.ok.inj hret)
    exact ⟨result, hread, rfl, rfl⟩
  · rintro ⟨result, hread, rfl, rfl⟩
    exact ⟨result, hread, rfl⟩

variable (hpcfg : pcfg.Ok) (hports : ∀ i, (σ.ports i).Ok)

include hpcfg hports

theorem write_returns_iff (id : Int32) (data : Option (List UInt8)) (len : Int32) :
    Returns cfg pcfg σ (.samplingWrite id data len) ↔
      ReturnsWhen pcfg σ (.samplingWrite id data len) := by
  cases data with
  | none => exact ⟨fun _ => trivial, fun _ => ⟨_, _, rfl⟩⟩
  | some data =>
      refine Iff.trans ?_ (writeHandler_returns_iff hpcfg σ.sched.tickCounter data hports)
      constructor
      · intro ⟨reply, σ', h⟩
        obtain ⟨ret, ports, hwrite, _⟩ := handle_write.1 h
        exact ⟨ret, ports, hwrite⟩
      · intro ⟨ret, ports, hwrite⟩
        exact ⟨_, _, handle_write.2 ⟨ret, ports, hwrite, rfl, rfl⟩⟩

/-- A write of a message that is too long for the destination is answered with `POK_ERRNO_OK`. -/
theorem write_survives_iff (id : Int32) (data : Option (List UInt8)) (len : Int32) :
    Survives cfg pcfg σ (.samplingWrite id data len) ↔
      ReturnsWhen pcfg σ (.samplingWrite id data len) ∧
        NotDropped pcfg σ (.samplingWrite id data len) := by
  cases data with
  | none =>
      exact ⟨fun _ => ⟨trivial, trivial⟩, fun _ => survives_of_refused (by simp) rfl⟩
  | some data =>
      constructor
      · intro h
        refine ⟨(write_returns_iff hpcfg hports id _ len).1 h.returns, fun hw => ?_⟩
        obtain ⟨reply, σ', hhandle, hinvalid⟩ := h
        obtain ⟨ret, ports, hwrite, rfl, _⟩ := handle_write.1 hhandle
        by_contra hlong
        obtain ⟨⟨err, herr, hne⟩, _⟩ := hinvalid fun hvalid => hlong hvalid.2.2
        rw [writeHandler_of_writable hpcfg _ _ hports hw, if_pos (Or.inl (by omega))] at hwrite
        obtain ⟨rfl, _⟩ := Prod.mk.inj (Except.ok.inj hwrite)
        exact hne (Option.some.inj herr).symm
      · rintro ⟨hret, hfits⟩
        by_cases hw : Writable pcfg σ.sched.currentPartition σ.ports id len
        · have hreturns : Returns cfg pcfg σ (.samplingWrite id (some data) len) :=
            (write_returns_iff hpcfg hports id (some data) len).2 hret
          obtain ⟨reply, σ', hhandle⟩ := hreturns
          exact ⟨reply, σ', hhandle, fun hnot => absurd ⟨rfl, hw, hfits hw⟩ hnot⟩
        · obtain ⟨err, herr, hwrite⟩ :=
            writeHandler_refuses hpcfg σ.sched.tickCounter data hw hret.1
          exact survives_of_refused herr.1 (handle_write.2 ⟨_, _, hwrite, rfl, rfl⟩)

theorem read_returns_iff (id : Int32) (data : Option (List UInt8)) :
    Returns cfg pcfg σ (.samplingRead id data) ↔ ReturnsWhen pcfg σ (.samplingRead id data) := by
  cases data with
  | none => exact ⟨fun _ => trivial, fun _ => ⟨_, _, rfl⟩⟩
  | some data =>
      refine Iff.trans ?_ (readHandler_returns_iff hpcfg σ.sched.tickCounter data hports)
      constructor
      · intro ⟨reply, σ', h⟩
        obtain ⟨result, hread, _⟩ := handle_read.1 h
        exact ⟨result, hread⟩
      · intro ⟨result, hread⟩
        exact ⟨_, _, handle_read.2 ⟨result, hread, rfl, rfl⟩⟩

theorem read_survives_iff (id : Int32) (data : Option (List UInt8)) :
    Survives cfg pcfg σ (.samplingRead id data) ↔ ReturnsWhen pcfg σ (.samplingRead id data) := by
  cases data with
  | none => exact ⟨fun _ => trivial, fun _ => survives_of_refused (by simp) rfl⟩
  | some data =>
      constructor
      · intro h
        exact (read_returns_iff hpcfg hports id _).1 h.returns
      · intro haddr
        by_cases hr : Readable pcfg σ.sched.currentPartition σ.ports id
        · have hreturns : Returns cfg pcfg σ (.samplingRead id (some data)) :=
            (read_returns_iff hpcfg hports id (some data)).2 haddr
          obtain ⟨reply, σ', hhandle⟩ := hreturns
          exact ⟨reply, σ', hhandle, fun hnot => absurd ⟨rfl, hr⟩ hnot⟩
        · obtain ⟨err, herr, hread⟩ :=
            readHandler_refuses hpcfg σ.sched.tickCounter data hr haddr
          exact survives_of_refused herr.1 (handle_read.2 ⟨_, hread, rfl, rfl⟩)

end Survival

/-- **Requests and the server.** In every state of the scheduler that a run of events leads to, and
every port table that port requests lead to: a request returns to the server loop if and only if
`ReturnsWhen` holds, and is handled as it should be if and only if it is not dropped either. -/
theorem server_survives_iff {cfg : Config} (hcfg : cfg.PartitionsOk) {pcfg : PortConfig}
    (hpcfg : pcfg.Ok) {evs : List Event} {s : State} (h : Reached cfg (fun _ _ => True) evs s)
    {ports : Ports} (hports : PortsReached pcfg ports) (req : Request) :
    (Returns cfg pcfg ⟨s, ports⟩ req ↔ ReturnsWhen pcfg ⟨s, ports⟩ req) ∧
      (Survives cfg pcfg ⟨s, ports⟩ req ↔
        ReturnsWhen pcfg ⟨s, ports⟩ req ∧ NotDropped pcfg ⟨s, ports⟩ req) := by
  have hinv := h.inv hcfg
  have hok := hports.ok hpcfg
  cases req with
  | apex r =>
      refine ⟨apex_returns_iff hcfg hinv r, (apex_survives_iff hcfg hinv r).trans ?_⟩
      exact ⟨fun heff => ⟨heff.accepted, heff⟩, fun hwhen => hwhen.2⟩
  | samplingCreate name size core period =>
      have hnot : ¬Returns cfg pcfg ⟨s, ports⟩ (.samplingCreate name size core period) :=
        create_not_returns name size core period
      exact ⟨⟨hnot, False.elim⟩, fun hs => absurd hs.returns hnot, fun hwhen => hwhen.1.elim⟩
  | samplingWrite id data len =>
      exact ⟨write_returns_iff hpcfg hok id data len, write_survives_iff hpcfg hok id data len⟩
  | samplingRead id data =>
      refine ⟨read_returns_iff hpcfg hok id data, (read_survives_iff hpcfg hok id data).trans ?_⟩
      cases data <;> exact ⟨fun hwhen => ⟨hwhen, trivial⟩, fun hwhen => hwhen.1⟩

/-- The two ports of the deployed configuration, created with 16 bytes each. -/
def createPorts : List PortEvent :=
  [.create 0 "dataout" 16 2 100, .create 1 "datain" 16 1 100]

/-- In the deployed configuration with both ports created, partition 0 sends three bytes. -/
theorem server_survives_iff_deployed :
    ∃ s ports, Reached deployment (fun _ _ => True) [.tick] s ∧ PortsReached deployedPorts ports ∧
      Survives deployment deployedPorts ⟨s, ports⟩ (.samplingWrite 0 (some [1, 2, 3]) 3) := by
  obtain ⟨s, hs, hpart⟩ : ∃ s, Reached deployment (fun _ _ => True) [.tick] s ∧
      s.currentPartition = 0 := by
    apply Reached.exists_of_boot
    decide +kernel
  obtain ⟨ports, hports, haddr, hfits⟩ : ∃ ports,
      Run (portStep deployedPorts) (fun _ _ => True) portInit createPorts ports ∧
        Addressable deployedPorts 0 0 ∧ uint 3 ≤ (ports (deployedPorts.dest (uint 0))).size := by
    apply Run.exists_of_exec
    decide +kernel
  refine ⟨s, ports, hs, ⟨_, hports⟩, ?_⟩
  refine (server_survives_iff deployment_partitionsOk deployedPorts_ok hs ⟨_, hports⟩ _).2.2 ?_
  exact ⟨⟨hpart ▸ haddr, fun _ => Or.inr (by decide)⟩, fun _ => hfits⟩

/-- At the first tick of the deployed configuration partition 0's main thread is current. A request
for any mode but the normal one ends the server in an assertion, and one to create the partition's
own port in an endless loop. -/
theorem server_brought_down :
    ∃ s, Reached deployment (fun _ _ => True) [.tick] s ∧
      ProcServ.handle deployment deployedPorts ⟨s, portInit⟩ (.apex (.setPartitionMode 2)) =
        .error .assertion ∧
      ProcServ.handle deployment deployedPorts ⟨s, portInit⟩
        (.samplingCreate "dataout" 16 2 100) = .error .hang ∧
      ¬Survives deployment deployedPorts ⟨s, portInit⟩ (.apex (.setPartitionMode 2)) ∧
      ¬Survives deployment deployedPorts ⟨s, portInit⟩ (.samplingCreate "dataout" 16 2 100) := by
  obtain ⟨s, hs, hpart⟩ : ∃ s, Reached deployment (fun _ _ => True) [.tick] s ∧
      s.currentPartition = 0 := by
    apply Reached.exists_of_boot
    decide +kernel
  have hmode : ProcServ.handle deployment deployedPorts ⟨s, portInit⟩
      (.apex (.setPartitionMode 2)) = .error .assertion := by
    rw [ProcServ.handle, handleRequest_setPartitionMode, if_neg (fun h => absurd h.1 (by decide))]
    rfl
  have hcreate : ProcServ.handle deployment deployedPorts ⟨s, portInit⟩
      (.samplingCreate "dataout" 16 2 100) = .error .hang := by
    rw [ProcServ.handle, hpart]
    rfl
  refine ⟨s, hs, hmode, hcreate, fun h => ?_, fun h => ?_⟩
  · obtain ⟨_, _, hok, _⟩ := h
    rw [hmode] at hok
    cases hok
  · exact create_not_returns _ _ _ _ h.returns

end PartitionSeL4
