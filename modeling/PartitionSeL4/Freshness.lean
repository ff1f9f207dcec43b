import PartitionSeL4.PortProof

/-!
# How old a sampling message is

A read of a sampling port should say whether its message is still valid: whether at most the refresh
period has passed since it was written. `Stamped` is the port table together with what this speaks
of, for one port: the period it was created with, and the tick of the last message that arrived.

The record keeps the tick in 32 bits, and the sum with the period is one of 32 bits, while the tick
counter has 64. So a message is taken for expired as soon as its expiry does not fit into 32 bits,
however fresh it is. And the creation of a port resets the time of a message that has arrived
before. `sampling_freshness_iff` says that the answer is right otherwise, and that it is wrong there
until the message expires.
-/

namespace PartitionSeL4

open Lib

/-- The last message that arrived at a port: its tick, and whether the port was created then. -/
structure Stamp where
  tick : Nat
  created : Bool
  deriving DecidableEq, Repr

/-- The port table and the history of one port. -/
structure Stamped where
  ports : Ports
  period : Option Int32
  written : Option Stamp

namespace Stamped

/-- After `port_init`. -/
def start : Stamped := ⟨portInit, none, none⟩

/-- Record that a request, which leaves the table `ports`, has created the port, or that its message
has arrived there: that `pok_port_write` has returned `POK_ERRNO_OK`. -/
def note (pcfg : PortConfig) (port : Nat) (c : Stamped) (e : PortEvent) (ret : PokRet)
    (ports : Ports) : Stamped :=
  match e with
  | .create _ _ _ _ period =>
      if (c.ports port).ready = false ∧ (ports port).ready = true then
        { c with period := some period }
      else c
  | .write _ now id _ len =>
      if ret = .ok ∧ pcfg.dest (uint id) = port ∧ uint len ≤ (c.ports port).size then
        { c with written := some ⟨now, (c.ports port).ready⟩ }
      else c
  | .read _ _ _ _ => c

end Stamped

/-- A request for a port, with the history of `port`. -/
def stampStep (pcfg : PortConfig) (port : Nat) (c : Stamped) (e : PortEvent) :
    Except Failure Stamped := do
  let (ret, ports) ← handlePort pcfg c.ports e
  return { c.note pcfg port e ret ports with ports := ports }

/-! ## The history and the record -/

/-- What the record of the port says about its history. -/
structure StampInv (port : Nat) (c : Stamped) : Prop where
  ports : ∀ i, (c.ports i).Ok
  period : (c.ports port).ready = true → c.period.map uint = some (c.ports port).refresh
  empty : (c.ports port).empty = c.written.isNone
  ready : ∀ stamp ∈ c.written, stamp.created = true → (c.ports port).ready = true
  stamp : ∀ stamp ∈ c.written, (c.ports port).lastReceive =
    if stamp.created = false ∧ (c.ports port).ready = true then 0 else u32 stamp.tick

theorem stampInv_start (port : Nat) : StampInv port .start where
  ports := portInit_ok
  period h := nomatch h
  empty := rfl
  ready _ h := nomatch h
  stamp _ h := nomatch h

section Step

variable {pcfg : PortConfig} {port : Nat} {c c' : Stamped} {e : PortEvent}

theorem StampInv.congr (h : StampInv port c) {ports : Ports} (hok : ∀ i, (ports i).Ok)
    (hport : ∃ flush, ports port = { c.ports port with mustBeFlushed := flush }) :
    StampInv port { c with ports := ports } := by
  obtain ⟨flush, hport⟩ := hport
  refine ⟨hok, ?_, ?_, ?_, ?_⟩
  · simpa only [hport] using h.period
  · simpa only [hport] using h.empty
  · simpa only [hport] using h.ready
  · simpa only [hport] using h.stamp

theorem StampInv.create (h : StampInv port c) (hfresh : (c.ports port).ready = false)
    {ports : Ports} (hok : ∀ i, (ports i).Ok) {index size partition : Nat}
    {direction : PortDirection} (period : Int32)
    (hport : ports port =
      (c.ports port).created index size partition direction (uint period)) :
    StampInv port { c with period := some period, ports := ports } := by
  have hearly : ∀ stamp ∈ c.written, stamp.created = false := by
    intro stamp hstamp
    by_contra hcreated
    have := h.ready stamp hstamp (by simpa using hcreated)
    rw [hfresh] at this
    cases this
  refine ⟨hok, fun _ => ?_, ?_, fun stamp hstamp hcreated => ?_, fun stamp hstamp => ?_⟩
  · show some (uint period) = some (ports port).refresh
    rw [hport]
    rfl
  · show (ports port).empty = _
    rw [hport]
    exact h.empty
  · rw [hearly stamp hstamp] at hcreated
    cases hcreated
  · show (ports port).lastReceive = _
    rw [if_pos ⟨hearly stamp hstamp, by show (ports port).ready = true; rw [hport]; rfl⟩, hport]
    rfl

theorem StampInv.receive (h : StampInv port c) {ports : Ports} (hok : ∀ i, (ports i).Ok)
    {now size : Nat} {data : List UInt8} {flush : Bool}
    (hport : ports port =
      { (c.ports port).receive now data size with mustBeFlushed := flush }) :
    StampInv port
      { c with written := some ⟨now, (c.ports port).ready⟩, ports := ports } := by
  have hready : (ports port).ready = (c.ports port).ready := by
    rw [hport]
    rfl
  refine ⟨hok, ?_, ?_, fun stamp hstamp hcreated => ?_, fun stamp hstamp => ?_⟩
  · show (ports port).ready = true → c.period.map uint = some (ports port).refresh
    rw [hport]
    exact h.period
  · show (ports port).empty = false
    rw [hport]
    rfl
  · cases hstamp
    exact hready.trans hcreated
  · cases hstamp
    show (ports port).lastReceive = _
    have hnot : ¬((c.ports port).ready = false ∧ (ports port).ready = true) := by
      rw [hready]
      simp
    rw [if_neg hnot, hport]
    rfl

/-- The record of a port after a write that returns: it has received the message, or it is as it
was, up to the flush flag. -/
theorem afterWrite_at (pcfg : PortConfig) (port now : Nat) (ports : Ports) (src : Nat)
    (data : List UInt8) (size : Nat) :
    ∃ flush, afterWrite pcfg now ports src data size port =
      { (if pcfg.dest src = port ∧ size ≤ (ports port).size then
          (ports port).receive now data size else ports port) with mustBeFlushed := flush } := by
  have hsent : transfer pcfg now ports src data size port =
      if pcfg.dest src = port ∧ size ≤ (ports port).size then (ports port).receive now data size
      else ports port := by
    unfold transfer
    by_cases hdest : pcfg.dest src = port
    · subst hdest
      by_cases hfit : (ports (pcfg.dest src)).size < size
      · rw [if_pos hfit, if_neg (by omega)]
      · rw [if_neg hfit, Function.update_self, if_pos ⟨rfl, by omega⟩]
    · have hnot : ¬(pcfg.dest src = port ∧ size ≤ (ports port).size) := fun hboth => hdest hboth.1
      rw [if_neg hnot]
      split_ifs
      · rfl
      · rw [Function.update_of_ne (Ne.symm hdest)]
  rw [← hsent, afterWrite, Function.update_apply]
  split_ifs with heq
  · exact ⟨true, by rw [heq]⟩
  · exact ⟨_, rfl⟩

/-- **A request keeps the invariant.** -/
theorem stampStep_inv (hpcfg : pcfg.Ok) (h : StampInv port c)
    (hs : stampStep pcfg port c e = .ok c') : StampInv port c' := by
  obtain ⟨⟨ret, ports⟩, hhandle, hs⟩ := bind_eq_ok_iff.1 hs
  obtain rfl := Except.ok.inj hs
  have hok := handlePort_ok hpcfg h.ports hhandle
  rcases handlePort_cases hpcfg h.ports hhandle with
    ⟨gid, index, size, partition, direction, period, hfresh, rfl, ⟨_, _, _, rfl⟩, rfl⟩ |
      ⟨partition, now, id, data, len, rfl, hw, rfl, _, rfl⟩ | ⟨rfl, hread⟩
  · by_cases hgid : gid = port
    · subst hgid
      have hready : (Function.update c.ports gid ((c.ports gid).created index size partition
          direction (uint period)) gid).ready = true := by
        rw [Function.update_self]
        rfl
      simp only [Stamped.note, if_pos (And.intro hfresh hready)]
      exact h.create hfresh hok period (Function.update_self ..)
    · have hsame : Function.update c.ports gid ((c.ports gid).created index size partition
          direction (uint period)) port = c.ports port :=
        Function.update_of_ne (Ne.symm hgid) ..
      have hnot : ¬((c.ports port).ready = false ∧ (Function.update c.ports gid
          ((c.ports gid).created index size partition direction (uint period)) port).ready =
            true) := by
        rw [hsame]
        simp
      simp only [Stamped.note, if_neg hnot]
      exact h.congr hok ⟨_, hsame⟩
  · obtain ⟨flush, hport⟩ :=
      afterWrite_at pcfg port now c.ports (uint id) data (uint len)
    by_cases harrives : pcfg.dest (uint id) = port ∧ uint len ≤ (c.ports port).size
    · rw [if_pos harrives] at hport
      simp only [Stamped.note, true_and, if_pos harrives]
      exact h.receive hok hport
    · rw [if_neg harrives] at hport
      simp only [Stamped.note, true_and, if_neg harrives]
      exact h.congr hok ⟨flush, hport⟩
  · -- nothing has happened, so nothing is recorded
    have hnote : c.note pcfg port e ret c.ports = c := by
      cases e with
      | create partition name size core period =>
          have hnot : ¬((c.ports port).ready = false ∧ (c.ports port).ready = true) := by simp
          simp only [Stamped.note, if_neg hnot]
      | write partition now id data len =>
          have hne : ret ≠ .ok := by
            intro hret
            obtain ⟨_, _, _, _, he⟩ := hread hret
            cases he
          simp [Stamped.note, hne]
      | read partition now id data => rfl
    rw [hnote]
    exact h

end Step

/-! ## The answer of a read -/

/-- When the answer at tick `now` is right, for a message and a period: the message has expired, or
its expiry fits into 32 bits; a message from before the creation counts as one of tick 0. -/
def TimesFit (stamp : Stamp) (period now : Nat) : Prop :=
  stamp.tick + period < now ∨
    if stamp.created then stamp.tick + period < 2 ^ 32 else now ≤ period

instance (stamp : Stamp) (period now : Nat) : Decidable (TimesFit stamp period now) :=
  inferInstanceAs (Decidable (_ ∨ _))

theorem not_expired_iff {stamp : Stamp} {period now : Nat} (hperiod : period < 2 ^ 31)
    (hle : stamp.tick ≤ now) :
    ((¬u32 ((if stamp.created then u32 stamp.tick else 0) + period) < now) ↔
        now - stamp.tick ≤ period) ↔ TimesFit stamp period now := by
  unfold TimesFit
  cases stamp.created with
  | true =>
      simp only [if_true, u32]
      omega
  | false =>
      simp only [if_false, Bool.false_eq_true, u32]
      omega

/-- Only a read of a port that may be read, at which a message has arrived, returns
`POK_ERRNO_OK`. -/
theorem read_ok {pcfg : PortConfig} (hpcfg : pcfg.Ok) {ports : Ports} (hports : ∀ i, (ports i).Ok)
    {partition now : Nat} {id : Int32} {data : Option (List UInt8)} {result : ReadResult}
    (hread : procPortSamplingReadHandler pcfg partition now ports id data = .ok result)
    (hok : result.ret = .ok) :
    (ports (uint id)).ready = true ∧ (ports (uint id)).empty = false ∧
      result.valid = some (decide
        (¬u32 ((ports (uint id)).lastReceive + (ports (uint id)).refresh) < now)) := by
  cases data with
  | none =>
      cases hread
      cases hok
  | some data =>
      by_cases hr : Readable pcfg partition ports id
      · rw [readHandler_eq hpcfg now data hports hr] at hread
        obtain rfl := Except.ok.inj hread
        cases hempty : (ports (uint id)).empty with
        | true => simp [hempty] at hok
        | false => exact ⟨hr.2.1, rfl, by simp⟩
      · by_cases haddr : Addressable pcfg partition id
        · obtain ⟨err, herr, hrefused⟩ := readHandler_refuses hpcfg now data hr haddr
          rw [hrefused] at hread
          obtain rfl := Except.ok.inj hread
          exact absurd hok herr.1
        · rw [readHandler_faults hpcfg now data haddr] at hread
          cases hread

/-- **Freshness of sampling messages.** In every state that port requests lead to, a read that
returns `POK_ERRNO_OK`, at a tick not before that of the last message, says whether at most the
period has passed since, if and only if the times fit. -/
theorem sampling_freshness_iff {pcfg : PortConfig} (hpcfg : pcfg.Ok) {evs : List PortEvent}
    {c : Stamped} {partition now : Nat} {id period : Int32} {data : Option (List UInt8)}
    {result : ReadResult} {stamp : Stamp}
    (hrun : Run (stampStep pcfg (uint id)) (fun _ _ => True) .start evs c)
    (hread : procPortSamplingReadHandler pcfg partition now c.ports id data = .ok result)
    (hok : result.ret = .ok) (hwritten : c.written = some stamp) (hcreated : c.period = some period)
    (hperiod : 0 ≤ period.toInt) (hle : stamp.tick ≤ now) :
    (result.valid = some true ↔ now - stamp.tick ≤ uint period) ↔
      TimesFit stamp (uint period) now := by
  have hinv : StampInv (uint id) c :=
    hrun.invariant (stampInv_start _) fun _ _ _ h _ hs => stampStep_inv hpcfg h hs
  obtain ⟨hready, _, hvalid⟩ := read_ok hpcfg hinv.ports hread hok
  have hrefresh : (c.ports (uint id)).refresh = uint period := by
    have := hinv.period hready
    rw [hcreated] at this
    exact (Option.some.inj this).symm
  have hstamp : (c.ports (uint id)).lastReceive =
      if stamp.created then u32 stamp.tick else 0 := by
    rw [hinv.stamp stamp hwritten, hready]
    cases stamp.created <;> rfl
  have hlt : uint period < 2 ^ 31 := by
    have := uint_of_nonneg hperiod
    have := period.toInt_lt
    omega
  rw [← not_expired_iff hlt hle, hvalid, hstamp, hrefresh, Option.some.injEq, decide_eq_true_iff]

/-- Both ports created, with a period of 10 ticks, and a message at a tick. -/
def writtenAt (now : Nat) : List PortEvent :=
  [.create 0 "dataout" 16 2 10, .create 1 "datain" 16 1 10, .write 0 now 0 (some [1, 2, 3]) 3]

/-- What a read of port 1 by partition 1 says about its message. -/
def validAt (c : Stamped) (now : Nat) : Option (PokRet × Option Bool) :=
  (procPortSamplingReadHandler deployedPorts 1 now c.ports 1 (some [])).toOption.map
    fun result => (result.ret, result.valid)

theorem read_of_validAt {c : Stamped} {now : Nat} {ret : PokRet} {valid : Option Bool}
    (h : validAt c now = some (ret, valid)) :
    ∃ result, procPortSamplingReadHandler deployedPorts 1 now c.ports 1 (some []) = .ok result ∧
      result.ret = ret ∧ result.valid = valid := by
  obtain ⟨result, hread, heq⟩ := Option.map_eq_some_iff.1 h
  obtain ⟨rfl, rfl⟩ := Prod.mk.inj heq
  exact ⟨result, eq_ok_of_toOption hread, rfl, rfl⟩

/-- In the deployed configuration, a message of tick 100 that is read at tick 110. -/
theorem sampling_freshness_iff_deployed :
    ∃ c result, Run (stampStep deployedPorts 1) (fun _ _ => True) .start (writtenAt 100) c ∧
      procPortSamplingReadHandler deployedPorts 1 110 c.ports 1 (some []) = .ok result ∧
      ((result.valid = some true ↔ 110 - 100 ≤ uint 10) ↔ TimesFit ⟨100, true⟩ (uint 10) 110) := by
  obtain ⟨c, hrun, hwritten, hperiod, hvalid⟩ : ∃ c, Run (stampStep deployedPorts 1)
      (fun _ _ => True) .start (writtenAt 100) c ∧ c.written = some ⟨100, true⟩ ∧
      c.period = some 10 ∧ validAt c 110 = some (.ok, some true) := by
    apply Run.exists_of_exec
    decide +kernel
  obtain ⟨result, hread, hok, _⟩ := read_of_validAt hvalid
  have hrun' : Run (stampStep deployedPorts (uint 1)) (fun _ _ => True) .start (writtenAt 100) c :=
    hrun
  exact ⟨c, result, hrun, hread, sampling_freshness_iff deployedPorts_ok hrun' hread hok hwritten
    hperiod (by decide) (by decide)⟩

/-- In the deployed configuration, a message of tick 2^32 that is read at the same tick, with a
period of 10 ticks, is reported as no longer valid. -/
theorem fresh_message_expired :
    ¬∀ (now : Nat) (c : Stamped) (result : ReadResult) (stamp : Stamp),
      Run (stampStep deployedPorts 1) (fun _ _ => True) .start (writtenAt now) c →
      procPortSamplingReadHandler deployedPorts 1 now c.ports 1 (some []) = .ok result →
      result.ret = .ok → c.written = some stamp → c.period = some 10 → stamp.tick ≤ now →
      (result.valid = some true ↔ now - stamp.tick ≤ uint 10) := by
  intro hall
  obtain ⟨c, hrun, hwritten, hperiod, hvalid⟩ : ∃ c, Run (stampStep deployedPorts 1)
      (fun _ _ => True) .start (writtenAt (2 ^ 32)) c ∧ c.written = some ⟨2 ^ 32, true⟩ ∧
      c.period = some 10 ∧ validAt c (2 ^ 32) = some (.ok, some false) := by
    apply Run.exists_of_exec
    decide +kernel
  obtain ⟨result, hread, hok, hfalse⟩ := read_of_validAt hvalid
  have hright := hall (2 ^ 32) c result _ hrun hread hok hwritten hperiod (Nat.le_refl _)
  rw [hfalse] at hright
  exact absurd (hright.2 (by decide)) (by decide)

end PartitionSeL4
