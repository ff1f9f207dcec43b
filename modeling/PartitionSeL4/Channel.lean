import PartitionSeL4.PortProof

/-!
# The sampling channel

A channel is a source port with its destination port. A write to the source puts its message into
the destination's block, and a read of the destination should hand out the last message written, or
answer `POK_ERRNO_EMPTY` if there is none yet. `Channel` is the port table together with the history
that this speaks of: the messages of the writes that returned `POK_ERRNO_OK`, before the destination
was created and since.

The first half of the transfer works: the destination holds the last message (`ChannelInv.holds`).
The second half is missing, since `pok_port_get` never writes to the caller's buffer. And
`pok_port_create` keeps the flag `empty`, which a write of no bytes has cleared if it came before
the creation. `sampling_channel_iff` says that these two are all there is to it: over any run of
requests on the channel, the reads are right if and only if each of them finds the message in its
buffer already, or none was sent and none of no bytes came too early.
-/

namespace PartitionSeL4

open Lib

/-- Port `dst` is the destination of port `src`. -/
structure IsChannel (pcfg : PortConfig) (src dst : Nat) : Prop where
  src_lt : src < pcfg.nbPorts
  dst_lt : dst < pcfg.nbPorts
  ne : src ≠ dst
  dest_eq : pcfg.dest src = dst

/-- The port table and the history of the channel. -/
structure Channel where
  ports : Ports
  /-- The messages written before the destination was created, oldest first. -/
  early : List (List UInt8)
  /-- The messages written since. -/
  sent : List (List UInt8)

namespace Channel

/-- The channel after `port_init`. -/
def start : Channel := ⟨portInit, [], []⟩

/-- Record a write to the source that returned `POK_ERRNO_OK`. -/
def note (src dst : Nat) (c : Channel) (e : PortEvent) (ret : PokRet) : Channel :=
  match e with
  | .write _ _ id (some data) len =>
      if ret = .ok ∧ uint id = src then
        if (c.ports dst).ready then { c with sent := c.sent ++ [data.take (uint len)] }
        else { c with early := c.early ++ [data.take (uint len)] }
      else c
  | _ => c

end Channel

/-- A request for a port, with the history. -/
def channelStep (pcfg : PortConfig) (src dst : Nat) (c : Channel) (e : PortEvent) :
    Except Failure Channel := do
  let (ret, ports) ← handlePort pcfg c.ports e
  return { c.note src dst e ret with ports := ports }

/-- The requests on the channel: creations of whatever ports, and writes and reads of its two ports.
A message can be read in full, and fits the destination once that is created. -/
def OnChannel (src dst : Nat) (c : Channel) : PortEvent → Prop
  | .create _ _ _ _ _ => True
  | .write _ _ id none _ | .read _ _ id _ => uint id = src ∨ uint id = dst
  | .write _ _ id (some data) len =>
      (uint id = src ∨ uint id = dst) ∧ uint len ≤ data.length ∧
        ((c.ports dst).ready = true → uint len ≤ (c.ports dst).size)

instance (src dst : Nat) (c : Channel) : (e : PortEvent) → Decidable (OnChannel src dst c e)
  | .create _ _ _ _ _ => inferInstanceAs (Decidable True)
  | .write _ _ _ none _ | .read _ _ _ _ => inferInstanceAs (Decidable (_ ∨ _))
  | .write _ _ _ (some _) _ => inferInstanceAs (Decidable (_ ∧ _ ∧ (_ → _)))

/-! ## What is asked of a read -/

/-- Exactly the bytes of the message have been put into the buffer. -/
def Delivered (message before after : List UInt8) : Prop :=
  after = message ++ before.drop message.length

/-- A read of the destination that returns `POK_ERRNO_OK` delivers the message of the last write;
and one by its owner, of a port created for input, returns `POK_ERRNO_EMPTY` if and only if there
was no write since the creation. -/
def ReadCorrect (pcfg : PortConfig) (dst : Nat) (c : Channel) : PortEvent → Prop
  | .read partition now id (some buffer) => uint id = dst →
      ∀ result,
        procPortSamplingReadHandler pcfg partition now c.ports id (some buffer) = .ok result →
        (result.ret = .ok → ∃ message, (c.early ++ c.sent).getLast? = some message ∧
          Delivered message buffer result.buffer) ∧
        (Readable pcfg partition c.ports id → (result.ret = .empty ↔ c.sent = []))
  | _ => True

/-- When that is so: the buffer starts with the last message already; and if there was no write
since the creation, then no write of no bytes before it either. -/
def ReadHolds (pcfg : PortConfig) (dst : Nat) (c : Channel) : PortEvent → Prop
  | .read partition _ id (some buffer) => uint id = dst → Readable pcfg partition c.ports id →
      (∀ message ∈ c.sent.getLast?, message <+: buffer) ∧ (c.sent = [] → [] ∉ c.early)
  | _ => True

instance (pcfg : PortConfig) (dst : Nat) (c : Channel) :
    (e : PortEvent) → Decidable (ReadHolds pcfg dst c e)
  | .read _ _ _ (some _) => inferInstanceAs (Decidable (_ → _ → _ ∧ (_ → _)))
  | .read _ _ _ none | .create _ _ _ _ _ | .write _ _ _ _ _ => inferInstanceAs (Decidable True)

/-! ## The history and the destination's record -/

/-- What the destination's record says about the history. A destination that was created for output
is never read, and may itself be written to. -/
structure ChannelInv (dst : Nat) (c : Channel) : Prop where
  ports : ∀ i, (c.ports i).Ok
  sent_nil : (c.ports dst).ready = false → c.sent = []
  empty_iff : (c.ports dst).direction ≠ some .directionOut →
    ((c.ports dst).empty = false ↔ c.sent ≠ [] ∨ [] ∈ c.early)
  holds : (c.ports dst).direction ≠ some .directionOut → ∀ message ∈ c.sent.getLast?,
    ∃ block, (c.ports dst).data = some block ∧ message <+: block

theorem channelInv_start (dst : Nat) : ChannelInv dst .start where
  ports := portInit_ok
  sent_nil _ := rfl
  empty_iff _ := by simp [Channel.start, portInit]
  holds _ message h := by simp [Channel.start] at h

section AfterWrite

variable (pcfg : PortConfig) (now : Nat) (ports : Ports) (port : Nat) (data : List UInt8)
  (size : Nat)

theorem transfer_frame (i : Nat) :
    (transfer pcfg now ports port data size i).direction = (ports i).direction ∧
      (transfer pcfg now ports port data size i).ready = (ports i).ready := by
  unfold transfer
  split_ifs
  · exact ⟨rfl, rfl⟩
  · rw [Function.update_apply]
    split_ifs with hi
    · rw [hi]
      exact ⟨rfl, rfl⟩
    · exact ⟨rfl, rfl⟩

theorem afterWrite_frame (i : Nat) :
    (afterWrite pcfg now ports port data size i).direction = (ports i).direction ∧
      (afterWrite pcfg now ports port data size i).ready = (ports i).ready := by
  have hframe := transfer_frame pcfg now ports port data size i
  rw [afterWrite, Function.update_apply]
  split_ifs with hi
  · rw [hi] at hframe ⊢
    exact hframe
  · exact hframe

theorem afterWrite_dest (hne : port ≠ pcfg.dest port) :
    afterWrite pcfg now ports port data size (pcfg.dest port) =
      if (ports (pcfg.dest port)).size < size then ports (pcfg.dest port)
      else (ports (pcfg.dest port)).receive now data size := by
  rw [afterWrite, Function.update_of_ne hne.symm, transfer]
  split_ifs
  · rfl
  · rw [Function.update_self]

end AfterWrite

section Step

variable {pcfg : PortConfig} {src dst : Nat} {c c' : Channel} {e : PortEvent}

/-- The ways in which a step of the channel comes about. -/
theorem channelStep_eq_ok (h : channelStep pcfg src dst c e = .ok c') :
    ∃ ret ports, handlePort pcfg c.ports e = .ok (ret, ports) ∧
      c' = { c.note src dst e ret with ports := ports } := by
  obtain ⟨⟨ret, ports⟩, hhandle, hret⟩ := bind_eq_ok_iff.1 h
  exact ⟨ret, ports, hhandle, (Except.ok.inj hret).symm⟩

theorem ChannelInv.congr (h : ChannelInv dst c) {ports : Ports} (hok : ∀ i, (ports i).Ok)
    (hdst : ports dst = c.ports dst) : ChannelInv dst { c with ports := ports } where
  ports := hok
  sent_nil := by simpa only [hdst] using h.sent_nil
  empty_iff := by simpa only [hdst] using h.empty_iff
  holds := by simpa only [hdst] using h.holds

/-- Creating the destination keeps its flag `empty`, and with it the traces of earlier writes. -/
theorem ChannelInv.create (h : ChannelInv dst c) (hfresh : (c.ports dst).ready = false)
    {ports : Ports} (hok : ∀ i, (ports i).Ok) (hready : (ports dst).ready = true)
    (hempty : (ports dst).empty = (c.ports dst).empty) :
    ChannelInv dst { c with ports := ports } where
  ports := hok
  sent_nil hnot := by simp [hready] at hnot
  empty_iff _ := by
    have hdir := ((h.ports dst).fresh hfresh).2.2.1
    show (ports dst).empty = false ↔ _
    rw [hempty]
    exact h.empty_iff (by simp [hdir])
  holds _ message hmessage := by
    have hnil : c.sent = [] := h.sent_nil hfresh
    simp [hnil] at hmessage

/-- A write to the source before the destination is created. It is lost unless it is empty. -/
theorem ChannelInv.writeEarly (h : ChannelInv dst c) (hfresh : (c.ports dst).ready = false)
    {ports : Ports} (hok : ∀ i, (ports i).Ok) (now : Nat) {data : List UInt8} {size : Nat}
    (hdata : size ≤ data.length)
    (hdst : ports dst = if (c.ports dst).size < size then c.ports dst
      else (c.ports dst).receive now data size) :
    ChannelInv dst { c with early := c.early ++ [data.take size], ports := ports } := by
  obtain ⟨hsize, _, hdir, _⟩ := (h.ports dst).fresh hfresh
  have hold := h.empty_iff (by simp [hdir])
  have hnil := h.sent_nil hfresh
  refine ⟨hok, fun _ => hnil, fun _ => ?_, fun _ message hmessage => ?_⟩
  · show (ports dst).empty = false ↔ c.sent ≠ [] ∨ [] ∈ c.early ++ [data.take size]
    rw [hdst, hsize]
    by_cases hzero : size = 0
    · simp [hzero, Port.receive]
    · have hne : data.take size ≠ [] := by
        intro htake
        have := congrArg List.length htake
        rw [List.length_take] at this
        simp only [List.length_nil] at this
        omega
      rw [if_pos (by omega), hold]
      simp [hne.symm]
  · simp [hnil] at hmessage

/-- A write to the source once the destination is created arrives there. -/
theorem ChannelInv.write (h : ChannelInv dst c) (hready : (c.ports dst).ready = true)
    {ports : Ports} (hok : ∀ i, (ports i).Ok) (now : Nat) {data : List UInt8} {size : Nat}
    (hdst : ports dst = (c.ports dst).receive now data size) :
    ChannelInv dst { c with sent := c.sent ++ [data.take size], ports := ports } := by
  obtain ⟨_, block, hblock, _⟩ := (h.ports dst).created hready
  refine ⟨hok, fun hnot => ?_, fun _ => ?_, fun _ message hmessage => ?_⟩
  · rw [show (ports dst).ready = (c.ports dst).ready by rw [hdst]; rfl, hready] at hnot
    cases hnot
  · simp [hdst, Port.receive]
  · have hmsg : data.take size = message := by simpa using hmessage
    subst hmsg
    refine ⟨data.take size ++ block.drop size, ?_, List.prefix_append _ _⟩
    show (ports dst).data = _
    rw [hdst, Port.receive, hblock]
    rfl

theorem ChannelInv.afterWrite (hch : IsChannel pcfg src dst) (h : ChannelInv dst c)
    {partition now : Nat} {id len : Int32} {data : List UInt8}
    (hon : OnChannel src dst c (.write partition now id (some data) len))
    (hw : Writable pcfg partition c.ports id len)
    (hok : ∀ i, (afterWrite pcfg now c.ports (uint id) data (uint len) i).Ok) :
    ChannelInv dst { c.note src dst (.write partition now id (some data) len) .ok with
      ports := afterWrite pcfg now c.ports (uint id) data (uint len) } := by
  obtain ⟨hport, hdata, hfits⟩ := hon
  rcases hport with hsrc | hdst
  · have hdest := afterWrite_dest pcfg now c.ports src data (uint len)
      (by rw [hch.dest_eq]; exact hch.ne)
    rw [hch.dest_eq] at hdest
    rw [hsrc] at hok
    simp only [Channel.note, hsrc, and_self, if_true]
    by_cases hready : (c.ports dst).ready = true
    · rw [if_pos hready]
      rw [if_neg (Nat.not_lt.2 (hfits hready))] at hdest
      exact h.write hready hok now hdest
    · rw [if_neg hready]
      exact h.writeEarly (by simpa using hready) hok now hdata hdest
  · -- The destination is written to itself: it was created for output.
    obtain ⟨_, hready, _, hdir⟩ := hw
    rw [hdst] at hready hdir
    have hnote : c.note src dst (.write partition now id (some data) len) .ok = c := by
      simp only [Channel.note, hdst, hch.ne.symm, and_false, if_false]
    obtain ⟨hdir', hready'⟩ := afterWrite_frame pcfg now c.ports (uint id) data (uint len) dst
    rw [hnote]
    refine ⟨hok, fun hnot => ?_, fun hout => ?_, fun hout => ?_⟩
    · rw [hready', hready] at hnot
      cases hnot
    · exact absurd (hdir'.trans hdir) hout
    · exact absurd (hdir'.trans hdir) hout

theorem Channel.note_of_ne {ret : PokRet}
    (h : ret = .ok → ∃ partition now id data, e = .read partition now id data) :
    c.note src dst e ret = c := by
  cases e with
  | create partition name size core period => rfl
  | read partition now id data => rfl
  | write partition now id data len =>
      cases data with
      | none => rfl
      | some data =>
          have hne : ret ≠ .ok := by
            intro hret
            obtain ⟨_, _, _, _, he⟩ := h hret
            cases he
          simp [Channel.note, hne]

/-- **A request on the channel keeps the invariant.** -/
theorem channelStep_inv (hpcfg : pcfg.Ok) (hch : IsChannel pcfg src dst) (h : ChannelInv dst c)
    (hon : OnChannel src dst c e) (hs : channelStep pcfg src dst c e = .ok c') :
    ChannelInv dst c' := by
  obtain ⟨ret, ports, hhandle, rfl⟩ := channelStep_eq_ok hs
  have hok := handlePort_ok hpcfg h.ports hhandle
  rcases handlePort_cases hpcfg h.ports hhandle with
    ⟨gid, index, size, partition, direction, period, hfresh, rfl, ⟨_, _, _, rfl⟩, rfl⟩ |
      ⟨partition, now, id, data, len, rfl, hw, rfl, _, rfl⟩ | ⟨rfl, hread⟩
  · by_cases hgid : gid = dst
    · subst hgid
      refine h.create hfresh hok ?_ ?_ <;> rw [Function.update_self] <;> rfl
    · exact h.congr hok (Function.update_of_ne (Ne.symm hgid) _ _)
  · exact h.afterWrite hch hon hw hok
  · rw [Channel.note_of_ne hread]
    exact h

theorem IsChannel.addressable (hch : IsChannel pcfg src dst) (hpcfg : pcfg.Ok) {id : Int32}
    (hid : uint id = src ∨ uint id = dst) (partition : Nat) : Addressable pcfg partition id := by
  have hlt : uint id < pcfg.nbPorts := by
    rcases hid with hid | hid
    · rw [hid]
      exact hch.src_lt
    · rw [hid]
      exact hch.dst_lt
  have hbound := hpcfg.nbPorts_lt
  have hint : id.toInt = uint id := toInt_of_uint_lt (by omega)
  refine Or.inr ⟨?_, fun _ => by omega⟩
  rw [hpcfg.uint8_eq (by omega) (by omega)]
  exact Nat.ne_of_lt hlt

/-- **No request on the channel fails to return.** -/
theorem channelStep_progress (hpcfg : pcfg.Ok) (hch : IsChannel pcfg src dst)
    (h : ChannelInv dst c) (hon : OnChannel src dst c e) :
    ∃ c', channelStep pcfg src dst c e = .ok c' := by
  obtain ⟨ret, ports, hhandle⟩ : ∃ ret ports, handlePort pcfg c.ports e = .ok (ret, ports) := by
    cases e with
    | create partition name size core period =>
        rcases samplingCreate_cases hpcfg partition c.ports name size core period with
          ⟨_, _, _, _, heq⟩ | ⟨_, _, heq⟩
        · exact ⟨_, _, heq⟩
        · exact ⟨_, _, heq⟩
    | write partition now id data len =>
        cases data with
        | none => exact ⟨_, _, rfl⟩
        | some data =>
            exact (writeHandler_returns_iff hpcfg now data h.ports).2
              ⟨hch.addressable hpcfg hon.1 partition, fun _ => Or.inr hon.2.1⟩
    | read partition now id data =>
        obtain ⟨result, heq⟩ : ∃ result,
            procPortSamplingReadHandler pcfg partition now c.ports id data = .ok result := by
          cases data with
          | none => exact ⟨_, rfl⟩
          | some data =>
              exact (readHandler_returns_iff hpcfg now data h.ports).2
                (hch.addressable hpcfg hon partition)
        exact ⟨result.ret, c.ports, bind_eq_ok_iff.2 ⟨result, heq, rfl⟩⟩
  exact ⟨_, bind_eq_ok_iff.2 ⟨(ret, ports), hhandle, rfl⟩⟩

/-! ## Reads -/

theorem delivered_self_iff {message buffer : List UInt8} :
    Delivered message buffer buffer ↔ message <+: buffer := by
  rw [Delivered, List.prefix_iff_eq_append]
  exact eq_comm

/-- What `ReadCorrect` asks of a read that is not refused. -/
theorem readCorrect_of_readable (h : ChannelInv dst c)
    (hin : (c.ports dst).direction = some .directionIn) (buffer : List UInt8) :
    let ret := if (c.ports dst).empty then PokRet.empty else .ok
    ((ret = .ok → ∃ message, (c.early ++ c.sent).getLast? = some message ∧
        Delivered message buffer buffer) ∧ (ret = .empty ↔ c.sent = [])) ↔
      (∀ message ∈ c.sent.getLast?, message <+: buffer) ∧ (c.sent = [] → [] ∉ c.early) := by
  have hiff := h.empty_iff (by simp [hin])
  cases hempty : (c.ports dst).empty with
  | true =>
      obtain ⟨hnil, hearly⟩ : c.sent = [] ∧ [] ∉ c.early := by simpa [hempty] using hiff
      simp [hnil, hearly]
  | false =>
      rw [hempty] at hiff
      cases hlast : c.sent.getLast? with
      | none =>
          -- Only a write of no bytes, before the creation, can have cleared the flag.
          have hnil : c.sent = [] := List.getLast?_eq_none_iff.1 hlast
          have hearly : [] ∈ c.early := by simpa [hnil] using hiff
          simp [hnil, hearly]
      | some message =>
          have hne : c.sent ≠ [] := by
            intro hnil
            simp [hnil] at hlast
          have hall : (c.early ++ c.sent).getLast? = some message := by
            rw [List.getLast?_append, hlast]
            rfl
          simp [hall, hne, delivered_self_iff]

/-- **A read is right** if and only if it finds the message in its buffer already, or there is none
and the flag `empty` says so. -/
theorem readCorrect_iff (hpcfg : pcfg.Ok) (h : ChannelInv dst c) (e : PortEvent) :
    ReadCorrect pcfg dst c e ↔ ReadHolds pcfg dst c e := by
  cases e with
  | create partition name size core period => exact Iff.rfl
  | write partition now id data len => exact Iff.rfl
  | read partition now id data =>
      cases data with
      | none => exact Iff.rfl
      | some buffer =>
          by_cases hr : Readable pcfg partition c.ports id
          · obtain ⟨len, valid, hread⟩ := readHandler_of_readable hpcfg now buffer h.ports hr
            constructor
            · intro hcorrect hid _
              obtain ⟨hok, hempty⟩ := hcorrect hid _ hread
              subst hid
              exact (readCorrect_of_readable h hr.2.2 buffer).1 ⟨hok, hempty hr⟩
            · intro hholds hid result hresult
              subst hid
              obtain ⟨hok, hempty⟩ := (readCorrect_of_readable h hr.2.2 buffer).2 (hholds rfl hr)
              rw [hread] at hresult
              cases hresult
              exact ⟨hok, fun _ => hempty⟩
          · -- A read that is refused returns neither code.
            refine ⟨fun _ _ hr' => absurd hr' hr, fun _ _ result hresult => ?_⟩
            refine ⟨fun hok => ?_, fun hr' => absurd hr' hr⟩
            by_cases haddr : Addressable pcfg partition id
            · obtain ⟨err, herr, hread⟩ := readHandler_refuses hpcfg now buffer hr haddr
              rw [hread] at hresult
              cases hresult
              exact absurd hok herr.1
            · rw [readHandler_faults hpcfg now buffer haddr] at hresult
              cases hresult

end Step

/-- **The sampling channel.** In every run of requests on a channel, all reads are right if and only
if each of them finds the last message in its buffer already, and, where no message was sent since
the destination was created, none of no bytes was sent before. Every request on the channel returns,
so that every sequence of them is such a run. -/
theorem sampling_channel_iff {pcfg : PortConfig} (hpcfg : pcfg.Ok) {src dst : Nat}
    (hch : IsChannel pcfg src dst) {evs : List PortEvent} {c : Channel}
    (h : Run (channelStep pcfg src dst) (OnChannel src dst) .start evs c) :
    (Steps (channelStep pcfg src dst) (fun c e _ => ReadCorrect pcfg dst c e) evs .start ↔
      Steps (channelStep pcfg src dst) (fun c e _ => ReadHolds pcfg dst c e) evs .start) ∧
    ∀ e, OnChannel src dst c e → ∃ c', channelStep pcfg src dst c e = .ok c' := by
  have hstep : ∀ c e c', ChannelInv dst c → OnChannel src dst c e →
      channelStep pcfg src dst c e = .ok c' → ChannelInv dst c' :=
    fun c e c' hinv hon hs => channelStep_inv hpcfg hch hinv hon hs
  constructor
  · exact h.steps_congr (I := ChannelInv dst) (channelInv_start dst)
      (fun c e c' hinv hon hs _ => hstep c e c' hinv hon hs)
      fun c e _ hinv _ _ => readCorrect_iff hpcfg hinv e
  · intro e hon
    exact channelStep_progress hpcfg hch (h.invariant (channelInv_start dst) hstep) hon

theorem deployedPorts_isChannel : IsChannel deployedPorts 0 1 := by
  refine ⟨?_, ?_, ?_, ?_⟩ <;> decide

/-- Both ports created, three bytes sent, and read into a buffer. -/
def sendAndRead (buffer : List UInt8) : List PortEvent :=
  [.create 0 "dataout" 16 2 100, .create 1 "datain" 16 1 100, .write 0 5 0 (some [1, 2, 3]) 3,
    .read 1 6 1 (some buffer)]

/-- In the deployed configuration, a read into a buffer that holds the message. -/
theorem sampling_channel_iff_deployed :
    Steps (channelStep deployedPorts 0 1) (fun c e _ => ReadCorrect deployedPorts 1 c e)
      (sendAndRead [1, 2, 3, 0]) .start := by
  obtain ⟨c, hrun, _⟩ : ∃ c, Run (channelStep deployedPorts 0 1)
      (fun c e => OnChannel 0 1 c e ∧ ReadHolds deployedPorts 1 c e) .start
      (sendAndRead [1, 2, 3, 0]) c ∧ c.sent = [[1, 2, 3]] := by
    apply Run.exists_of_exec
    decide +kernel
  exact (sampling_channel_iff deployedPorts_ok deployedPorts_isChannel
    (hrun.mono fun _ _ h => h.1)).1.2 (hrun.steps fun _ _ _ h _ => h.2)

/-- A read of port 1 by partition 1 at tick 6, by execution. -/
def readResult (c : Channel) (buffer : List UInt8) : Option ReadResult :=
  (procPortSamplingReadHandler deployedPorts 1 6 c.ports 1 (some buffer)).toOption

theorem read_of_readResult {c : Channel} {buffer : List UInt8} {result : ReadResult}
    (h : readResult c buffer = some result) :
    procPortSamplingReadHandler deployedPorts 1 6 c.ports 1 (some buffer) = .ok result := by
  rw [readResult] at h
  cases hread : procPortSamplingReadHandler deployedPorts 1 6 c.ports 1 (some buffer) with
  | error f =>
      rw [hread] at h
      cases h
  | ok r =>
      rw [hread] at h
      cases h
      rfl

/-- In the deployed configuration, a read after three bytes were sent returns `POK_ERRNO_OK` with
the buffer as it was; and so does one after no message was sent at all since the destination was
created, but one of no bytes before. -/
theorem sampling_channel_fails :
    (∃ c result, Run (channelStep deployedPorts 0 1) (OnChannel 0 1) .start
        [.create 0 "dataout" 16 2 100, .create 1 "datain" 16 1 100,
          .write 0 5 0 (some [1, 2, 3]) 3] c ∧
      procPortSamplingReadHandler deployedPorts 1 6 c.ports 1 (some [0, 0, 0]) = .ok result ∧
      result.ret = .ok ∧ result.buffer = [0, 0, 0] ∧
      ¬ReadCorrect deployedPorts 1 c (.read 1 6 1 (some [0, 0, 0]))) ∧
    (∃ c result, Run (channelStep deployedPorts 0 1) (OnChannel 0 1) .start
        [.create 0 "dataout" 16 2 100, .write 0 5 0 (some []) 0,
          .create 1 "datain" 16 1 100] c ∧
      procPortSamplingReadHandler deployedPorts 1 6 c.ports 1 (some []) = .ok result ∧
      result.ret = .ok ∧ c.sent = [] ∧
      ¬ReadCorrect deployedPorts 1 c (.read 1 6 1 (some []))) := by
  constructor
  · obtain ⟨c, hrun, hearly, hsent, hread⟩ : ∃ c, Run (channelStep deployedPorts 0 1)
        (OnChannel 0 1) .start [.create 0 "dataout" 16 2 100, .create 1 "datain" 16 1 100,
          .write 0 5 0 (some [1, 2, 3]) 3] c ∧ c.early = [] ∧ c.sent = [[1, 2, 3]] ∧
        readResult c [0, 0, 0] = some ⟨.ok, some 16, some true, [0, 0, 0]⟩ := by
      apply Run.exists_of_exec
      decide +kernel
    have hok := read_of_readResult hread
    refine ⟨c, _, hrun, hok, rfl, rfl, fun hcorrect => ?_⟩
    obtain ⟨message, hlast, hdelivered⟩ := (hcorrect rfl _ hok).1 rfl
    rw [hearly, hsent] at hlast
    obtain rfl : [1, 2, 3] = message := Option.some.inj hlast
    exact absurd (delivered_self_iff.1 hdelivered) (by decide)
  · obtain ⟨c, hrun, hsent, hreadable, hread⟩ : ∃ c, Run (channelStep deployedPorts 0 1)
        (OnChannel 0 1) .start [.create 0 "dataout" 16 2 100, .write 0 5 0 (some []) 0,
          .create 1 "datain" 16 1 100] c ∧ c.sent = [] ∧ Readable deployedPorts 1 c.ports 1 ∧
        readResult c [] = some ⟨.ok, some 16, some true, []⟩ := by
      apply Run.exists_of_exec
      decide +kernel
    have hok := read_of_readResult hread
    refine ⟨c, _, hrun, hok, rfl, hsent, fun hcorrect => ?_⟩
    have hempty := ((hcorrect rfl _ hok).2 hreadable).2 hsent
    cases hempty

end PartitionSeL4
