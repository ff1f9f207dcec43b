import PartitionSeL4.Refos.Stream

/-!
# Both ends of a ring in the process server

A dataspace may have a write-only and a read-only `rb_buffer` on it. Each side has copies of both
indices: its own, which it publishes in the header, and one of the other's, which it reads from the
header again when it believes that there is too little room or too little data.

`rb_read` ends with a line of `rb_write`: it moves its copy of the *end* index on by the length it
was asked for. After a read that asked for more than there was, the copy promises data that nobody
wrote, and the next read returns it if it asks for no more. `server_ring_iff` says that there is
nothing else: in a ring of up to `2 ^ 19` pages, all reads of a run return what they should if and
only if every read asks for no more than there is, or for more than the reader's copy of the end
promises.
-/

namespace PartitionSeL4.Refos

open Lib

/-! ## `rb_read` -/

/-- `contentSize` of `rb_read`, in 32 bits. -/
def rbContentSize (buf : RbBuffer) : Nat :=
  u32 (u32 (buf.size + 2 ^ 32 - 1) + 2 ^ 32 - rbRemainingSize buf)

/-- The first part of `rb_read`: a fresh end index if the copy promises too little. -/
def rbFindContent (frames : Nat → Bool) (buf : RbBuffer) (ds : RamDspace) (len : Nat) :
    Err × RbBuffer × Nat :=
  if rbContentSize buf < len then
    match rbUpdateLocalEnd frames 0 buf ds with
    | (error, buf, _, k) => (error, buf, k)
  else (.success, buf, 0)

/-- The second part of `rb_read`, for a function that reads from the dataspace: copy the data out,
in two pieces if it reaches the end. The bytes are those in `dest`; their number is `*bytesRead`. -/
def rbCopyOut (read : Nat → Nat → RamDspace → Nat → Err × List UInt8 × Nat) (k : Nat)
    (buf : RbBuffer) (ds : RamDspace) (len : Nat) : Err × List UInt8 × Nat :=
  if buf.localStart ≤ buf.localEnd then
    read k (min (buf.localEnd - buf.localStart) len) ds
      (u32 (buf.localStart + ringbufferMetadataSize))
  else
    let bytesRead := min (u32 (buf.size + 2 ^ 32 - buf.localStart)) len
    match read k bytesRead ds (u32 (buf.localStart + ringbufferMetadataSize)) with
    | (.success, dest, k) =>
        let bytesRemain := min (len - bytesRead) buf.localEnd
        if 0 < bytesRemain then
          match read k bytesRemain ds ringbufferMetadataSize with
          | (error, rest, k) => (error, dest ++ rest, k)
        else (.success, dest, k)
    | (error, dest, k) => (error, dest, k)

/-- The last part of `rb_read`, for functions that read from the dataspace and that publish the
start index: copy the data out and move both indices. The copy of the end index is moved on by
`len`. -/
def rbTakeOut (read : Nat → Nat → RamDspace → Nat → Err × List UInt8 × Nat)
    (updateLocalStart : Nat → RbBuffer → RamDspace → Err × RbBuffer × RamDspace × Nat) (k : Nat)
    (buf : RbBuffer) (ds : RamDspace) (len : Nat) : Err × List UInt8 × RbBuffer × RamDspace :=
  match rbCopyOut read k buf ds len with
  | (.success, dest, k) =>
      let buf :=
        { buf with
          localEnd := u32 (buf.localEnd + len) % buf.size
          localStart := u32 (buf.localStart + dest.length) % buf.size }
      match updateLocalStart k buf ds with
      | (error, buf, ds, _) => (error, dest, buf, ds)
  | (error, dest, _) => (error, dest, buf, ds)

/-- `rb_read`: the error, the bytes copied to `dest`, the record and the dataspace. -/
def rbRead (frames : Nat → Bool) (buf : RbBuffer) (ds : RamDspace) (len : Nat) :
    Err × List UInt8 × RbBuffer × RamDspace :=
  if buf.mode ≠ .readonly then (.accessDenied, [], buf, ds)
  else
    match rbFindContent frames buf ds len with
    | (.success, buf, k) =>
        rbTakeOut (ramDspaceRead frames) (rbUpdateLocalStart frames) k buf ds len
    | (error, buf, _) => (error, [], buf, ds)

/-! ## The bytes of a ring -/

/-- The `n` bytes of the ring from an index on. -/
def ringBytes (ds : RamDspace) (size start n : Nat) : List UInt8 :=
  (List.range n).map fun j => ds.bytes (ringbufferMetadataSize + (start + j) % size)

section Bytes

variable (ds : RamDspace) {size start : Nat}

@[simp] theorem length_ringBytes (n : Nat) : (ringBytes ds size start n).length = n := by
  simp [ringBytes]

theorem ringBytes_add (n n' : Nat) :
    ringBytes ds size start (n + n') =
      ringBytes ds size start n ++ ringBytes ds size (start + n) n' := by
  simp only [ringBytes, List.range_add, List.map_append, List.map_map]
  congr 1
  refine List.map_congr_left fun j _ => ?_
  rw [Function.comp_apply, Nat.add_assoc]

theorem ringBytes_of_le {n : Nat} (h : start + n ≤ size) :
    ringBytes ds size start n = slice ds.bytes (ringbufferMetadataSize + start) n := by
  refine List.map_congr_left fun j hj => ?_
  have hj' := List.mem_range.1 hj
  rw [Nat.mod_eq_of_lt (by omega), Nat.add_assoc]

theorem ringBytes_wrapped {n : Nat} (h : n ≤ size) :
    ringBytes ds size size n = slice ds.bytes ringbufferMetadataSize n := by
  refine List.map_congr_left fun j hj => ?_
  have hj' := List.mem_range.1 hj
  rw [Nat.add_mod_left, Nat.mod_eq_of_lt (by omega)]

/-- What is copied out between two indices, whatever lies there. -/
theorem shareBytes_ring {stop : Nat} (hsize : size < 2 ^ 32) (hstart : start < size)
    (hstop : stop < size) (len : Nat) :
    shareBytes ds size start stop len =
      ringBytes ds size start (min len (ringUsed size start stop)) := by
  have hmeta : shareMetadataSize = ringbufferMetadataSize := rfl
  rw [shareBytes, ringUsed, hmeta]
  split_ifs with hle
  · rw [ringBytes_of_le ds (by omega), Nat.min_comm]
  · rw [u32_sub (by omega) hsize]
    simp only
    by_cases hend : len ≤ size - start
    · -- nothing behind the end
      rw [Nat.min_eq_right hend, Nat.sub_self, Nat.zero_min, slice_zero, List.append_nil,
        Nat.min_eq_left (by omega), ringBytes_of_le ds (by omega)]
    · rw [Nat.min_eq_left (by omega),
        show min len (stop + size - start) =
          size - start + min (len - (size - start)) stop by omega,
        ringBytes_add, ringBytes_of_le ds (by omega), show start + (size - start) = size by omega,
        ringBytes_wrapped ds (by omega)]

/-- The bytes not read are those of the ring. -/
theorem RingHolds.ringBytes_eq {ds : RamDspace} {stop : Nat} {unread : List UInt8}
    (h : RingHolds ds size start stop unread) {n : Nat} (hn : n ≤ unread.length) :
    ringBytes ds size start n = unread.take n := by
  refine List.ext_getElem (by simp [hn]) fun j hj hj' => ?_
  rw [length_ringBytes] at hj
  rw [List.getElem_take, ← h.stored j (by omega)]
  simp [ringBytes]

end Bytes

/-! ## The reader -/

/-- A read-only ring over the whole of its dataspace, with both indices in the data area. -/
structure ReaderOk (buf : RbBuffer) (ds : RamDspace) : Prop where
  mode : buf.mode = .readonly
  size : buf.size + ringbufferMetadataSize = ds.npages * pageSize
  total : ds.npages * pageSize ≤ 2 ^ 31
  localStart : buf.localStart < buf.size
  localEnd : buf.localEnd < buf.size

/-- The end index that `rb_read` goes by: its copy, or the word in the header if the copy promises
too little. -/
def freshEnd (buf : RbBuffer) (ds : RamDspace) (len : Nat) : Nat :=
  if rbContentSize buf < len then refosShareGetEnd ds else buf.localEnd

section Reader

variable {frames : Nat → Bool} {buf : RbBuffer} {ds : RamDspace}

theorem ReaderOk.size_lt (h : ReaderOk buf ds) : buf.size < 2 ^ 31 := by
  have hsize := h.size
  have htotal := h.total
  have hmeta : ringbufferMetadataSize = 8 := rfl
  omega

/-- The content that the copies promise. -/
theorem ReaderOk.contentSize_eq (h : ReaderOk buf ds) :
    rbContentSize buf = ringUsed buf.size buf.localStart buf.localEnd := by
  have hsize := h.size_lt
  have hstart := h.localStart
  have hend := h.localEnd
  have hused := ringUsed_lt hstart hend
  have hpages : 0 < ds.npages := by
    by_contra hzero
    have hsize' := h.size
    rw [show ds.npages = 0 by omega, Nat.zero_mul] at hsize'
    omega
  have hring : RingOk { buf with mode := .writeonly } ds :=
    ⟨rfl, h.size, hpages, h.total, hend, show buf.localStart < 2 ^ 32 by omega⟩
  have hroom : rbRemainingSize buf =
      buf.size - 1 - ringUsed buf.size buf.localStart buf.localEnd := hring.remaining_eq hstart
  have hone : u32 (buf.size + 2 ^ 32 - 1) = buf.size - 1 := u32_sub (by omega) (by omega)
  rw [rbContentSize, hone, u32_sub (by omega) (by omega)]
  omega

theorem ramDspaceRead_all (hframes : ∀ j, frames j = true) (k : Nat) {offset n : Nat}
    (hfit : offset + n ≤ ds.npages * pageSize) (htotal : ds.npages * pageSize ≤ 2 ^ 31) :
    ∃ k', ramDspaceRead frames k n ds offset = (.success, slice ds.bytes offset n, k') := by
  have hsize : ds.npages * pageSize < 2 ^ 32 - pageSize := by
    simp only [pageSize] at *
    omega
  obtain ⟨k', _, hdone | ⟨_, j, _, _, hframe⟩⟩ := ramDspaceRead_spec frames k ds hfit hsize
  · exact ⟨k', hdone⟩
  · rw [hframes j] at hframe
    cases hframe

theorem rbFindContent_eq (h : ReaderOk buf ds) (hframes : ∀ j, frames j = true) (len : Nat) :
    ∃ k, rbFindContent frames buf ds len =
      (.success, { buf with localEnd := freshEnd buf ds len }, k) := by
  rw [rbFindContent, freshEnd]
  split_ifs with hless
  · have hmode : ¬buf.mode = .writeonly := by
      rw [h.mode]
      decide
    have hfit : 4 + 4 ≤ ds.npages * pageSize := by
      have hsize := h.size
      have hmeta : ringbufferMetadataSize = 8 := rfl
      omega
    obtain ⟨k, hread⟩ := ramDspaceRead_all hframes 0 hfit h.total
    refine ⟨k, ?_⟩
    rw [rbUpdateLocalEnd, if_neg hmode, hread]
    rfl
  · exact ⟨0, rfl⟩

/-- The bytes copied out are those between the two indices. -/
theorem rbCopyOut_eq (h : ReaderOk buf ds)
    {read : Nat → Nat → RamDspace → Nat → Err × List UInt8 × Nat}
    (hread : ∀ k offset n, offset + n ≤ ds.npages * pageSize →
      ∃ k', read k n ds offset = (.success, slice ds.bytes offset n, k')) (k len : Nat) :
    ∃ k', rbCopyOut read k buf ds len =
      (.success, shareBytes ds buf.size buf.localStart buf.localEnd len, k') := by
  have hsize := h.size
  have hlt := h.size_lt
  have hstart := h.localStart
  have hend := h.localEnd
  have hmeta : ringbufferMetadataSize = 8 := rfl
  have hmeta' : shareMetadataSize = 8 := rfl
  have hoffset : u32 (buf.localStart + ringbufferMetadataSize) =
      shareMetadataSize + buf.localStart := by
    rw [u32_of_lt (by omega)]
    omega
  rw [rbCopyOut, shareBytes, hoffset]
  split_ifs with hle
  · exact hread k _ _ (by omega)
  · rw [u32_sub (by omega) (by omega)]
    obtain ⟨k₁, hfirst⟩ := hread k (shareMetadataSize + buf.localStart)
      (min (buf.size - buf.localStart) len) (by omega)
    simp only [hfirst]
    split_ifs with hmore
    · obtain ⟨k₂, hsecond⟩ := hread k₁ ringbufferMetadataSize
        (min (len - min (buf.size - buf.localStart) len) buf.localEnd) (by omega)
      rw [hsecond]
      exact ⟨k₂, rfl⟩
    · refine ⟨k₁, ?_⟩
      rw [Nat.eq_zero_of_not_pos hmore, slice_zero, List.append_nil]

theorem rbUpdateLocalStart_reader (h : ReaderOk buf ds) (hframes : ∀ j, frames j = true) (k : Nat) :
    ∃ k', rbUpdateLocalStart frames k buf ds =
      (.success, buf, ds.write 0 (leWord buf.localStart), k') := by
  have hsize := h.size
  have htotal := h.total
  have hmeta : ringbufferMetadataSize = 8 := rfl
  have hmode : ¬buf.mode = .writeonly := by
    rw [h.mode]
    decide
  have hlimit : ds.npages * pageSize < 2 ^ 32 - pageSize := by
    simp only [pageSize] at *
    omega
  obtain ⟨k', _, _, hdone | ⟨_, j, _, _, hframe, _⟩⟩ := ramDspaceWrite_spec frames k
    (leWord buf.localStart) ds 0 (by rw [length_leWord]; omega) hlimit
  · refine ⟨k', ?_⟩
    rw [rbUpdateLocalStart, if_neg hmode, hdone]
  · rw [hframes j] at hframe
    cases hframe

/-- The last part of `rb_read`, where nothing fails. -/
theorem rbTakeOut_eq {read : Nat → Nat → RamDspace → Nat → Err × List UInt8 × Nat}
    {updateLocalStart : Nat → RbBuffer → RamDspace → Err × RbBuffer × RamDspace × Nat}
    {k k' len : Nat} {dest : List UInt8} {ds' : RamDspace} {buf' : RbBuffer}
    (hcopy : rbCopyOut read k buf ds len = (.success, dest, k'))
    (hbuf' : buf' = { buf with
      localEnd := u32 (buf.localEnd + len) % buf.size
      localStart := u32 (buf.localStart + dest.length) % buf.size })
    (hupdate : ∃ k'', updateLocalStart k' buf' ds = (.success, buf', ds', k'')) :
    rbTakeOut read updateLocalStart k buf ds len = (.success, dest, buf', ds') := by
  obtain ⟨k'', hupdate⟩ := hupdate
  subst hbuf'
  simp only [rbTakeOut, hcopy, hupdate]

/-- **`rb_read` on a ring**, where every page access succeeds. -/
theorem rbRead_eq (h : ReaderOk buf ds) (hframes : ∀ j, frames j = true) {len : Nat}
    (hfresh : freshEnd buf ds len < buf.size) {n : Nat}
    (hn : n = min len (ringUsed buf.size buf.localStart (freshEnd buf ds len))) :
    rbRead frames buf ds len =
      (.success, ringBytes ds buf.size buf.localStart n,
        { buf with
          localEnd := u32 (freshEnd buf ds len + len) % buf.size
          localStart := (buf.localStart + n) % buf.size },
        ds.write 0 (leWord ((buf.localStart + n) % buf.size))) := by
  have hsize := h.size_lt
  have hstart := h.localStart
  have hpos : 0 < buf.size := by omega
  have hused := ringUsed_lt hstart hfresh
  obtain ⟨k, hfind⟩ := rbFindContent_eq h hframes len
  have hbuf : ReaderOk { buf with localEnd := freshEnd buf ds len } ds :=
    ⟨h.mode, h.size, h.total, hstart, hfresh⟩
  obtain ⟨k', hcopy⟩ := rbCopyOut_eq hbuf
    (fun k offset n hfit => ramDspaceRead_all hframes k hfit h.total) k len
  have hbytes : shareBytes ds buf.size buf.localStart (freshEnd buf ds len) len =
      ringBytes ds buf.size buf.localStart n := by
    rw [hn]
    exact shareBytes_ring ds (by omega) hstart hfresh len
  rw [hbytes] at hcopy
  have hmoved : u32 (buf.localStart + (ringBytes ds buf.size buf.localStart n).length) =
      buf.localStart + n := by
    rw [length_ringBytes, u32_of_lt (by omega)]
  have hnext : ReaderOk
      { buf with
        localEnd := u32 (freshEnd buf ds len + len) % buf.size
        localStart := (buf.localStart + n) % buf.size } ds :=
    ⟨h.mode, h.size, h.total, Nat.mod_lt _ hpos, Nat.mod_lt _ hpos⟩
  have hmode : ¬buf.mode ≠ .readonly := not_not.2 h.mode
  rw [rbRead, if_neg hmode, hfind]
  refine rbTakeOut_eq hcopy ?_ (rbUpdateLocalStart_reader hnext hframes k')
  simp only [hmoved]

end Reader

/-! ## Both ends -/

/-- A dataspace with a write-only and a read-only ring on it, with the bytes accepted and the bytes
read so far. -/
structure ServerRing where
  writer : RbBuffer
  reader : RbBuffer
  ds : RamDspace
  accepted : List UInt8
  delivered : List UInt8

/-- A zeroed dataspace with two new rings on it. -/
def newServerRing (npages : Nat) : ServerRing where
  writer := rbCreate 1 { npages := npages, bytes := fun _ => 0 } .writeonly
  reader := rbCreate 1 { npages := npages, bytes := fun _ => 0 } .readonly
  ds := { npages := npages, bytes := fun _ => 0 }
  accepted := []
  delivered := []

/-- The calls; `frames` says which page accesses of the call succeed. -/
inductive ServerRingEvent where
  | write (frames : Nat → Bool) (str : List UInt8)
  | read (frames : Nat → Bool) (len : Nat)

/-- The effect of one call. -/
def serverRingStep (s : ServerRing) : ServerRingEvent → Except Failure ServerRing
  | .write frames str => do
      let (error, writer, ds) ← rbWrite frames s.writer s.ds str
      return { s with
        writer := writer
        ds := ds
        accepted := if error = .success then s.accepted ++ str else s.accepted }
  | .read frames len =>
      let (error, dest, reader, ds) := rbRead frames s.reader s.ds len
      .ok { s with
        reader := reader
        ds := ds
        delivered := if error = .success then s.delivered ++ dest else s.delivered }

/-- The bytes accepted and not yet read. -/
def ServerRing.unread (s : ServerRing) : List UInt8 := s.accepted.drop s.delivered.length

/-- Lengths are 32-bit words; no page access of an `rb_write` fails after the first one that copies
data, and none of an `rb_read`. -/
def ServerRingArgs (s : ServerRing) : ServerRingEvent → Prop
  | .write frames str =>
      str.length < 2 ^ 32 ∧ ∀ j, firstAccess s.writer str.length < j → frames j = true
  | .read frames len => len < 2 ^ 32 ∧ ∀ j, frames j = true

/-- What is read is a prefix of what was accepted, and a read returns as much as there is. -/
def ServerRingRight (s : ServerRing) (e : ServerRingEvent) (t : ServerRing) : Prop :=
  t.delivered <+: t.accepted ∧
    match e with
    | .write _ _ => True
    | .read frames len =>
        (rbRead frames s.reader s.ds len).1 = .success ∧
          (rbRead frames s.reader s.ds len).2.1.length = min len s.unread.length

/-- When a call does this: a read asks for no more than there is, or for more than the reader's copy
of the end index promises. -/
def AsksRight (s : ServerRing) : ServerRingEvent → Prop
  | .write _ _ => True
  | .read _ len => len ≤ s.unread.length ∨ rbContentSize s.reader < len

instance (s : ServerRing) (e : ServerRingEvent) : Decidable (AsksRight s e) :=
  match e with
  | .write _ _ => .isTrue trivial
  | .read _ _ => inferInstanceAs (Decidable (_ ∨ _))

/-- The ring as the stream between a writer and a reader. -/
def ServerRing.stream (s : ServerRing) : StreamState where
  buf := s.writer
  ds := s.ds
  start := s.reader.localStart
  accepted := s.accepted
  delivered := s.delivered

/-- The invariant of the two ends. -/
structure ServerRingInv (s : ServerRing) : Prop where
  stream : StreamInv s.stream
  reader : ReaderOk s.reader s.ds
  size : s.reader.size = s.writer.size

section Inv

variable {s : ServerRing}

theorem newServerRing_inv {npages : Nat} (hpos : 0 < npages) (hle : npages ≤ 2 ^ 19) :
    ServerRingInv (newServerRing npages) := by
  have hpage : pageSize = 4096 := rfl
  have htotal : npages * pageSize ≤ 2 ^ 31 := by
    rw [hpage]
    omega
  have hring : RingOk (newServerRing npages).writer (newServerRing npages).ds :=
    RingOk.create 1 hpos htotal
  have hlt := hring.localEnd
  have hholds := RingHolds.init (newServerRing npages).ds hring.size_lt hlt fun _ _ => rfl
  refine ⟨⟨List.prefix_refl [], ?_⟩, ⟨rfl, hring.size, htotal, hlt, hlt⟩, rfl⟩
  exact ⟨hring, hlt, hlt, hlt, hholds.stop_eq, hholds.stored, hholds.startWord_eq,
    hholds.endWord_eq, Nat.zero_le _⟩

/-- `rb_write` changes neither the size of the ring nor that of the dataspace. -/
theorem RbResult.sizes {frames : Nat → Bool} {buf buf' : RbBuffer} {ds ds' : RamDspace}
    {str : List UInt8} {error : Err} (h : RbResult frames buf ds str error buf' ds') :
    buf'.size = buf.size ∧ ds'.npages = ds.npages := by
  cases h with
  | noHeader _ _ => exact ⟨rfl, rfl⟩
  | full _ hbuf _ => exact ⟨by rw [hbuf], rfl⟩
  | forged _ hbuf _ _ => exact ⟨by rw [hbuf], rfl⟩
  | copyFailed _ _ _ hbuf hds _ _ _ => exact ⟨by rw [hbuf], hds.npages_eq⟩
  | endFailed _ _ hbuf _ _ _ _ _ => exact ⟨by rw [hbuf], rfl⟩
  | stored _ hbuf _ _ => exact ⟨by rw [hbuf], rfl⟩

theorem ServerRingInv.write (h : ServerRingInv s) {frames : Nat → Bool} {str : List UInt8}
    (hok : ServerRingArgs s (.write frames str)) {t : ServerRing}
    (hstep : serverRingStep s (.write frames str) = .ok t) : ServerRingInv t := by
  obtain ⟨error, writer, ds, hwrite, _, hinv⟩ := h.stream.write (s := s.stream) hok
  obtain ⟨hsize, hnpages⟩ : writer.size = s.writer.size ∧ ds.npages = s.ds.npages := by
    obtain ⟨error', writer', ds', hresult, hspec⟩ := rbWrite_result frames h.stream.holds.ring str
    rw [hwrite] at hresult
    obtain ⟨-, rfl, rfl⟩ : error = error' ∧ writer = writer' ∧ ds = ds' := by simpa using hresult
    exact hspec.sizes
  have hwrite' : rbWrite frames s.writer s.ds str = .ok (error, writer, ds) := hwrite
  simp only [serverRingStep, hwrite'] at hstep
  obtain rfl := Except.ok.inj hstep
  exact ⟨hinv, ⟨h.reader.mode, hnpages ▸ h.reader.size, hnpages ▸ h.reader.total,
    h.reader.localStart, h.reader.localEnd⟩, h.size.trans hsize.symm⟩

theorem ServerRingInv.freshEnd_lt (h : ServerRingInv s) (len : Nat) :
    freshEnd s.reader s.ds len < s.reader.size := by
  rw [freshEnd]
  split_ifs
  · have hend : refosShareGetEnd s.ds = s.writer.localEnd := h.stream.holds.endWord_eq
    rw [hend, h.size]
    exact h.stream.holds.ring.localEnd
  · exact h.reader.localEnd

/-- The number of bytes that `rb_read` returns. -/
def ServerRing.taken (s : ServerRing) (len : Nat) : Nat :=
  if rbContentSize s.reader < len then min len s.unread.length else len

/-- That number is the right one if and only if the read asks for the right one. -/
theorem taken_eq_iff (frames : Nat → Bool) (len : Nat) :
    s.taken len = min len s.unread.length ↔ AsksRight s (.read frames len) := by
  rw [ServerRing.taken]
  show _ ↔ len ≤ s.unread.length ∨ rbContentSize s.reader < len
  split_ifs with hless
  · exact ⟨fun _ => Or.inr hless, fun _ => rfl⟩
  · omega

theorem ServerRingInv.taken_eq (h : ServerRingInv s) (len : Nat) :
    s.taken len = min len
      (ringUsed s.reader.size s.reader.localStart (freshEnd s.reader s.ds len)) := by
  rw [ServerRing.taken, freshEnd]
  split_ifs with hless
  · have hend : refosShareGetEnd s.ds = s.writer.localEnd := h.stream.holds.endWord_eq
    rw [hend, h.size]
    exact congrArg (min len) h.stream.holds.ringHolds.ringUsed_eq.symm
  · have hle := Nat.not_lt.1 hless
    rw [h.reader.contentSize_eq] at hle
    exact (Nat.min_eq_left hle).symm

theorem ServerRingInv.rbRead_eq (h : ServerRingInv s) {frames : Nat → Bool}
    (hframes : ∀ j, frames j = true) (len : Nat) :
    rbRead frames s.reader s.ds len =
      (.success, ringBytes s.ds s.reader.size s.reader.localStart (s.taken len),
        { s.reader with
          localEnd := u32 (freshEnd s.reader s.ds len + len) % s.reader.size
          localStart := (s.reader.localStart + s.taken len) % s.reader.size },
        s.ds.write 0 (leWord ((s.reader.localStart + s.taken len) % s.reader.size))) :=
  Refos.rbRead_eq h.reader hframes (h.freshEnd_lt len) (h.taken_eq len)

theorem serverRingStep_read {frames : Nat → Bool} {len : Nat} {dest : List UInt8}
    {reader : RbBuffer} {ds : RamDspace}
    (hread : rbRead frames s.reader s.ds len = (.success, dest, reader, ds)) :
    serverRingStep s (.read frames len) = .ok { s with
      reader := reader
      ds := ds
      delivered := s.delivered ++ dest } := by
  rw [serverRingStep, hread]
  rfl

/-- The two ends after a read of `n` bytes that are there, whatever the reader believes about the
end index. -/
theorem ServerRingInv.taken (h : ServerRingInv s) {n localEnd : Nat} (hn : n ≤ s.unread.length)
    (hend : localEnd < s.reader.size) :
    ServerRingInv { s with
      reader := { s.reader with
        localEnd := localEnd
        localStart := (s.reader.localStart + n) % s.reader.size }
      ds := s.ds.write 0 (leWord ((s.reader.localStart + n) % s.reader.size))
      delivered := s.delivered ++ s.unread.take n } := by
  have hholds := h.stream.holds.read hn
  have haccepted : s.accepted = s.delivered ++ s.unread.take n ++ s.unread.drop n := by
    rw [List.append_assoc, List.take_append_drop]
    exact h.stream.accepted_eq
  have hpos : 0 < s.reader.size := Nat.zero_lt_of_lt h.reader.localEnd
  refine ⟨⟨⟨_, haccepted.symm⟩, ?_⟩, ⟨h.reader.mode, h.reader.size, h.reader.total,
    Nat.mod_lt _ hpos, hend⟩, h.size⟩
  rw [unread_eq haccepted]
  show Holds s.writer (s.ds.write 0 (leWord ((s.reader.localStart + n) % s.reader.size)))
    ((s.reader.localStart + n) % s.reader.size) _
  rw [h.size]
  exact hholds

theorem ServerRingInv.read (h : ServerRingInv s) {frames : Nat → Bool} {len : Nat}
    (hframes : ∀ j, frames j = true) {t : ServerRing}
    (hstep : serverRingStep s (.read frames len) = .ok t)
    (htaken : s.taken len = min len s.unread.length) : ServerRingInv t := by
  have hle : s.taken len ≤ s.unread.length := htaken ▸ Nat.min_le_right _ _
  have hread := h.rbRead_eq hframes len
  have hbytes : ringBytes s.ds s.reader.size s.reader.localStart (s.taken len) =
      s.unread.take (s.taken len) := by
    rw [h.size]
    exact h.stream.holds.ringHolds.ringBytes_eq hle
  rw [hbytes] at hread
  have heq := Except.ok.inj (hstep.symm.trans (serverRingStep_read hread))
  rw [heq]
  exact h.taken hle (Nat.mod_lt _ (Nat.zero_lt_of_lt h.reader.localEnd))

/-- A call does what it should if and only if it asks for the right number of bytes, and then it
keeps the invariant. -/
theorem ServerRingInv.step (h : ServerRingInv s) {e : ServerRingEvent} (hok : ServerRingArgs s e)
    {t : ServerRing} (hstep : serverRingStep s e = .ok t) :
    (AsksRight s e → ServerRingInv t) ∧ (ServerRingRight s e t ↔ AsksRight s e) := by
  cases e with
  | write frames str =>
      have hinv := h.write hok hstep
      exact ⟨fun _ => hinv, fun _ => trivial, fun _ => ⟨hinv.stream.isPrefix, trivial⟩⟩
  | read frames len =>
      have hinv : AsksRight s (.read frames len) → ServerRingInv t := fun hasks =>
        h.read hok.2 hstep ((taken_eq_iff frames len).2 hasks)
      have hread := h.rbRead_eq hok.2 len
      refine ⟨hinv, fun hright => ?_, fun hasks => ⟨(hinv hasks).stream.isPrefix, ?_⟩⟩
      · have hlen := hright.2.2
        rw [hread, length_ringBytes] at hlen
        exact (taken_eq_iff frames len).1 hlen
      · show (rbRead frames s.reader s.ds len).1 = .success ∧
          (rbRead frames s.reader s.ds len).2.1.length = min len s.unread.length
        rw [hread, length_ringBytes]
        exact ⟨rfl, (taken_eq_iff frames len).2 hasks⟩

theorem serverRingStep_returns (s : ServerRing) (e : ServerRingEvent) :
    ∃ t, serverRingStep s e = .ok t := by
  cases e with
  | write frames str =>
      obtain ⟨⟨error, writer, ds⟩, hwrite⟩ := rbWrite_returns frames s.writer s.ds str
      rw [serverRingStep, hwrite]
      exact ⟨_, rfl⟩
  | read frames len => exact ⟨_, rfl⟩

end Inv

/-! ## Runs -/

/-- **The ring in the server.** Take a zeroed dataspace of 1 to `2 ^ 19` pages with a write-only and
a read-only ring on it, and a run of `rb_write` and `rb_read` calls with lengths of 32 bits, where
no page access of a read fails, and none of a write after the first that copies data. After every
call the bytes read are a prefix of the bytes accepted, and every read returns the smaller of the
length asked for and the number of unread bytes, if and only if every read asks for no more than
there is or for more than the reader's copy of the end index promises. Every further call
returns. -/
theorem server_ring_iff (npages : Nat) (hpos : 0 < npages) (hle : npages ≤ 2 ^ 19)
    (evs : List ServerRingEvent) (s : ServerRing)
    (hrun : Run serverRingStep ServerRingArgs (newServerRing npages) evs s) :
    (Steps serverRingStep ServerRingRight evs (newServerRing npages) ↔
      Steps serverRingStep (fun s e _ => AsksRight s e) evs (newServerRing npages)) ∧
    ∀ e, ∃ t, serverRingStep s e = .ok t := by
  refine ⟨?_, serverRingStep_returns s⟩
  refine hrun.steps_congr (newServerRing_inv hpos hle) (fun t e u hinv hok hu hright => ?_)
    fun t e u hinv hok hu => (hinv.step hok hu).2
  obtain ⟨hkeeps, hiff⟩ := hinv.step hok hu
  exact hkeeps (hiff.1 hright)

/-- Three bytes are written and two of them read; one more is written, and the last two are read. -/
def readBehindWrites : List ServerRingEvent :=
  [.write allFrames [1, 2, 3], .read allFrames 2, .write allFrames [4], .read allFrames 2]

theorem server_ring_iff_two :
    ∃ s, Run serverRingStep ServerRingArgs (newServerRing 1) readBehindWrites s ∧
      s.delivered = [1, 2, 3, 4] ∧
      Steps serverRingStep ServerRingRight readBehindWrites (newServerRing 1) := by
  obtain ⟨s, hasks, hdelivered⟩ : ∃ s, Run serverRingStep AsksRight (newServerRing 1)
      readBehindWrites s ∧ s.delivered = [1, 2, 3, 4] := by
    apply Run.exists_of_exec
    decide +kernel
  obtain ⟨s₁, -, h₁, hrest⟩ := hasks.cons_inv
  obtain ⟨s₂, -, h₂, hrest⟩ := hrest.cons_inv
  obtain ⟨s₃, -, h₃, hrest⟩ := hrest.cons_inv
  obtain ⟨s₄, -, h₄, hnil⟩ := hrest.cons_inv
  obtain rfl := hnil.nil_inv
  have hrun : Run serverRingStep ServerRingArgs (newServerRing 1) readBehindWrites s :=
    (((Run.single ⟨by decide, fun _ _ => rfl⟩ h₁).snoc ⟨by decide, fun _ => rfl⟩ h₂).snoc
      ⟨by decide, fun _ _ => rfl⟩ h₃).snoc ⟨by decide, fun _ => rfl⟩ h₄
  exact ⟨s, hrun, hdelivered, (server_ring_iff 1 (by decide) (by decide) _ s hrun).1.2
    (hasks.steps fun _ _ _ hok _ => hok)⟩

/-- Nothing is written. A read of 10 bytes returns none, but now the reader's copy of the end index
is 10, and a read of 5 bytes returns 5 zeros. -/
theorem unwritten_bytes_read :
    ∃ s, Run serverRingStep ServerRingArgs (newServerRing 1)
        [.read allFrames 10, .read allFrames 5] s ∧
      s.accepted = [] ∧ s.delivered = [0, 0, 0, 0, 0] ∧ ¬s.delivered <+: s.accepted ∧
      ¬Steps serverRingStep ServerRingRight [.read allFrames 10, .read allFrames 5]
        (newServerRing 1) := by
  obtain ⟨s, hexec, haccepted, hdelivered⟩ : ∃ s, Run serverRingStep (fun _ _ => True)
      (newServerRing 1) [.read allFrames 10, .read allFrames 5] s ∧
      s.accepted = [] ∧ s.delivered = [0, 0, 0, 0, 0] := by
    apply Run.exists_of_exec
    decide +kernel
  obtain ⟨s₁, -, hfirst, hrest⟩ := hexec.cons_inv
  obtain ⟨s₂, -, hsecond, hnil⟩ := hrest.cons_inv
  obtain rfl := hnil.nil_inv
  have hprefix : ¬s.delivered <+: s.accepted := by
    rw [haccepted, hdelivered]
    decide
  have hrun₁ : Run serverRingStep ServerRingArgs (newServerRing 1) [.read allFrames 10] s₁ :=
    .single ⟨by decide, fun _ => rfl⟩ hfirst
  have hrun : Run serverRingStep ServerRingArgs (newServerRing 1)
      [.read allFrames 10, .read allFrames 5] s := hrun₁.snoc ⟨by decide, fun _ => rfl⟩ hsecond
  exact ⟨s, hrun, haccepted, hdelivered, hprefix,
    fun hall => hprefix (hrun₁.last_step hall hsecond).1⟩

end PartitionSeL4.Refos
