import PartitionSeL4.Refos.DataStruct
import PartitionSeL4.Refos.Ring

/-!
# `share.c`: the client's end of the ring, and the stream between the two ends

The client maps the dataspace and reads with `refos_share_read`, which goes by the end word of the
header and its own start index, and publishes the latter in the start word. The two ends share
nothing else: not the size of the ring, not the rule that one byte stays free, not the moment at
which the writer looks at the start word again.

`StreamInv` is what they agree on. The bytes not read yet lie in the ring from the reader's start to
the writer's end, and the writer's copy of the start, however old, leaves it no more room than there
is. `stream_of_undisturbed` is the result: as long as no page access fails after `rb_write` has
begun to copy, the client reads the stream of the accepted writes. An access that fails later breaks
it: the call returns `ENOMEM`, but the end index has been moved.
-/

namespace PartitionSeL4.Refos

open Lib

/-! ## `refos_share_read` -/

/-- `SHARE_METADATA_SIZE` -/
def shareMetadataSize : Nat := 8

/-- `refos_share_get_end` -/
def refosShareGetEnd (ds : RamDspace) : Nat := ofLe (slice ds.bytes 4 4)

/-- `refos_share_validate_params`: its result 0 is `true`. -/
def refosShareValidateParams (bufSize start stop : Nat) : Bool :=
  if bufSize < shareMetadataSize + 1 then false
  else if bufSize < start ∨ bufSize < stop then false
  else true

/-- The bytes that `refos_share_read` copies out. -/
def shareBytes (ds : RamDspace) (ringBufSize start stop len : Nat) : List UInt8 :=
  if start ≤ stop then
    slice ds.bytes (shareMetadataSize + start) (min (stop - start) len)
  else
    let bytesRead := min (u32 (ringBufSize + 2 ^ 32 - start)) len
    let bytesRemain := min (len - bytesRead) stop
    slice ds.bytes (shareMetadataSize + start) bytesRead ++
      slice ds.bytes shareMetadataSize bytesRemain

/-- `refos_share_read`: the bytes read, the new start index and the dataspace. -/
def refosShareRead (ds : RamDspace) (bufSize start len : Nat) :
    Option (List UInt8 × Nat × RamDspace) :=
  let stop := refosShareGetEnd ds
  let ringBufSize := u32 (bufSize + 2 ^ 32 - shareMetadataSize)
  if refosShareValidateParams bufSize start stop then
    let dest := shareBytes ds ringBufSize start stop len
    let start := u32 (start + dest.length) % ringBufSize
    some (dest, start, ds.write 0 (leWord start))
  else none

/-! ## Both ends -/

/-- The two ends of a notification buffer, with the bytes accepted and the bytes read so far. -/
structure StreamState where
  buf : RbBuffer
  ds : RamDspace
  /-- `notifyBufferStart`, the client's start index. -/
  start : Nat
  accepted : List UInt8
  delivered : List UInt8

/-- `srv_common_init` and `rb_create`, on a dataspace of `size` bytes with the given contents. -/
def streamInit (size : Nat) (bytes : Nat → UInt8) : StreamState where
  buf := rbCreate 1 (ramDspaceOatCreate size) .writeonly
  ds := { ramDspaceOatCreate size with bytes := bytes }
  start := 0
  accepted := []
  delivered := []

/-- The calls of the two ends. -/
inductive StreamEvent where
  | write (frames : Nat → Bool) (str : List UInt8)
  | read (len : Nat)

/-- The effect of one call. -/
def streamStep (s : StreamState) : StreamEvent → Except Failure StreamState
  | .write frames str => do
      let (error, buf, ds) ← rbWrite frames s.buf s.ds str
      return { s with
        buf := buf
        ds := ds
        accepted := if error = .success then s.accepted ++ str else s.accepted }
  | .read len =>
      match refosShareRead s.ds (s.ds.npages * pageSize) s.start len with
      | some (dest, start, ds) =>
          .ok { s with ds := ds, start := start, delivered := s.delivered ++ dest }
      | none => .ok s

/-- Lengths are 32-bit words, and no page access of an `rb_write` fails after the first one that
copies data. -/
def Undisturbed (s : StreamState) : StreamEvent → Prop
  | .write frames str =>
      str.length < 2 ^ 32 ∧ ∀ j, firstAccess s.buf str.length < j → frames j = true
  | .read len => len < 2 ^ 32

/-- The bytes accepted and not yet read. -/
def StreamState.unread (s : StreamState) : List UInt8 := s.accepted.drop s.delivered.length

/-- The offset of the byte `j` places behind the reader's start. -/
def StreamState.offset (s : StreamState) (j : Nat) : Nat :=
  ringbufferMetadataSize + (s.start + j) % s.buf.size

/-- What is read is a prefix of what was accepted, and the rest is still in the ring. -/
structure StreamOk (s : StreamState) : Prop where
  isPrefix : s.delivered <+: s.accepted
  unread : ∀ j (h : j < s.unread.length), s.ds.bytes (s.offset j) = s.unread[j]

/-- A write that returns `ENOMEM` changes nothing, and a read returns as much as there is. -/
def CallOk (s : StreamState) : StreamEvent → Prop
  | .write frames str => ∃ error buf ds, rbWrite frames s.buf s.ds str = .ok (error, buf, ds) ∧
      (error = .nomem → ds = s.ds ∧ buf.localEnd = s.buf.localEnd)
  | .read len =>
      ∃ dest start ds, refosShareRead s.ds (s.ds.npages * pageSize) s.start len =
        some (dest, start, ds) ∧ dest.length = min len s.unread.length

/-! ## Indices -/

/-- The number of bytes from index `a` to index `b` of a ring. -/
def ringUsed (size a b : Nat) : Nat := if a ≤ b then b - a else b + size - a

theorem ringUsed_lt {size a b : Nat} (ha : a < size) (hb : b < size) :
    ringUsed size a b < size := by
  unfold ringUsed
  split_ifs <;> omega

theorem ringUsed_add {size a n : Nat} (ha : a < size) (hn : n < size) :
    ringUsed size a ((a + n) % size) = n := by
  rw [ring_mod ha (by omega)]
  unfold ringUsed
  split_ifs <;> omega

theorem ringUsed_move {size a b n : Nat} (ha : a < size) (hb : b < size)
    (hn : ringUsed size a b + n < size) :
    ringUsed size a ((b + n) % size) = ringUsed size a b + n := by
  unfold ringUsed at *
  have hle : n ≤ size := by
    split_ifs at hn <;> omega
  rw [ring_mod hb hle]
  split_ifs at * <;> omega

/-- The room that `rb_write` sees, for a start index of the ring. -/
theorem RingOk.remaining_eq {buf : RbBuffer} {ds : RamDspace} (h : RingOk buf ds)
    (hstart : buf.localStart < buf.size) :
    rbRemainingSize buf = buf.size - 1 - ringUsed buf.size buf.localStart buf.localEnd := by
  have hend := h.localEnd
  by_cases hle : buf.localStart ≤ buf.localEnd
  · rw [h.remaining_of_le hle, ringUsed, if_pos hle]
  · rw [rbRemainingSize, if_pos (by omega), ringUsed, if_neg hle]
    omega

/-! ## The data area -/

section Store

variable (ds : RamDspace) {size e : Nat} {str : List UInt8}

theorem ringStore_stored (he : e < size) (hlen : str.length ≤ size) {j : Nat}
    (hj : j < str.length) :
    (ringStore ds size e str).bytes (ringbufferMetadataSize + (e + j) % size) = str[j] := by
  have hmeta : ringbufferMetadataSize = 8 := rfl
  rw [ring_mod he (by omega), ringStore, RamDspace.write_bytes]
  split_ifs with hwrap
  · rw [blit_of_outside, RamDspace.write_bytes,
      show ringbufferMetadataSize + (e + j) = e + ringbufferMetadataSize + j by omega,
      blit_of_inside _ _ _ (by rw [List.length_take]; omega), List.getElem_take]
    rw [List.length_drop]
    omega
  · rw [show ringbufferMetadataSize + (e + j - size) =
        ringbufferMetadataSize + (j - (size - e)) by omega,
      blit_of_inside _ _ _ (by rw [List.length_drop]; omega), List.getElem_drop]
    congr 1
    omega

theorem ringStore_kept (he : e < size) {n : Nat} (hn : n < size) (hlen : str.length ≤ n) :
    (ringStore ds size e str).bytes (ringbufferMetadataSize + (e + n) % size) =
      ds.bytes (ringbufferMetadataSize + (e + n) % size) := by
  have hmeta : ringbufferMetadataSize = 8 := rfl
  rw [ring_mod he (by omega), ringStore, RamDspace.write_bytes]
  rw [blit_of_outside, RamDspace.write_bytes, blit_of_outside]
  · rw [List.length_take]
    split_ifs <;> omega
  · rw [List.length_drop]
    split_ifs <;> omega

theorem ringStore_header {i : Nat} (hi : i < ringbufferMetadataSize) :
    (ringStore ds size e str).bytes i = ds.bytes i := by
  rw [ringStore, RamDspace.write_bytes, blit_of_outside _ _ _ (by omega), RamDspace.write_bytes,
    blit_of_outside _ _ _ (by omega)]

end Store

/-! ## What the two ends agree on -/

/-- The ring of `size` bytes holds the bytes `unread` from `start` to `stop`, and its header says
so. -/
structure RingHolds (ds : RamDspace) (size start stop : Nat) (unread : List UInt8) : Prop where
  size_lt : size < 2 ^ 31
  start_lt : start < size
  unread_lt : unread.length < size
  stop_eq : stop = (start + unread.length) % size
  stored : ∀ j (h : j < unread.length),
    ds.bytes (ringbufferMetadataSize + (start + j) % size) = unread[j]
  startWord_eq : startWord ds = start
  endWord_eq : refosShareGetEnd ds = stop

namespace RingHolds

variable {ds : RamDspace} {size start stop : Nat} {unread : List UInt8}

theorem init (ds : RamDspace) (hsize : size < 2 ^ 31) (hpos : 0 < size)
    (hzero : ∀ i < ringbufferMetadataSize, ds.bytes i = 0) : RingHolds ds size 0 0 [] := by
  have hmeta : ringbufferMetadataSize = 8 := rfl
  have hword : ∀ off, off + 4 ≤ 8 → ofLe (slice ds.bytes off 4) = 0 := by
    intro off hoff
    rw [slice_congr _ _ (fun _ => 0) fun i _ hi => hzero i (by omega)]
    rfl
  exact ⟨hsize, hpos, hpos, (Nat.zero_mod _).symm, fun j h => absurd h (Nat.not_lt_zero j),
    hword 0 (by omega), hword 4 (by omega)⟩

theorem stop_lt (h : RingHolds ds size start stop unread) : stop < size := by
  have := h.start_lt
  rw [h.stop_eq]
  exact Nat.mod_lt _ (by omega)

/-- The bytes in use are the bytes not read. -/
theorem ringUsed_eq (h : RingHolds ds size start stop unread) :
    ringUsed size start stop = unread.length := by
  rw [h.stop_eq, ringUsed_add h.start_lt h.unread_lt]

/-- What is stored behind the bytes not read, and published in the end word, is appended to
them. -/
theorem store (h : RingHolds ds size start stop unread) {str : List UInt8}
    (hfit : unread.length + str.length < size) :
    RingHolds ((ringStore ds size stop str).write 4 (leWord ((stop + str.length) % size))) size
      start ((stop + str.length) % size) (unread ++ str) := by
  have hmeta : ringbufferMetadataSize = 8 := rfl
  have hend := h.stop_lt
  have hsize := h.size_lt
  have hmod : (stop + str.length) % size < size := Nat.mod_lt _ (by omega)
  have hoff : ∀ i, ((ringStore ds size stop str).write 4
      (leWord ((stop + str.length) % size))).bytes (ringbufferMetadataSize + i) =
        (ringStore ds size stop str).bytes (ringbufferMetadataSize + i) := by
    intro i
    rw [RamDspace.write_bytes, blit_of_outside]
    rw [length_leWord]
    omega
  -- the index of a byte, counted from the writer's end
  have hindex : ∀ n, (start + (unread.length + n)) % size = (stop + n) % size := by
    intro n
    rw [h.stop_eq, Nat.mod_add_mod, Nat.add_assoc]
  refine ⟨hsize, h.start_lt, ?_, ?_, ?_, ?_, ?_⟩
  · rw [List.length_append]
    exact hfit
  · rw [List.length_append]
    exact (hindex _).symm
  · intro j hj
    rw [List.length_append] at hj
    rw [hoff]
    by_cases hold : j < unread.length
    · -- an old byte: from the writer's end it lies behind everything stored
      have hbehind : (start + j) % size = (stop + (size - unread.length + j)) % size := by
        rw [← hindex, show start + (unread.length + (size - unread.length + j)) =
          start + j + size by omega, Nat.add_mod_right]
      rw [List.getElem_append_left hold, ← h.stored j hold, hbehind]
      exact ringStore_kept ds hend (by omega) (by omega)
    · obtain ⟨n, rfl⟩ : ∃ n, j = unread.length + n := ⟨j - unread.length, by omega⟩
      rw [hindex, ringStore_stored ds hend (by omega) (by omega)]
      simp
  · have hword : ∀ i, 0 ≤ i → i < 0 + 4 → ((ringStore ds size stop str).write 4
        (leWord ((stop + str.length) % size))).bytes i = ds.bytes i := by
      intro i _ hi
      rw [RamDspace.write_bytes, blit_of_outside _ _ _ (by omega), ringStore_header ds (by omega)]
    rw [startWord, slice_congr _ _ ds.bytes hword]
    exact h.startWord_eq
  · rw [refosShareGetEnd, RamDspace.write_bytes]
    have hword := slice_blit_self (ringStore ds size stop str).bytes 4
      (leWord ((stop + str.length) % size))
    rw [length_leWord] at hword
    rw [hword, ofLe_leWord (by omega)]

theorem shareBytes_eq (h : RingHolds ds size start stop unread) (len : Nat) :
    shareBytes ds size start stop len = unread.take (min len unread.length) := by
  have hmeta : shareMetadataSize = 8 := rfl
  have hmeta' : ringbufferMetadataSize = 8 := rfl
  have hstart := h.start_lt
  have hlt := h.unread_lt
  have hsize := h.size_lt
  have hend := h.stop_eq
  rw [ring_mod hstart (by omega)] at hend
  have hbyte : ∀ j < unread.length, unread[j]? = some (ds.bytes (ringbufferMetadataSize +
      (if start + j < size then start + j else start + j - size))) := by
    intro j hj
    rw [List.getElem?_eq_getElem hj, ← h.stored j hj, ring_mod hstart (by omega)]
  rw [shareBytes]
  split_ifs with hle
  · -- the bytes lie in one piece
    have hfit : start + unread.length < size := by
      by_contra hwrap
      rw [if_neg hwrap] at hend
      omega
    rw [if_pos hfit] at hend
    rw [slice_eq_of_getElem? ds.bytes _ (l := unread) (i := 0), List.drop_zero,
      show min (stop - start) len = min len unread.length by omega]
    intro j hj
    rw [Nat.zero_add, hbyte j (by omega), if_pos (by omega), Nat.add_assoc, hmeta, hmeta']
  · have hwrap : ¬start + unread.length < size := by
      intro hfit
      rw [if_pos hfit] at hend
      omega
    rw [if_neg hwrap] at hend
    have hroom : u32 (size + 2 ^ 32 - start) = size - start := u32_sub (by omega) (by omega)
    simp only [hroom]
    rw [slice_eq_of_getElem? ds.bytes _ (l := unread) (i := 0),
      slice_eq_of_getElem? ds.bytes _ (l := unread) (i := min (size - start) len),
      List.drop_zero, ← List.take_add]
    · congr 1
      omega
    · -- the wrapped start bit is read only behind the whole end bit
      intro j hj
      rw [hbyte _ (by omega), if_neg (by omega)]
      congr 2
      omega
    · intro j hj
      rw [Nat.zero_add, hbyte j (by omega), if_pos (by omega), Nat.add_assoc, hmeta, hmeta']

theorem read (h : RingHolds ds size start stop unread) {n : Nat} (hn : n ≤ unread.length) :
    RingHolds (ds.write 0 (leWord ((start + n) % size))) size ((start + n) % size) stop
      (unread.drop n) := by
  have hmeta : ringbufferMetadataSize = 8 := rfl
  have hlt := h.unread_lt
  have hsize := h.size_lt
  have hmod : (start + n) % size < size := Nat.mod_lt _ (by omega)
  have hindex : ∀ j, ((start + n) % size + j) % size = (start + (n + j)) % size := by
    intro j
    rw [Nat.mod_add_mod, Nat.add_assoc]
  have hkept : ∀ i, 4 ≤ i →
      (ds.write 0 (leWord ((start + n) % size))).bytes i = ds.bytes i := by
    intro i hi
    rw [RamDspace.write_bytes, blit_of_outside]
    rw [length_leWord]
    omega
  refine ⟨hsize, hmod, ?_, ?_, ?_, ?_, ?_⟩
  · rw [List.length_drop]
    omega
  · rw [hindex, List.length_drop, show n + (unread.length - n) = unread.length by omega]
    exact h.stop_eq
  · intro j hj
    rw [List.length_drop] at hj
    rw [hindex, hkept _ (by omega), h.stored (n + j) (by omega), List.getElem_drop]
  · have hword := slice_blit_self ds.bytes 0 (leWord ((start + n) % size))
    rw [length_leWord] at hword
    rw [startWord, RamDspace.write_bytes, hword, ofLe_leWord (by omega)]
  · rw [refosShareGetEnd, slice_congr _ _ ds.bytes fun i hi _ => hkept i hi]
    exact h.endWord_eq

theorem refosShareRead_eq (h : RingHolds ds size start stop unread) {bufSize : Nat}
    (hbuf : size + shareMetadataSize = bufSize) (len : Nat) :
    refosShareRead ds bufSize start len =
      some (unread.take (min len unread.length), (start + min len unread.length) % size,
        ds.write 0 (leWord ((start + min len unread.length) % size))) := by
  have hmeta : shareMetadataSize = 8 := rfl
  have hsize := h.size_lt
  have hend := h.stop_lt
  have hstart := h.start_lt
  have hunread := h.unread_lt
  have hring : u32 (bufSize + 2 ^ 32 - shareMetadataSize) = size := by
    rw [u32_sub (by omega) (by omega)]
    omega
  have hvalid : refosShareValidateParams bufSize start stop = true := by
    rw [refosShareValidateParams, if_neg (by omega), if_neg (by omega)]
  simp only [refosShareRead, h.endWord_eq, hring, hvalid, if_true, h.shareBytes_eq]
  have hlen : (unread.take (min len unread.length)).length = min len unread.length := by
    rw [List.length_take]
    omega
  rw [hlen, u32_of_lt (by omega)]

end RingHolds

/-- The ring holds the bytes `unread` for a reader at `start`. The writer's copy of the start index
may be old: it is one from which at least these bytes are in use. -/
structure Holds (buf : RbBuffer) (ds : RamDspace) (start : Nat) (unread : List UInt8) : Prop where
  ring : RingOk buf ds
  start_lt : start < buf.size
  localStart_lt : buf.localStart < buf.size
  unread_lt : unread.length < buf.size
  localEnd_eq : buf.localEnd = (start + unread.length) % buf.size
  stored : ∀ j (h : j < unread.length),
    ds.bytes (ringbufferMetadataSize + (start + j) % buf.size) = unread[j]
  startWord_eq : startWord ds = start
  endWord_eq : refosShareGetEnd ds = buf.localEnd
  used : unread.length ≤ ringUsed buf.size buf.localStart buf.localEnd

namespace Holds

variable {buf : RbBuffer} {ds : RamDspace} {start : Nat} {unread : List UInt8}

theorem ringHolds (h : Holds buf ds start unread) :
    RingHolds ds buf.size start buf.localEnd unread :=
  ⟨h.ring.size_lt, h.start_lt, h.unread_lt, h.localEnd_eq, h.stored, h.startWord_eq, h.endWord_eq⟩

theorem init {size : Nat} {bytes : Nat → UInt8} (hpos : 0 < size) (hmul : size % pageSize = 0)
    (hsize : size < 2 ^ 31) (hzero : ∀ i < ringbufferMetadataSize, bytes i = 0) :
    Holds (rbCreate 1 (ramDspaceOatCreate size) .writeonly)
      { ramDspaceOatCreate size with bytes := bytes } 0 [] := by
  have hnpages : (ramDspaceOatCreate size).npages = size / pageSize := by
    rw [ramDspaceOatCreate, roundUpNpages, if_pos hmul, Nat.add_zero]
  have htotal : size / pageSize * pageSize = size :=
    Nat.div_mul_cancel (Nat.dvd_of_mod_eq_zero hmul)
  have hring : RingOk (rbCreate 1 (ramDspaceOatCreate size) .writeonly)
      { ramDspaceOatCreate size with bytes := bytes } := by
    have hcreate : 0 < (ramDspaceOatCreate size).npages →
        (ramDspaceOatCreate size).npages * pageSize ≤ 2 ^ 31 →
        RingOk (rbCreate 1 (ramDspaceOatCreate size) .writeonly) (ramDspaceOatCreate size) :=
      RingOk.create 1
    refine (hcreate ?_ ?_).of_npages_eq rfl
    · rw [hnpages]
      exact Nat.pos_of_mul_pos_right (htotal ▸ hpos)
    · rw [hnpages, htotal]
      exact Nat.le_of_lt hsize
  have hlt := hring.localEnd
  have hholds := RingHolds.init { ramDspaceOatCreate size with bytes := bytes }
    hring.size_lt hlt hzero
  exact ⟨hring, hlt, hlt, hlt, hholds.stop_eq, hholds.stored, hholds.startWord_eq,
    hholds.endWord_eq, Nat.zero_le _⟩

/-- With a fresh copy of the start index, the room is the true one. -/
theorem refresh (h : Holds buf ds start unread) (len : Nat) :
    Holds { buf with localStart := freshStart buf ds len } ds start unread := by
  have hfresh : freshStart buf ds len = start ∨ freshStart buf ds len = buf.localStart := by
    rw [freshStart, h.startWord_eq]
    split_ifs
    · exact Or.inl rfl
    · exact Or.inr rfl
  have hsize := h.ring.size_lt
  have hstart := h.start_lt
  have hlocal := h.localStart_lt
  rcases hfresh with hfresh | hfresh
  · refine ⟨⟨h.ring.mode, h.ring.size, h.ring.npages, h.ring.total, h.ring.localEnd, ?_⟩, hstart,
      ?_, h.unread_lt, h.localEnd_eq, h.stored, h.startWord_eq, h.endWord_eq, ?_⟩
    · show freshStart buf ds len < _
      omega
    · show freshStart buf ds len < buf.size
      omega
    · show _ ≤ ringUsed buf.size (freshStart buf ds len) buf.localEnd
      exact Nat.le_of_eq (by rw [hfresh, h.localEnd_eq, ringUsed_add hstart h.unread_lt])
  · rw [hfresh]
    exact h

theorem room (h : Holds buf ds start unread) {len : Nat} (hroom : len ≤ rbRemainingSize buf) :
    ringUsed buf.size buf.localStart buf.localEnd + len < buf.size ∧
      unread.length + len < buf.size := by
  have hused := ringUsed_lt h.localStart_lt h.ring.localEnd
  have hle := h.used
  rw [h.ring.remaining_eq h.localStart_lt] at hroom
  omega

theorem store (h : Holds buf ds start unread) {str : List UInt8}
    (hroom : str.length ≤ rbRemainingSize buf) :
    Holds { buf with localEnd := (buf.localEnd + str.length) % buf.size }
      ((ringStore ds buf.size buf.localEnd str).write 4
        (leWord ((buf.localEnd + str.length) % buf.size))) start (unread ++ str) := by
  obtain ⟨hused, hfit⟩ := h.room hroom
  have hend := h.ring.localEnd
  have hholds := h.ringHolds.store hfit
  refine ⟨⟨h.ring.mode, h.ring.size, h.ring.npages, h.ring.total, hholds.stop_lt,
    h.ring.localStart⟩, h.start_lt, h.localStart_lt, hholds.unread_lt, hholds.stop_eq,
    hholds.stored, hholds.startWord_eq, hholds.endWord_eq, ?_⟩
  show _ ≤ ringUsed buf.size buf.localStart ((buf.localEnd + str.length) % buf.size)
  rw [ringUsed_move h.localStart_lt hend hused, List.length_append]
  have := h.used
  omega

theorem read (h : Holds buf ds start unread) {n : Nat} (hn : n ≤ unread.length) :
    Holds buf (ds.write 0 (leWord ((start + n) % buf.size))) ((start + n) % buf.size)
      (unread.drop n) := by
  have hholds := h.ringHolds.read hn
  refine ⟨h.ring.of_npages_eq rfl, hholds.start_lt, h.localStart_lt, hholds.unread_lt,
    hholds.stop_eq, hholds.stored, hholds.startWord_eq, hholds.endWord_eq, ?_⟩
  have := h.used
  rw [List.length_drop]
  omega

theorem refosShareRead_eq (h : Holds buf ds start unread) (len : Nat) :
    refosShareRead ds (ds.npages * pageSize) start len =
      some (unread.take (min len unread.length),
        (start + min len unread.length) % buf.size,
        ds.write 0 (leWord ((start + min len unread.length) % buf.size))) :=
  h.ringHolds.refosShareRead_eq h.ring.size len

end Holds

/-! ## Runs -/

/-- The invariant of the two ends. -/
structure StreamInv (s : StreamState) : Prop where
  isPrefix : s.delivered <+: s.accepted
  holds : Holds s.buf s.ds s.start s.unread

theorem StreamInv.ok {s : StreamState} (h : StreamInv s) : StreamOk s :=
  ⟨h.isPrefix, h.holds.stored⟩

theorem StreamInv.accepted_eq {s : StreamState} (h : StreamInv s) :
    s.accepted = s.delivered ++ s.unread := by
  obtain ⟨rest, hrest⟩ := h.isPrefix
  rw [StreamState.unread, ← hrest, List.drop_left]

theorem unread_eq {s : StreamState} {rest : List UInt8} (h : s.accepted = s.delivered ++ rest) :
    s.unread = rest := by
  rw [StreamState.unread, h, List.drop_left]

/-- An undisturbed write keeps the invariant, and changes nothing where it returns `ENOMEM`. -/
theorem StreamInv.write {s : StreamState} (h : StreamInv s) {frames : Nat → Bool}
    {str : List UInt8} (hok : Undisturbed s (.write frames str)) :
    ∃ error buf ds, rbWrite frames s.buf s.ds str = .ok (error, buf, ds) ∧
      (error = .nomem → ds = s.ds ∧ buf.localEnd = s.buf.localEnd) ∧
      StreamInv { s with
        buf := buf
        ds := ds
        accepted := if error = .success then s.accepted ++ str else s.accepted } := by
  obtain ⟨error, buf, ds, hwrite, hresult⟩ := rbWrite_result frames h.holds.ring str
  have hfresh := h.holds.refresh str.length
  have hframes : ∀ j, firstAccess s.buf str.length ≤ j → frames j = false →
      j = firstAccess s.buf str.length := by
    intro j hj hframe
    by_contra hne
    have := hok.2 j (by omega)
    simp [hframe] at this
  refine ⟨error, buf, ds, hwrite, ?_⟩
  cases hresult with
  | noHeader _ _ => exact ⟨fun hne => (Err.noConfusion hne), h.isPrefix, h.holds⟩
  | full _ hbuf _ => exact hbuf ▸ ⟨fun _ => ⟨rfl, rfl⟩, h.isPrefix, hfresh⟩
  | forged _ hbuf _ _ => exact hbuf ▸ ⟨fun hne => (Err.noConfusion hne), h.isPrefix, hfresh⟩
  | copyFailed _ _ j hbuf _ hj hframe hfirst =>
      obtain rfl := hfirst (hframes j hj hframe)
      exact hbuf ▸ ⟨fun _ => ⟨rfl, rfl⟩, h.isPrefix, hfresh⟩
  | endFailed _ j hbuf _ _ hj hframe hfirst =>
      -- only a write of length 0 can get here
      obtain rfl := hfirst (hframes j hj hframe)
      have hsame : (s.buf.localEnd + 0) % s.buf.size = s.buf.localEnd :=
        Nat.mod_eq_of_lt h.holds.ring.localEnd
      have hstore : ringStore s.ds s.buf.size s.buf.localEnd [] = s.ds := by
        rw [ringStore, List.take_nil, List.drop_nil, RamDspace.write_nil, RamDspace.write_nil]
      rw [hbuf, List.length_nil, hsame, hstore]
      exact ⟨fun _ => ⟨rfl, rfl⟩, h.isPrefix, hfresh⟩
  | stored _ hbuf hroom _ =>
      refine ⟨fun hne => (Err.noConfusion hne), h.isPrefix.trans (List.prefix_append _ _), ?_⟩
      have hunread : StreamState.unread { s with accepted := s.accepted ++ str } =
          s.unread ++ str := by
        refine unread_eq ?_
        show s.accepted ++ str = s.delivered ++ (s.unread ++ str)
        rw [← List.append_assoc, ← h.accepted_eq]
      have hstored := (hbuf ▸ hfresh).store hroom
      rw [hbuf] at hstored ⊢
      rw [← hunread] at hstored
      exact hstored

theorem StreamInv.read {s : StreamState} (h : StreamInv s) (len : Nat) :
    ∃ s', streamStep s (.read len) = .ok s' ∧ StreamInv s' := by
  have hmin : min len s.unread.length ≤ s.unread.length := Nat.min_le_right _ _
  have haccepted : s.accepted = s.delivered ++ s.unread.take (min len s.unread.length) ++
      s.unread.drop (min len s.unread.length) := by
    rw [List.append_assoc, List.take_append_drop]
    exact h.accepted_eq
  have hholds := h.holds.read hmin
  obtain ⟨s', hs'⟩ : ∃ s' : StreamState, s' = { s with
    ds := s.ds.write 0 (leWord ((s.start + min len s.unread.length) % s.buf.size))
    start := (s.start + min len s.unread.length) % s.buf.size
    delivered := s.delivered ++ s.unread.take (min len s.unread.length) } := ⟨_, rfl⟩
  have hrest : s'.accepted = s'.delivered ++ s.unread.drop (min len s.unread.length) := by
    rw [hs']
    exact haccepted
  refine ⟨s', ?_, ⟨_, hrest.symm⟩, ?_⟩
  · rw [streamStep, h.holds.refosShareRead_eq len, hs']
  · rw [unread_eq hrest, hs']
    exact hholds

/-- Every undisturbed call returns and does what it should. -/
theorem StreamInv.step {s : StreamState} {e : StreamEvent} (h : StreamInv s)
    (hok : Undisturbed s e) : CallOk s e ∧ ∃ s', streamStep s e = .ok s' ∧ StreamInv s' := by
  cases e with
  | write frames str =>
      obtain ⟨error, buf, ds, hwrite, hnomem, hinv⟩ := h.write hok
      refine ⟨⟨error, buf, ds, hwrite, hnomem⟩, _, ?_, hinv⟩
      simp only [streamStep, hwrite]
      rfl
  | read len =>
      refine ⟨⟨_, _, _, h.holds.refosShareRead_eq len, ?_⟩, h.read len⟩
      rw [List.length_take]
      omega

/-- **The notification stream.** Take a notification dataspace whose requested size is a positive
multiple of the page size, with a zeroed header, and below `2 ^ 31`, so that no sum of an index and
a length wraps. In every run of `rb_write` and `refos_share_read`
calls in which no page access of an `rb_write` fails after the first that copies data: the bytes
read are always a prefix of the bytes accepted and the others are in the ring unharmed; and every
further such call returns, an `rb_write` that answers `ENOMEM` changes neither the dataspace nor the
end index, and a `refos_share_read` returns the smaller of the length asked for and the number of
unread bytes. -/
theorem stream_of_undisturbed (size : Nat) (bytes : Nat → UInt8) (hpos : 0 < size)
    (hmul : size % pageSize = 0) (hsize : size < 2 ^ 31)
    (hzero : ∀ i < ringbufferMetadataSize, bytes i = 0) (evs : List StreamEvent) (s : StreamState)
    (hrun : Run streamStep Undisturbed (streamInit size bytes) evs s) :
    StreamOk s ∧ ∀ e, Undisturbed s e →
      CallOk s e ∧ ∃ s', streamStep s e = .ok s' ∧ StreamOk s' := by
  have hinit : StreamInv (streamInit size bytes) :=
    ⟨List.prefix_refl [], Holds.init hpos hmul hsize hzero⟩
  have hinv : StreamInv s := hrun.invariant hinit fun t e u h hok hu => by
    obtain ⟨_, u', hu', hinv⟩ := h.step hok
    rw [hu'] at hu
    exact Except.ok.inj hu ▸ hinv
  refine ⟨hinv.ok, fun e hok => ?_⟩
  obtain ⟨hcall, s', hs', hinv'⟩ := hinv.step hok
  exact ⟨hcall, s', hs', hinv'.ok⟩

/-- A new notification buffer of one page. -/
def onePage : StreamState := streamInit 4096 fun _ => 0

/-- A run of one write and one read, in a buffer of one page. -/
theorem stream_of_undisturbed_once :
    ∃ s, Run streamStep Undisturbed onePage [.write allFrames [1, 2, 3], .read 2] s ∧
      StreamOk s := by
  have hwrite : Undisturbed onePage (.write allFrames [1, 2, 3]) :=
    ⟨by decide, fun _ _ => rfl⟩
  obtain ⟨_, hstart⟩ := stream_of_undisturbed 4096 (fun _ => 0) (by decide) (by decide)
    (by decide) (fun _ _ => rfl) []
    onePage .nil
  obtain ⟨_, s₁, hs₁, _⟩ := hstart _ hwrite
  have hrun₁ : Run streamStep Undisturbed onePage [.write allFrames [1, 2, 3]] s₁ :=
    .single hwrite hs₁
  obtain ⟨_, hnext⟩ := stream_of_undisturbed 4096 (fun _ => 0) (by decide) (by decide)
    (by decide) (fun _ _ => rfl) _ s₁ hrun₁
  have hread : Undisturbed s₁ (.read 2) := by
    show 2 < 2 ^ 32
    decide
  obtain ⟨_, s₂, hs₂, hok⟩ := hnext _ hread
  exact ⟨s₂, hrun₁.snoc hread hs₂, hok⟩

/-- The page accesses of a call succeed up to the one with number `n`. -/
def framesBelow (n j : Nat) : Bool := j < n

/-- The first write copies its byte, and then the page access for the end word fails: it returns
`ENOMEM`, but the byte is in the ring and the end index has moved. The second write publishes the
new end index, and the client reads a byte of a write that failed. -/
theorem failed_write_is_read :
    (∃ buf ds, rbWrite (framesBelow 1) onePage.buf onePage.ds [7] =
        .ok (.nomem, buf, ds) ∧ buf.localEnd = 1 ∧ ds.bytes 8 = 7) ∧
    ¬CallOk onePage (.write (framesBelow 1) [7]) ∧
    ∃ s, Run streamStep (fun _ _ => True) onePage
        [.write (framesBelow 1) [7], .write allFrames [8], .read 2] s ∧
      s.accepted = [8] ∧ s.delivered = [7, 8] ∧ ¬StreamOk s := by
  have hwrite : ∃ buf ds, rbWrite (framesBelow 1) onePage.buf onePage.ds [7] =
      .ok (.nomem, buf, ds) ∧ buf.localEnd = 1 ∧ ds.bytes 8 = 7 := ⟨_, _, rfl, rfl, rfl⟩
  refine ⟨hwrite, ?_, ?_⟩
  · obtain ⟨buf, ds, hnomem, hend, _⟩ := hwrite
    rintro ⟨error, buf', ds', hcall, hsame⟩
    rw [hnomem] at hcall
    obtain ⟨rfl, rfl, rfl⟩ : Err.nomem = error ∧ buf = buf' ∧ ds = ds' := by simpa using hcall
    obtain ⟨_, hloc⟩ := hsame rfl
    rw [hend] at hloc
    exact absurd hloc (by decide)
  · obtain ⟨s, hrun, haccepted, hdelivered⟩ : ∃ s, Run streamStep (fun _ _ => True)
        onePage [.write (framesBelow 1) [7], .write allFrames [8], .read 2] s ∧
          s.accepted = [8] ∧ s.delivered = [7, 8] := by
      apply Run.exists_of_exec
      decide +kernel
    refine ⟨s, hrun, haccepted, hdelivered, fun hok => ?_⟩
    have := hok.isPrefix
    rw [haccepted, hdelivered] at this
    exact absurd this (by decide)

end PartitionSeL4.Refos
