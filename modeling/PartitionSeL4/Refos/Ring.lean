import PartitionSeL4.Refos.Dataspace
import PartitionSeL4.Lib.Run

/-!
# `ringbuffer.c`: the process server's end of a shared ring buffer

Notifications go to a client through a ring in one of the client's dataspaces: two header words, the
reader's start and the writer's end, and then the data. The process server writes and keeps its own
copies of the two indices; of the shared header it only ever reads the start word, and only when
its copy leaves too little room.

The client can write anything anywhere in the dataspace. `rb_write_safe` says that this cannot hurt
the process server: a forged start changes the room that `rb_write` believes there is, but the
data still goes to the data area, because `ram_dspace_write` checks the length again.
-/

namespace PartitionSeL4.Refos

open Lib

/-- `RINGBUFFER_METADATA_SIZE` -/
def ringbufferMetadataSize : Nat := 8

/-- `enum rb_mode` -/
inductive RbMode where
  | readonly
  | writeonly
  deriving DecidableEq, Repr

/-- `struct rb_buffer`; the dataspace is named by its id. -/
structure RbBuffer where
  mode : RbMode
  localStart : Nat
  localEnd : Nat
  size : Nat
  dataspace : Nat
  deriving DecidableEq, Repr

/-- `rb_create` -/
def rbCreate (id : Nat) (dataspace : RamDspace) (mode : RbMode) : RbBuffer where
  mode := mode
  localStart := 0
  localEnd := 0
  size := u32 (ramDspaceGetSize dataspace + 2 ^ 32 - ringbufferMetadataSize)
  dataspace := id

/-- `rb_remaining_size`, in 32 bits. -/
def rbRemainingSize (buf : RbBuffer) : Nat :=
  if buf.localEnd < buf.localStart then buf.localStart - buf.localEnd - 1
  else u32 (u32 (buf.size + 2 ^ 32 - 1) + 2 ^ 32 - (buf.localEnd - buf.localStart))

/-- `rb_update_local_start`: the error, the new record, the dataspace and the number of the next
page access. -/
def rbUpdateLocalStart (frames : Nat → Bool) (k : Nat) (buf : RbBuffer) (ds : RamDspace) :
    Err × RbBuffer × RamDspace × Nat :=
  if buf.mode = .writeonly then
    match ramDspaceRead frames k 4 ds 0 with
    | (.success, word, k) => (.success, { buf with localStart := ofLe word }, ds, k)
    | (error, _, k) => (error, buf, ds, k)
  else
    match ramDspaceWrite frames k (leWord buf.localStart) ds 0 with
    | (error, ds, k) => (error, buf, ds, k)

/-- `rb_update_local_end` -/
def rbUpdateLocalEnd (frames : Nat → Bool) (k : Nat) (buf : RbBuffer) (ds : RamDspace) :
    Err × RbBuffer × RamDspace × Nat :=
  if buf.mode = .writeonly then
    match ramDspaceWrite frames k (leWord buf.localEnd) ds 4 with
    | (error, ds, k) => (error, buf, ds, k)
  else
    match ramDspaceRead frames k 4 ds 4 with
    | (.success, word, k) => (.success, { buf with localEnd := ofLe word }, ds, k)
    | (error, _, k) => (error, buf, ds, k)

/-- The first part of `rb_write`: look for room, with a fresh start index if the copy leaves too
little. The error is the one to return, and the last component the number of the next access. -/
def rbFindRoom (frames : Nat → Bool) (buf : RbBuffer) (ds : RamDspace) (len : Nat) :
    Err × RbBuffer × Nat :=
  if rbRemainingSize buf < len then
    match rbUpdateLocalStart frames 0 buf ds with
    | (.success, buf, _, k) => (if rbRemainingSize buf < len then .nomem else .success, buf, k)
    | (_, buf, _, k) => (.invalid, buf, k)
  else (.success, buf, 0)

/-- The second part of `rb_write`: copy the data, in two pieces if it reaches the end. -/
def rbCopyIn (frames : Nat → Bool) (k : Nat) (buf : RbBuffer) (ds : RamDspace) (str : List UInt8) :
    Except Failure (Err × RamDspace × Nat) :=
  if buf.localEnd < buf.localStart then
    .ok (ramDspaceWrite frames k str ds (u32 (buf.localEnd + ringbufferMetadataSize)))
  else
    let endBytes := min str.length (u32 (buf.size + 2 ^ 32 - buf.localEnd))
    match ramDspaceWrite frames k (str.take endBytes) ds
        (u32 (buf.localEnd + ringbufferMetadataSize)) with
    | (.success, ds, k) =>
        if str.length < endBytes then .error .assertion
        else if endBytes < str.length then
          .ok (ramDspaceWrite frames k (str.drop endBytes) ds ringbufferMetadataSize)
        else .ok (.success, ds, k)
    | (error, ds, k) => .ok (error, ds, k)

/-- `rb_write`. The end index is moved before it is written to the header. -/
def rbWrite (frames : Nat → Bool) (buf : RbBuffer) (ds : RamDspace) (str : List UInt8) :
    Except Failure (Err × RbBuffer × RamDspace) :=
  if buf.mode ≠ .writeonly then .ok (.accessDenied, buf, ds)
  else
    match rbFindRoom frames buf ds str.length with
    | (.success, buf, k) => do
        match ← rbCopyIn frames k buf ds str with
        | (.success, ds, k) =>
            let buf := { buf with localEnd := u32 (buf.localEnd + str.length) % buf.size }
            match rbUpdateLocalEnd frames k buf ds with
            | (error, buf, ds, _) => return (error, buf, ds)
        | (error, ds, _) => return (error, buf, ds)
    | (error, buf, _) => .ok (error, buf, ds)

/-! ## The geometry of a ring -/

/-- A write-only ring over the whole of its dataspace, with an end index inside the data area. The
start index is any word. -/
structure RingOk (buf : RbBuffer) (ds : RamDspace) : Prop where
  mode : buf.mode = .writeonly
  size : buf.size + ringbufferMetadataSize = ds.npages * pageSize
  npages : 0 < ds.npages
  total : ds.npages * pageSize ≤ 2 ^ 31
  localEnd : buf.localEnd < buf.size
  localStart : buf.localStart < 2 ^ 32

namespace RingOk

variable {buf : RbBuffer} {ds : RamDspace}

theorem create (id : Nat) (hpos : 0 < ds.npages) (htotal : ds.npages * pageSize ≤ 2 ^ 31) :
    RingOk (rbCreate id ds .writeonly) ds := by
  have hpage : pageSize ≤ ds.npages * pageSize := Nat.le_mul_of_pos_left _ hpos
  have hsize : (rbCreate id ds .writeonly).size = ds.npages * pageSize - ringbufferMetadataSize :=
    room_eq (by simp only [ringbufferMetadataSize, pageSize] at *; omega) (by omega)
  refine ⟨rfl, ?_, hpos, htotal, ?_, ?_⟩
  · rw [hsize]
    simp only [ringbufferMetadataSize, pageSize] at *
    omega
  · rw [hsize]
    show 0 < _
    simp only [ringbufferMetadataSize, pageSize] at *
    omega
  · show 0 < 2 ^ 32
    decide

theorem size_lt (h : RingOk buf ds) : buf.size < 2 ^ 31 := by
  have := h.size
  have := h.total
  have hmeta : ringbufferMetadataSize = 8 := rfl
  omega

theorem of_npages_eq {ds' : RamDspace} (h : RingOk buf ds) (hn : ds'.npages = ds.npages) :
    RingOk buf ds' :=
  ⟨h.mode, hn ▸ h.size, hn ▸ h.npages, hn ▸ h.total, h.localEnd, h.localStart⟩

/-- The room behind the end index, without a wrap. -/
theorem remaining_of_le (h : RingOk buf ds) (hle : buf.localStart ≤ buf.localEnd) :
    rbRemainingSize buf = buf.size - 1 - (buf.localEnd - buf.localStart) := by
  have hend := h.localEnd
  have hsize := h.size_lt
  have hone : u32 (buf.size + 2 ^ 32 - 1) = buf.size - 1 := u32_sub (by omega) (by omega)
  rw [rbRemainingSize, if_neg (by omega), hone]
  exact u32_sub (by omega) (by omega)

theorem endRoom_eq (h : RingOk buf ds) :
    u32 (buf.size + 2 ^ 32 - buf.localEnd) = buf.size - buf.localEnd := by
  have hend := h.localEnd
  have hsize := h.size_lt
  exact u32_sub (by omega) (by omega)

theorem endOffset_eq (h : RingOk buf ds) :
    u32 (buf.localEnd + ringbufferMetadataSize) = buf.localEnd + ringbufferMetadataSize := by
  have hend := h.localEnd
  have hsize := h.size_lt
  exact u32_of_lt (by simp only [ringbufferMetadataSize]; omega)

end RingOk

/-! ## Where a write goes -/

/-- Nothing but contents has changed, and these only at the offsets of `P`. -/
structure ChangesOnly (P : Nat → Prop) (ds ds' : RamDspace) : Prop where
  frame : ds' = { ds with bytes := ds'.bytes }
  bytes : ∀ i, ds'.bytes i ≠ ds.bytes i → P i

namespace ChangesOnly

variable {P Q : Nat → Prop} {ds ds' ds'' : RamDspace}

theorem refl (P : Nat → Prop) (ds : RamDspace) : ChangesOnly P ds ds :=
  ⟨rfl, fun _ h => absurd rfl h⟩

theorem npages_eq (h : ChangesOnly P ds ds') : ds'.npages = ds.npages := by
  rw [h.frame]

theorem mono (h : ChangesOnly P ds ds') (hPQ : ∀ i, P i → Q i) : ChangesOnly Q ds ds' :=
  ⟨h.frame, fun i hi => hPQ i (h.bytes i hi)⟩

theorem trans (h : ChangesOnly P ds ds') (h' : ChangesOnly P ds' ds'') :
    ChangesOnly P ds ds'' := by
  refine ⟨?_, fun i hi => ?_⟩
  · rw [h'.frame, h.frame]
  · by_cases hmid : ds'.bytes i = ds.bytes i
    · exact h'.bytes i (hmid ▸ hi)
    · exact h.bytes i hmid

theorem write {off : Nat} {str : List UInt8} (h : ∀ i, off ≤ i → i < off + str.length → P i) :
    ChangesOnly P ds (ds.write off str) := by
  refine ⟨rfl, fun i hi => ?_⟩
  by_contra hP
  refine hi (blit_of_outside _ _ _ ?_)
  by_contra hin
  exact hP (h i (by omega) (by omega))

end ChangesOnly

/-- The data area of a ring. -/
def InData (size i : Nat) : Prop := ringbufferMetadataSize ≤ i ∧ i < ringbufferMetadataSize + size

/-- The end word of the header. -/
def InEndWord (i : Nat) : Prop := 4 ≤ i ∧ i < 8

/-- The data area after `str` is stored from index `e` on, around the end. -/
def ringStore (ds : RamDspace) (size e : Nat) (str : List UInt8) : RamDspace :=
  (ds.write (e + ringbufferMetadataSize) (str.take (size - e))).write ringbufferMetadataSize
    (str.drop (size - e))

theorem ringStore_changesOnly (ds : RamDspace) {size e : Nat} {str : List UInt8} (he : e < size)
    (hlen : str.length ≤ size) : ChangesOnly (InData size) ds (ringStore ds size e str) := by
  refine .trans (.write fun i hlo hhi => ?_) (.write fun i hlo hhi => ?_)
  · have := List.length_take_le (size - e) str
    exact ⟨by omega, by omega⟩
  · rw [List.length_drop] at hhi
    exact ⟨hlo, by omega⟩

section Writes

variable (frames : Nat → Bool) {buf : RbBuffer} {ds : RamDspace} {str : List UInt8}

/-- A block that lies in the data area is stored, or a page access fails on the way. -/
theorem ramDspaceWrite_inData (k : Nat) (str : List UInt8) (ds : RamDspace) (size : Nat)
    {off : Nat} (hlo : ringbufferMetadataSize ≤ off)
    (hhi : off + str.length ≤ ringbufferMetadataSize + size)
    (hfit : ringbufferMetadataSize + size ≤ ds.npages * pageSize)
    (hpages : ds.npages * pageSize < 2 ^ 32 - pageSize) :
    ∃ k', k ≤ k' ∧ (str ≠ [] → k < k') ∧
      (ramDspaceWrite frames k str ds off = (.success, ds.write off str, k') ∨
        ∃ ds' j, ramDspaceWrite frames k str ds off = (.nomem, ds', k') ∧
          ChangesOnly (InData size) ds ds' ∧ k ≤ j ∧ frames j = false ∧ (j = k → ds' = ds)) := by
  obtain ⟨k', hk, hk', hcases⟩ := ramDspaceWrite_spec frames k str ds off (by omega) hpages
  refine ⟨k', hk, hk', hcases.imp_right ?_⟩
  rintro ⟨m, j, hfail, hj, hframe, hzero⟩
  refine ⟨_, j, hfail, .write fun i hi hin => ?_, hj, hframe, fun hjk => ?_⟩
  · have := List.length_take_le' m str
    exact ⟨by omega, by omega⟩
  · rw [hzero hjk, List.take_zero, RamDspace.write_nil]

/-- The copy of `rb_write` stores the data, or a page access fails on the way. -/
def CopiesIn (k : Nat) (buf : RbBuffer) (ds : RamDspace) (str : List UInt8) : Prop :=
  ∃ k', k ≤ k' ∧ (str ≠ [] → k < k') ∧
    (rbCopyIn frames k buf ds str = .ok (.success, ringStore ds buf.size buf.localEnd str, k') ∨
      ∃ ds' j, rbCopyIn frames k buf ds str = .ok (.nomem, ds', k') ∧
        ChangesOnly (InData buf.size) ds ds' ∧ k ≤ j ∧ frames j = false ∧ (j = k → ds' = ds))

/-- Where the start is behind the end, the data is copied in one part. -/
theorem copiesIn_of_lt (k : Nat) (h : RingOk buf ds) (hforged : buf.localEnd < buf.localStart)
    (hfit : buf.localEnd + str.length ≤ buf.size) : CopiesIn frames k buf ds str := by
  have hsize := h.size
  have htotal := h.total
  have hmeta : ringbufferMetadataSize = 8 := rfl
  have hpage : pageSize = 4096 := rfl
  have hcopy : rbCopyIn frames k buf ds str =
      .ok (ramDspaceWrite frames k str ds (buf.localEnd + ringbufferMetadataSize)) := by
    rw [rbCopyIn, h.endOffset_eq, if_pos hforged]
  have hstore : ringStore ds buf.size buf.localEnd str =
      ds.write (buf.localEnd + ringbufferMetadataSize) str := by
    rw [ringStore, List.take_of_length_le (by omega), List.drop_of_length_le (by omega),
      RamDspace.write_nil]
  obtain ⟨k', hk, hk', hcases⟩ := ramDspaceWrite_inData frames k str ds buf.size
    (Nat.le_add_left ringbufferMetadataSize buf.localEnd) (by omega) (by omega) (by omega)
  refine ⟨k', hk, hk', ?_⟩
  rw [hcopy, hstore]
  rcases hcases with hdone | ⟨ds', j, hfail, hchanges⟩
  · exact Or.inl (by rw [hdone])
  · exact Or.inr ⟨ds', j, by rw [hfail], hchanges⟩

/-- Otherwise the part that does not fit before the end of the data area is copied to its start. -/
theorem copiesIn_of_le (k : Nat) (h : RingOk buf ds) (hroom : str.length ≤ rbRemainingSize buf)
    (hforged : ¬buf.localEnd < buf.localStart) :
    str.length ≤ buf.size ∧ CopiesIn frames k buf ds str := by
  have hsize := h.size
  have htotal := h.total
  have hend := h.localEnd
  have hmeta : ringbufferMetadataSize = 8 := rfl
  have hpage : pageSize = 4096 := rfl
  rw [h.remaining_of_le (by omega)] at hroom
  refine ⟨by omega, ?_⟩
  rw [CopiesIn, rbCopyIn, h.endOffset_eq, if_neg hforged, h.endRoom_eq]
  have htake : str.take (min str.length (buf.size - buf.localEnd)) =
      str.take (buf.size - buf.localEnd) := by
    rw [List.take_eq_take_iff]
    omega
  have hdrop : str.drop (min str.length (buf.size - buf.localEnd)) =
      str.drop (buf.size - buf.localEnd) := by
    by_cases hle : str.length ≤ buf.size - buf.localEnd
    · rw [Nat.min_eq_left hle, List.drop_length, List.drop_of_length_le hle]
    · rw [Nat.min_eq_right (by omega)]
  have hlen₁ : (str.take (buf.size - buf.localEnd)).length =
      min (buf.size - buf.localEnd) str.length := List.length_take
  obtain ⟨k₁, hk₁, hk₁', hcases₁⟩ := ramDspaceWrite_inData frames k
    (str.take (buf.size - buf.localEnd)) ds buf.size
    (Nat.le_add_left ringbufferMetadataSize buf.localEnd) (by omega) (by omega) (by omega)
  simp only [htake, hdrop]
  have hne : str ≠ [] → k < k₁ := by
    intro hstr
    have := List.length_pos_of_ne_nil hstr
    exact hk₁' (List.ne_nil_of_length_pos (by omega))
  rcases hcases₁ with hdone₁ | ⟨ds', j, hfail, hchanges⟩
  · simp only [hdone₁]
    rw [if_neg (by omega)]
    split_ifs with hwrap
    · -- the wrapped start bit
      have hlen₂ : (str.drop (buf.size - buf.localEnd)).length =
          str.length - (buf.size - buf.localEnd) := List.length_drop
      have hpart : ChangesOnly (InData buf.size) ds (ds.write
          (buf.localEnd + ringbufferMetadataSize) (str.take (buf.size - buf.localEnd))) :=
        .write fun i hlo hhi => ⟨by omega, by omega⟩
      obtain ⟨k₂, hk₂, _, hcases₂⟩ := ramDspaceWrite_inData frames k₁
        (str.drop (buf.size - buf.localEnd))
        (ds.write (buf.localEnd + ringbufferMetadataSize) (str.take (buf.size - buf.localEnd)))
        buf.size (Nat.le_refl ringbufferMetadataSize) (by omega)
        (by rw [RamDspace.write_npages]; omega) (by rw [RamDspace.write_npages]; omega)
      refine ⟨k₂, by omega, fun hstr => by have := hne hstr; omega, ?_⟩
      rcases hcases₂ with hdone₂ | ⟨ds', j, hfail, hchanges, hj, hframe, _⟩
      · exact Or.inl (by rw [hdone₂, ringStore])
      · refine Or.inr ⟨ds', j, by rw [hfail], hpart.trans hchanges, by omega, hframe,
          fun hjk => ?_⟩
        have := hne (List.ne_nil_of_length_pos (by omega))
        omega
    · refine ⟨k₁, hk₁, hne, Or.inl ?_⟩
      rw [ringStore, List.drop_of_length_le (by omega), RamDspace.write_nil]
  · exact ⟨k₁, hk₁, hne, Or.inr ⟨ds', j, by simp only [hfail], hchanges⟩⟩

/-- The copy is refused by `ram_dspace_write` if a forged start promises more than there is. -/
theorem rbCopyIn_spec (k : Nat) (h : RingOk buf ds) (hroom : str.length ≤ rbRemainingSize buf) :
    (buf.size < buf.localEnd + str.length ∧ buf.localEnd < buf.localStart ∧
      rbCopyIn frames k buf ds str = .ok (.invalidParam, ds, k)) ∨
    (str.length ≤ buf.size ∧ CopiesIn frames k buf ds str) := by
  by_cases hforged : buf.localEnd < buf.localStart
  · by_cases hfit : buf.localEnd + str.length ≤ buf.size
    · exact Or.inr ⟨by omega, copiesIn_of_lt frames k h hforged hfit⟩
    · have hsize := h.size
      have hend := h.localEnd
      have htotal := h.total
      have hmeta : ringbufferMetadataSize = 8 := rfl
      have hpage : pageSize = 4096 := rfl
      refine Or.inl ⟨by omega, hforged, ?_⟩
      rw [rbCopyIn, h.endOffset_eq, if_pos hforged,
        ramDspaceWrite_of_lt frames k str ds (by omega) (by omega) (by omega)]
  · exact Or.inr (copiesIn_of_le frames k h hroom hforged)

theorem ramDspaceRead_startWord (k : Nat) (h : RingOk buf ds) :
    ramDspaceRead frames k 4 ds 0 =
      if frames k then (.success, slice ds.bytes 0 4, k + 1) else (.nomem, [], k + 1) := by
  have htotal := h.total
  have hpage : pageSize ≤ ds.npages * pageSize := Nat.le_mul_of_pos_left _ h.npages
  have hsize : pageSize = 4096 := rfl
  have hchunks : ioChunks 0 4 = [(0, 4)] := by decide
  have hin : ∀ frame, pageAccess frame ds 0 = frame := pageAccess_of_lt (by omega)
  rw [ramDspaceRead, room_eq (by omega) (by omega), if_neg (by omega), hchunks]
  cases hframe : frames k <;> simp [readChunks, ramDspaceReadPage, hin, hframe, pageAlign, hsize]

theorem ramDspaceWrite_endWord (k e : Nat) (h : RingOk buf ds) :
    ramDspaceWrite frames k (leWord e) ds 4 =
      if frames k then (.success, ds.write 4 (leWord e), k + 1) else (.nomem, ds, k + 1) := by
  have htotal := h.total
  have hpage : pageSize ≤ ds.npages * pageSize := Nat.le_mul_of_pos_left _ h.npages
  have hsize : pageSize = 4096 := rfl
  have hchunks : ioChunks 4 4 = [(4, 4)] := by decide
  have hin : ∀ frame, pageAccess frame ds 4 = frame := pageAccess_of_lt (by omega)
  rw [ramDspaceWrite, length_leWord, room_eq (by omega) (by omega), if_neg (by omega), hchunks]
  cases hframe : frames k <;>
    simp [writeChunks, ramDspaceWritePage, hin, hframe, pageAlign, hsize, leWord]

/-- The start word that the header holds. -/
def startWord (ds : RamDspace) : Nat := ofLe (slice ds.bytes 0 4)

theorem startWord_lt (ds : RamDspace) : startWord ds < 2 ^ 32 := by
  have h := ofLe_lt (slice ds.bytes 0 4)
  rwa [length_slice] at h

/-- The number of the first page access that copies data: one more if the start word is read. -/
def firstAccess (buf : RbBuffer) (len : Nat) : Nat := if rbRemainingSize buf < len then 1 else 0

/-- The start index that `rb_write` goes by: its copy, or the word in the header if the copy leaves
too little room. -/
def freshStart (buf : RbBuffer) (ds : RamDspace) (len : Nat) : Nat :=
  if rbRemainingSize buf < len then startWord ds else buf.localStart

/-- Everything `rb_write` can do with a ring. -/
inductive RbResult (buf : RbBuffer) (ds : RamDspace) (str : List UInt8) :
    Err → RbBuffer → RamDspace → Prop
  /-- The start word cannot be read. -/
  | noHeader (hroom : rbRemainingSize buf < str.length) (hframe : frames 0 = false) :
      RbResult buf ds str .invalid buf ds
  /-- There is no room. -/
  | full (buf' : RbBuffer)
      (hbuf : buf' = { buf with localStart := freshStart buf ds str.length })
      (hroom : rbRemainingSize buf' < str.length) : RbResult buf ds str .nomem buf' ds
  /-- A forged start index promises more room than there is. -/
  | forged (buf' : RbBuffer)
      (hbuf : buf' = { buf with localStart := freshStart buf ds str.length })
      (hforged : buf'.localEnd < buf'.localStart)
      (hsize : buf'.size < buf'.localEnd + str.length) : RbResult buf ds str .invalidParam buf' ds
  /-- A page access fails while data is copied. -/
  | copyFailed (buf' : RbBuffer) (ds' : RamDspace) (j : Nat)
      (hbuf : buf' = { buf with localStart := freshStart buf ds str.length })
      (hds : ChangesOnly (InData buf.size) ds ds') (hj : firstAccess buf str.length ≤ j)
      (hframe : frames j = false) (hfirst : j = firstAccess buf str.length → ds' = ds) :
      RbResult buf ds str .nomem buf' ds'
  /-- The page access for the end word fails, after the end index has been moved. -/
  | endFailed (buf' : RbBuffer) (j : Nat)
      (hbuf : buf' = { buf with localStart := freshStart buf ds str.length })
      (hroom : str.length ≤ rbRemainingSize buf') (hlen : str.length ≤ buf.size)
      (hj : firstAccess buf str.length ≤ j) (hframe : frames j = false)
      (hfirst : j = firstAccess buf str.length → str = []) :
      RbResult buf ds str .nomem
        { buf' with localEnd := (buf.localEnd + str.length) % buf.size }
        (ringStore ds buf.size buf.localEnd str)
  /-- The data is stored, and the header says so. -/
  | stored (buf' : RbBuffer)
      (hbuf : buf' = { buf with localStart := freshStart buf ds str.length })
      (hroom : str.length ≤ rbRemainingSize buf') (hlen : str.length ≤ buf.size) :
      RbResult buf ds str .success
        { buf' with localEnd := (buf.localEnd + str.length) % buf.size }
        ((ringStore ds buf.size buf.localEnd str).write 4
          (leWord ((buf.localEnd + str.length) % buf.size)))

theorem rbUpdateLocalStart_eq (k : Nat) (h : RingOk buf ds) :
    rbUpdateLocalStart frames k buf ds =
      if frames k then (.success, { buf with localStart := startWord ds }, ds, k + 1)
      else (.nomem, buf, ds, k + 1) := by
  rw [rbUpdateLocalStart, if_pos h.mode, ramDspaceRead_startWord frames k h]
  cases frames k with
  | false => rfl
  | true => rfl

theorem rbUpdateLocalEnd_eq (k : Nat) (h : RingOk buf ds) :
    rbUpdateLocalEnd frames k buf ds =
      if frames k then (.success, buf, ds.write 4 (leWord buf.localEnd), k + 1)
      else (.nomem, buf, ds, k + 1) := by
  rw [rbUpdateLocalEnd, if_pos h.mode, ramDspaceWrite_endWord frames k _ h]
  cases frames k with
  | false => rfl
  | true => rfl

/-- The search for room fails where the start word is needed and cannot be read. -/
theorem rbFindRoom_noHeader (h : RingOk buf ds) {len : Nat} (hroom : rbRemainingSize buf < len)
    (hframe : frames 0 = false) : rbFindRoom frames buf ds len = (.invalid, buf, 1) := by
  rw [rbFindRoom, if_pos hroom, rbUpdateLocalStart_eq frames 0 h, hframe]
  rfl

/-- Otherwise it goes by the fresh start index. -/
theorem rbFindRoom_header (h : RingOk buf ds) {len : Nat}
    (hframe : ¬(rbRemainingSize buf < len ∧ frames 0 = false)) {buf' : RbBuffer}
    (hbuf : buf' = { buf with localStart := freshStart buf ds len }) :
    rbFindRoom frames buf ds len =
      (if rbRemainingSize buf' < len then .nomem else .success, buf', firstAccess buf len) := by
  by_cases hroom : rbRemainingSize buf < len
  · have htrue : frames 0 = true := by
      cases hcase : frames 0 with
      | false => exact absurd ⟨hroom, hcase⟩ hframe
      | true => rfl
    have hread : rbUpdateLocalStart frames 0 buf ds = (.success, buf', ds, 1) := by
      rw [rbUpdateLocalStart_eq frames 0 h, htrue, hbuf, freshStart, if_pos hroom]
      rfl
    rw [rbFindRoom, if_pos hroom, hread, firstAccess, if_pos hroom]
  · have hsame : buf' = buf := by rw [hbuf, freshStart, if_neg hroom]
    rw [hsame, rbFindRoom, if_neg hroom, if_neg hroom, firstAccess, if_neg hroom]

theorem rbWrite_end (h : RingOk buf ds) {buf' : RbBuffer} {k k' : Nat} (str : List UInt8)
    (hbuf : buf' = { buf with localStart := freshStart buf ds str.length }) (hring : RingOk buf' ds)
    (hlen : str.length ≤ buf.size)
    (hfind : rbFindRoom frames buf ds str.length = (.success, buf', k))
    (hcopy : rbCopyIn frames k buf' ds str =
      .ok (.success, ringStore ds buf.size buf.localEnd str, k')) :
    rbWrite frames buf ds str = .ok
      (if frames k' then
        (.success, { buf' with localEnd := (buf.localEnd + str.length) % buf.size },
          (ringStore ds buf.size buf.localEnd str).write 4
            (leWord ((buf.localEnd + str.length) % buf.size)))
      else
        (.nomem, { buf' with localEnd := (buf.localEnd + str.length) % buf.size },
          ringStore ds buf.size buf.localEnd str)) := by
  have hsize : buf'.size = buf.size := by rw [hbuf]
  have hend : buf'.localEnd = buf.localEnd := by rw [hbuf]
  have hmod : (buf.localEnd + str.length) % buf.size < buf.size :=
    Nat.mod_lt _ (Nat.zero_lt_of_lt h.localEnd)
  have hword : u32 (buf'.localEnd + str.length) % buf'.size =
      (buf.localEnd + str.length) % buf.size := by
    have hlt := h.size_lt
    have hlt' := h.localEnd
    rw [hend, hsize, u32_of_lt (by omega)]
  have hmoved : RingOk { buf' with localEnd := (buf.localEnd + str.length) % buf.size }
      (ringStore ds buf.size buf.localEnd str) :=
    ⟨hring.mode, hring.size, hring.npages, hring.total, hsize ▸ hmod, hring.localStart⟩
  rw [rbWrite, if_neg (not_not.2 h.mode), hfind]
  simp only [hcopy, hword, bind, Except.bind, rbUpdateLocalEnd_eq frames k' hmoved]
  cases frames k' with
  | false => rfl
  | true => rfl

/-- **`rb_write` on a ring**, whatever the contents of the dataspace. -/
theorem rbWrite_result (h : RingOk buf ds) (str : List UInt8) :
    ∃ e buf' ds', rbWrite frames buf ds str = .ok (e, buf', ds') ∧
      RbResult frames buf ds str e buf' ds' := by
  by_cases hheader : rbRemainingSize buf < str.length ∧ frames 0 = false
  · refine ⟨_, _, _, ?_, .noHeader hheader.1 hheader.2⟩
    rw [rbWrite, if_neg (not_not.2 h.mode), rbFindRoom_noHeader frames h hheader.1 hheader.2]
  obtain ⟨buf', hbuf⟩ : ∃ buf' : RbBuffer,
      buf' = { buf with localStart := freshStart buf ds str.length } := ⟨_, rfl⟩
  have hfind := rbFindRoom_header frames h hheader hbuf
  have hring : RingOk buf' ds := by
    rw [hbuf]
    refine ⟨h.mode, h.size, h.npages, h.total, h.localEnd, ?_⟩
    simp only [freshStart]
    split_ifs
    · exact startWord_lt ds
    · exact h.localStart
  have hsize : buf'.size = buf.size := by rw [hbuf]
  have hend : buf'.localEnd = buf.localEnd := by rw [hbuf]
  by_cases hroom : rbRemainingSize buf' < str.length
  · refine ⟨_, _, _, ?_, .full buf' hbuf hroom⟩
    rw [rbWrite, if_neg (not_not.2 h.mode), hfind, if_pos hroom]
  rw [if_neg hroom] at hfind
  rcases rbCopyIn_spec frames (firstAccess buf str.length) hring (Nat.not_lt.1 hroom) with
    ⟨htoo, hforged, hcopy⟩ | ⟨hlen, k', hk', hnext, hcopy | ⟨ds', j, hcopy, hds, hj, hframe, hz⟩⟩
  · refine ⟨_, _, _, ?_, .forged buf' hbuf hforged htoo⟩
    rw [rbWrite, if_neg (not_not.2 h.mode), hfind]
    simp only [hcopy, bind, Except.bind]
    rfl
  · rw [hsize, hend] at hcopy
    rw [hsize] at hlen
    rw [rbWrite_end frames h str hbuf hring hlen hfind hcopy]
    cases hframe : frames k' with
    | false =>
        refine ⟨_, _, _, rfl, .endFailed buf' k' hbuf (Nat.not_lt.1 hroom) hlen hk' hframe ?_⟩
        intro hfirst
        by_contra hne
        have := hnext hne
        omega
    | true => exact ⟨_, _, _, rfl, .stored buf' hbuf (Nat.not_lt.1 hroom) hlen⟩
  · refine ⟨_, _, _, ?_, .copyFailed buf' ds' j hbuf (hsize ▸ hds) hj hframe hz⟩
    rw [rbWrite, if_neg (not_not.2 h.mode), hfind]
    simp only [hcopy, bind, Except.bind]
    rfl

end Writes

/-- `rb_write` returns, whatever the ring: its assertion is on a minimum. -/
theorem rbWrite_returns (frames : Nat → Bool) (buf : RbBuffer) (ds : RamDspace)
    (str : List UInt8) : ∃ result, rbWrite frames buf ds str = .ok result := by
  have hcopy : ∀ k buf, ∃ result, rbCopyIn frames k buf ds str = .ok result := by
    intro k buf
    unfold rbCopyIn
    split_ifs
    · exact ⟨_, rfl⟩
    · dsimp only
      split
      · rw [if_neg (Nat.not_lt.2 (Nat.min_le_left _ _))]
        split_ifs
        · exact ⟨_, rfl⟩
        · exact ⟨_, rfl⟩
      · exact ⟨_, rfl⟩
  unfold rbWrite
  split_ifs
  · exact ⟨_, rfl⟩
  · split
    · rename_i buf' k _
      obtain ⟨⟨error, ds', k'⟩, hresult⟩ := hcopy k buf'
      rw [hresult]
      cases error <;> exact ⟨_, rfl⟩
    · exact ⟨_, rfl⟩

/-! ## A hostile client -/

/-- A notification ring of the process server, and the dataspaces. -/
structure RingState where
  buf : RbBuffer
  spaces : Nat → RamDspace

/-- What happens to a ring: `rb_write` calls, and whatever the client does to the contents. -/
inductive RingEvent where
  | write (str : List UInt8)
  | client (bytes : Nat → UInt8)

/-- Every page access gets its frame. -/
def allFrames : Nat → Bool := fun _ => true

/-- A call of `rb_write` on the ring, with frames to be had. -/
def ringWrite (s : RingState) (str : List UInt8) : Except Failure (Err × RingState) := do
  let (error, buf, ds) ← rbWrite allFrames s.buf (s.spaces s.buf.dataspace) str
  return (error, { buf := buf, spaces := Function.update s.spaces s.buf.dataspace ds })

/-- The effect of one event. -/
def ringStep (s : RingState) : RingEvent → Except Failure RingState
  | .write str => do
      let (_, s) ← ringWrite s str
      return s
  | .client bytes =>
      let ds := s.spaces s.buf.dataspace
      .ok { s with spaces := Function.update s.spaces s.buf.dataspace { ds with bytes := bytes } }

/-- The lengths of the calls are below `2^31`. -/
def RingEvent.Short (_ : RingState) : RingEvent → Prop
  | .write str => str.length < 2 ^ 31
  | .client _ => True

instance (s : RingState) : (e : RingEvent) → Decidable (e.Short s)
  | .write _ => inferInstanceAs (Decidable (_ < _))
  | .client _ => inferInstanceAs (Decidable True)

/-- What a call may do: keep the end index in the data area, write to the data area and to the end
word of its own dataspace, and move the end index only if it succeeds. -/
structure SafeWrite (s : RingState) (error : Err) (s' : RingState) : Prop where
  localEnd : s'.buf.localEnd < s'.buf.size
  size : s'.buf.size = s.buf.size
  dataspace : s'.buf.dataspace = s.buf.dataspace
  own : ChangesOnly (fun i => InData s.buf.size i ∨ InEndWord i)
    (s.spaces s.buf.dataspace) (s'.spaces s.buf.dataspace)
  others : ∀ id, id ≠ s.buf.dataspace → s'.spaces id = s.spaces id
  failed : error ≠ .success → s'.buf.localEnd = s.buf.localEnd

/-- What `rb_write` does, when no page access fails. -/
theorem RbResult.safe {buf buf' : RbBuffer} {ds ds' : RamDspace} {str : List UInt8} {e : Err}
    (h : RingOk buf ds) (hresult : RbResult allFrames buf ds str e buf' ds') :
    RingOk buf' ds' ∧ buf'.size = buf.size ∧ buf'.dataspace = buf.dataspace ∧
      ChangesOnly (fun i => InData buf.size i ∨ InEndWord i) ds ds' ∧
      (e ≠ .success → buf'.localEnd = buf.localEnd) := by
  have hstart : freshStart buf ds str.length < 2 ^ 32 := by
    simp only [freshStart]
    split_ifs
    · exact startWord_lt ds
    · exact h.localStart
  have hsame : RingOk { buf with localStart := freshStart buf ds str.length } ds :=
    ⟨h.mode, h.size, h.npages, h.total, h.localEnd, hstart⟩
  cases hresult with
  | noHeader _ hframe => cases hframe
  | copyFailed _ _ j _ _ _ hframe => cases hframe
  | endFailed _ j _ _ _ _ hframe => cases hframe
  | full _ hbuf => exact hbuf ▸ ⟨hsame, rfl, rfl, .refl _ ds, fun _ => rfl⟩
  | forged _ hbuf => exact hbuf ▸ ⟨hsame, rfl, rfl, .refl _ ds, fun _ => rfl⟩
  | stored _ hbuf _ hlen =>
      have hmod : (buf.localEnd + str.length) % buf.size < buf.size :=
        Nat.mod_lt _ (Nat.zero_lt_of_lt h.localEnd)
      have hdata := ringStore_changesOnly ds h.localEnd hlen
      have hword : ChangesOnly (fun i => InData buf.size i ∨ InEndWord i)
          (ringStore ds buf.size buf.localEnd str)
          ((ringStore ds buf.size buf.localEnd str).write 4
            (leWord ((buf.localEnd + str.length) % buf.size))) :=
        .write fun i hlo hhi => Or.inr ⟨hlo, by rw [length_leWord] at hhi; omega⟩
      rw [hbuf]
      exact ⟨⟨h.mode, h.size, h.npages, h.total, hmod, hstart⟩, rfl, rfl,
        (hdata.mono fun i hi => Or.inl hi).trans hword, fun hne => absurd rfl hne⟩

theorem ringWrite_safe {s : RingState} (h : RingOk s.buf (s.spaces s.buf.dataspace))
    (str : List UInt8) :
    ∃ error s', ringWrite s str = .ok (error, s') ∧ SafeWrite s error s' ∧
      RingOk s'.buf (s'.spaces s'.buf.dataspace) := by
  obtain ⟨e, buf', ds', hwrite, hresult⟩ := rbWrite_result allFrames h str
  obtain ⟨hring, hsize, hid, hchanges, hfailed⟩ := hresult.safe h
  refine ⟨e, ⟨buf', Function.update s.spaces s.buf.dataspace ds'⟩, ?_, ⟨hring.localEnd, hsize, hid,
    ?_, fun id hne => ?_, hfailed⟩, ?_⟩
  · simp only [ringWrite, hwrite]
    rfl
  · simpa using hchanges
  · exact Function.update_of_ne hne _ _
  · simpa [hid] using hring

theorem ringStep_ok {s s' : RingState} {e : RingEvent}
    (h : RingOk s.buf (s.spaces s.buf.dataspace)) (hs : ringStep s e = .ok s') :
    RingOk s'.buf (s'.spaces s'.buf.dataspace) := by
  cases e with
  | write str =>
      obtain ⟨error, s₁, hwrite, _, hring⟩ := ringWrite_safe h str
      simp only [ringStep, hwrite, bind, Except.bind, pure, Except.pure, Except.ok.injEq] at hs
      exact hs ▸ hring
  | client bytes =>
      obtain rfl := Except.ok.inj hs
      exact h.of_npages_eq (by simp)

/-- **A hostile notification buffer.** Take a ring on a dataspace of at least one page and less than
`2^31` bytes. After every sequence of `rb_write` calls and arbitrary changes of the dataspace's
contents by the client, the end index is below the ring's size, and every further call of
`rb_write`, of any length below `2^31`, returns and is safe. -/
theorem rb_write_safe (id : Nat) (spaces : Nat → RamDspace) (hpages : 0 < (spaces id).npages)
    (htotal : (spaces id).npages * pageSize < 2 ^ 31) (evs : List RingEvent) (s : RingState)
    (hrun : Run ringStep RingEvent.Short
      { buf := rbCreate id (spaces id) .writeonly, spaces := spaces } evs s) :
    s.buf.localEnd < s.buf.size ∧ ∀ str : List UInt8, str.length < 2 ^ 31 →
      ∃ error s', ringWrite s str = .ok (error, s') ∧ SafeWrite s error s' := by
  have hring := hrun.invariant (I := fun s => RingOk s.buf (s.spaces s.buf.dataspace))
    (RingOk.create id hpages (Nat.le_of_lt htotal)) fun _ _ _ h _ hs => ringStep_ok h hs
  refine ⟨hring.localEnd, fun str _ => ?_⟩
  obtain ⟨error, s', hwrite, hsafe, _⟩ := ringWrite_safe hring str
  exact ⟨error, s', hwrite, hsafe⟩

/-- A ring on a dataspace of one page: three bytes are written, the client sets every byte of the
dataspace to 255, and the next call is safe. -/
theorem rb_write_safe_tampered :
    ∃ s, Run ringStep RingEvent.Short
        { buf := rbCreate 1 (ramDspaceOatCreate 4096) .writeonly,
          spaces := fun _ => ramDspaceOatCreate 4096 }
        [.write [1, 2, 3], .client fun _ => 255] s ∧
      ∃ error s', ringWrite s (List.replicate 4090 2) = .ok (error, s') ∧
        SafeWrite s error s' := by
  obtain ⟨s, hrun, _⟩ : ∃ s, Run ringStep RingEvent.Short
      { buf := rbCreate 1 (ramDspaceOatCreate 4096) .writeonly,
        spaces := fun _ => ramDspaceOatCreate 4096 }
      [.write [1, 2, 3], .client fun _ => 255] s ∧ s.buf.localEnd = 3 := by
    apply Run.exists_of_exec
    decide +kernel
  obtain ⟨_, hsafe⟩ := rb_write_safe 1 (fun _ => ramDspaceOatCreate 4096) (by decide) (by decide)
    _ s hrun
  exact ⟨s, hrun, hsafe _ (by rw [List.length_replicate]; decide)⟩

end PartitionSeL4.Refos
