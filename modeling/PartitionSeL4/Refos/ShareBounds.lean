import PartitionSeL4.Refos.Share

/-!
# Which bytes a shared ring with a hostile header makes a client touch

`refos_share_read` and `refos_share_write` take one index from the caller and the other one from the
header, which the other side writes. Both are compared with the size of the buffer, although the
ring is `SHARE_METADATA_SIZE` bytes shorter: an index of up to eight bytes behind the end of the
ring passes. The differences are computed in unsigned arithmetic and wrap around for such an index.

* `shareReadCopies`, `shareWriteCopies` — the calls of `memcpy` that a call makes.
* `shareBytes_eq`, `shareStore_eq` — what is read and stored are these copies.
* `share_inside_iff` — they stay inside the ring and the caller's buffer if and only if the indices
  are those of the ring, or nothing is copied up to its end.

A copy of no bytes touches nothing. The two words of the header, which both functions read or
publish, are apart.
-/

namespace PartitionSeL4.Refos

open Lib

/-! ## Copies -/

/-- A call of `memcpy` of `n` bytes: the offset in the shared buffer and in the caller's. -/
structure ShareCopy where
  shared : Nat
  caller : Nat
  n : Nat
  deriving DecidableEq, Repr

/-- The copies of `refos_share_read`. -/
def shareReadCopies (ringBufSize start stop len : Nat) : List ShareCopy :=
  if start ≤ stop then [⟨shareMetadataSize + start, 0, min (stop - start) len⟩]
  else
    let bytesRead := min (u32 (ringBufSize + 2 ^ 32 - start)) len
    let bytesRemain := min (len - bytesRead) stop
    if 0 < bytesRemain then
      [⟨shareMetadataSize + start, 0, bytesRead⟩, ⟨shareMetadataSize, bytesRead, bytesRemain⟩]
    else [⟨shareMetadataSize + start, 0, bytesRead⟩]

/-- The copies of `refos_share_write`. -/
def shareWriteCopies (ringBufSize start stop len : Nat) : List ShareCopy :=
  if stop < start then [⟨shareMetadataSize + stop, 0, len⟩]
  else
    let endBytes := min len (u32 (ringBufSize + 2 ^ 32 - stop))
    if endBytes < len then
      [⟨shareMetadataSize + stop, 0, endBytes⟩, ⟨shareMetadataSize, endBytes, len - endBytes⟩]
    else [⟨shareMetadataSize + stop, 0, endBytes⟩]

/-- The copy touches the bytes of the ring and the caller's buffer only. -/
def ShareCopy.Inside (bufSize len : Nat) (c : ShareCopy) : Prop :=
  c.n = 0 ∨ shareMetadataSize ≤ c.shared ∧ c.shared + c.n ≤ bufSize ∧ c.caller + c.n ≤ len

theorem shareBytes_eq (ds : RamDspace) (ringBufSize start stop len : Nat) :
    shareBytes ds ringBufSize start stop len =
      (shareReadCopies ringBufSize start stop len).flatMap
        fun c => slice ds.bytes c.shared c.n := by
  rw [shareBytes, shareReadCopies]
  by_cases hle : start ≤ stop
  · simp [hle]
  · rw [if_neg hle, if_neg hle]
    dsimp only
    by_cases hrest : 0 < min (len - min (u32 (ringBufSize + 2 ^ 32 - start)) len) stop
    · rw [if_pos hrest]
      simp only [List.flatMap_cons, List.flatMap_nil, List.append_nil]
    · rw [if_neg hrest, Nat.eq_zero_of_not_pos hrest]
      simp only [List.flatMap_cons, List.flatMap_nil, slice_zero]

theorem shareStore_eq (ds : RamDspace) (ringBufSize start stop : Nat) (src : List UInt8) :
    shareStore ds ringBufSize start stop src =
      (shareWriteCopies ringBufSize start stop src.length).foldl
        (fun ds c => ds.write c.shared ((src.drop c.caller).take c.n)) ds := by
  rw [shareStore, shareWriteCopies]
  by_cases hlt : stop < start
  · simp [hlt]
  · rw [if_neg hlt, if_neg hlt]
    dsimp only
    split_ifs with hrest
    · simp only [List.foldl_cons, List.foldl_nil, List.drop_zero]
      rw [← List.length_drop, List.take_length]
    · rfl

/-! ## The property and the condition -/

/-- A read moves the caller's index to one of the ring and copies from the ring only. -/
def ReadRight (ds : RamDspace) (bufSize start len : Nat) : Prop :=
  ∀ dest start' ds', refosShareRead ds bufSize start len = some (dest, start', ds') →
    start' < bufSize - shareMetadataSize ∧
      ∀ c ∈ shareReadCopies (bufSize - shareMetadataSize) start (refosShareGetEnd ds) len,
        c.Inside bufSize len

/-- A write does so with the other index, or fails and changes nothing. -/
def WriteRight (ds : RamDspace) (bufSize stop : Nat) (src : List UInt8) : Prop :=
  ∀ ok stop' ds', refosShareWrite ds bufSize stop src = (ok, stop', ds') →
    if ok then
      stop' < bufSize - shareMetadataSize ∧
        ∀ c ∈ shareWriteCopies (bufSize - shareMetadataSize) (refosShareGetStart ds) stop
            src.length, c.Inside bufSize src.length
    else stop' = stop ∧ ds' = ds

/-- A read that is refused, or reads nothing, or starts in the ring and does not get past its end:
the end index is one of the ring, or the read is short. -/
def ReadInRing (ds : RamDspace) (bufSize start len : Nat) : Prop :=
  let stop := refosShareGetEnd ds
  let ringBufSize := bufSize - shareMetadataSize
  refosShareValidateParams bufSize start stop = false ∨ len = 0 ∨ start = stop ∨
    start ≤ ringBufSize ∧ (stop ≤ ringBufSize ∨ start + len ≤ ringBufSize)

/-- A write that is refused, or writes nothing, or ends in the ring in front of the start index, or
begins in it behind the start index; where the latter is 0 and the former the size of the ring, all
the room there is looks free. -/
def WriteInRing (ds : RamDspace) (bufSize stop len : Nat) : Prop :=
  let start := refosShareGetStart ds
  let ringBufSize := bufSize - shareMetadataSize
  refosShareValidateParams bufSize start stop = false ∨
    refosShareWriteRemainingSize start stop ringBufSize < len ∨ len = 0 ∨
    stop < start ∧ stop + len ≤ ringBufSize ∨
    start ≤ stop ∧ stop ≤ ringBufSize ∧ (start = 0 → stop = ringBufSize → len ≤ ringBufSize)

instance (ds : RamDspace) (bufSize start len : Nat) : Decidable (ReadInRing ds bufSize start len) :=
  inferInstanceAs (Decidable (_ ∨ _))

instance (ds : RamDspace) (bufSize stop len : Nat) : Decidable (WriteInRing ds bufSize stop len) :=
  inferInstanceAs (Decidable (_ ∨ _))

/-! ## Reads and writes -/

section Copies

variable {ringBufSize start stop len : Nat}

/-- What the checks leave of an index: it may lie behind the end of the ring by as much as the
header is long. -/
theorem of_validateParams {bufSize : Nat} (h : refosShareValidateParams bufSize start stop = true) :
    shareMetadataSize < bufSize ∧ start ≤ bufSize ∧ stop ≤ bufSize := by
  rw [refosShareValidateParams] at h
  split_ifs at h
  omega

/-- The room from an index to the end of the ring, which wraps around behind it. -/
theorem ringRoom (hring : ringBufSize < 2 ^ 32) (hstart : start ≤ ringBufSize + shareMetadataSize) :
    u32 (ringBufSize + 2 ^ 32 - start) =
      if start ≤ ringBufSize then ringBufSize - start else ringBufSize + 2 ^ 32 - start := by
  have hmeta : shareMetadataSize = 8 := rfl
  split_ifs with hle
  · exact u32_sub hle hring
  · exact u32_of_lt (by omega)

theorem readCopies_inside_iff (hring : ringBufSize + shareMetadataSize < 2 ^ 32)
    (hstart : start ≤ ringBufSize + shareMetadataSize)
    (hstop : stop ≤ ringBufSize + shareMetadataSize) :
    (∀ c ∈ shareReadCopies ringBufSize start stop len,
        c.Inside (ringBufSize + shareMetadataSize) len) ↔
      len = 0 ∨ start = stop ∨
        start ≤ ringBufSize ∧ (stop ≤ ringBufSize ∨ start + len ≤ ringBufSize) := by
  have hmeta : shareMetadataSize = 8 := rfl
  rw [shareReadCopies, ringRoom (by omega) hstart]
  by_cases hle : start ≤ stop
  · rw [if_pos hle]
    simp only [List.mem_singleton, forall_eq, ShareCopy.Inside]
    omega
  · rw [if_neg hle]
    dsimp only
    split_ifs with hin hrest
    · simp only [List.mem_cons, List.not_mem_nil, or_false, forall_eq_or_imp, forall_eq,
        ShareCopy.Inside]
      omega
    · simp only [List.mem_singleton, forall_eq, ShareCopy.Inside]
      omega
    · simp only [List.mem_cons, List.not_mem_nil, or_false, forall_eq_or_imp, forall_eq,
        ShareCopy.Inside]
      omega
    · simp only [List.mem_singleton, forall_eq, ShareCopy.Inside]
      omega

/-- The room that a write sees: the difference of the indices, less one, in front of the start
index; and behind it what is left of the ring, unless the indices are further apart than it is
long. -/
theorem remainingSize_eq (hpos : 0 < ringBufSize) (hring : ringBufSize < 2 ^ 32)
    (hstart : start < 2 ^ 32) (hstop : stop < 2 ^ 32) :
    refosShareWriteRemainingSize start stop ringBufSize =
      if stop < start then start - stop - 1
      else if stop - start < ringBufSize then ringBufSize - 1 - (stop - start)
      else ringBufSize - 1 + 2 ^ 32 - (stop - start) := by
  rw [refosShareWriteRemainingSize]
  by_cases hlt : stop < start
  · rw [if_pos hlt, if_pos hlt, u32_sub (Nat.le_of_lt hlt) hstart, u32_sub (by omega) (by omega)]
  · rw [if_neg hlt, if_neg hlt, u32_sub hpos hring, u32_sub (Nat.le_of_not_lt hlt) hstop]
    by_cases hnear : stop - start < ringBufSize
    · rw [if_pos hnear, u32_sub (by omega) (by omega)]
    · rw [if_neg hnear, u32_of_lt (by omega)]

theorem writeCopies_inside_iff (hpos : 0 < ringBufSize)
    (hring : ringBufSize + shareMetadataSize < 2 ^ 32)
    (hstart : start ≤ ringBufSize + shareMetadataSize)
    (hstop : stop ≤ ringBufSize + shareMetadataSize) (hlen : len < 2 ^ 32)
    (hfits : len ≤ refosShareWriteRemainingSize start stop ringBufSize) :
    (∀ c ∈ shareWriteCopies ringBufSize start stop len,
        c.Inside (ringBufSize + shareMetadataSize) len) ↔
      len = 0 ∨ stop < start ∧ stop + len ≤ ringBufSize ∨
        start ≤ stop ∧ stop ≤ ringBufSize ∧
          (start = 0 → stop = ringBufSize → len ≤ ringBufSize) := by
  have hmeta : shareMetadataSize = 8 := rfl
  rw [remainingSize_eq hpos (by omega) (by omega) (by omega)] at hfits
  rw [shareWriteCopies, ringRoom (by omega) hstop]
  by_cases hlt : stop < start
  · rw [if_pos hlt]
    simp only [List.mem_singleton, forall_eq, ShareCopy.Inside]
    omega
  rw [if_neg hlt] at hfits ⊢
  dsimp only
  by_cases hin : stop ≤ ringBufSize
  · -- the part behind the end goes to the beginning, in front of the start index
    rw [if_pos hin]
    split_ifs at hfits ⊢
    all_goals
      simp only [List.mem_cons, List.not_mem_nil, or_false, forall_eq_or_imp, forall_eq,
        ShareCopy.Inside]
      omega
  · -- behind the end there is room for anything
    rw [if_neg hin]
    split_ifs
    all_goals
      simp only [List.mem_cons, List.not_mem_nil, or_false, forall_eq_or_imp, forall_eq,
        ShareCopy.Inside]
      omega

end Copies

/-- **When a read stays in the ring.** -/
theorem readRight_iff (ds : RamDspace) {bufSize : Nat} (start len : Nat)
    (hsize : bufSize < 2 ^ 32) :
    ReadRight ds bufSize start len ↔ ReadInRing ds bufSize start len := by
  simp only [ReadRight, ReadInRing, refosShareRead]
  cases hvalid : refosShareValidateParams bufSize start (refosShareGetEnd ds) with
  | false => simp
  | true =>
      obtain ⟨hmin, hstart, hstop⟩ := of_validateParams hvalid
      have hbuf : bufSize - shareMetadataSize + shareMetadataSize = bufSize :=
        Nat.sub_add_cancel (Nat.le_of_lt hmin)
      have hcopies := @readCopies_inside_iff (bufSize - shareMetadataSize) start
        (refosShareGetEnd ds) len (by omega) (by omega) (by omega)
      rw [hbuf] at hcopies
      simp only [if_true, Bool.true_eq_false, false_or, ← hcopies,
        u32_sub (Nat.le_of_lt hmin) hsize]
      constructor
      · intro hright
        exact (hright _ _ _ rfl).2
      · rintro hinside dest start' ds' heq
        obtain ⟨-, rfl, -⟩ := Option.some.inj heq
        exact ⟨Nat.mod_lt _ (by omega), hinside⟩

/-- **When a write stays in the ring.** -/
theorem writeRight_iff (ds : RamDspace) {bufSize : Nat} (stop : Nat) {src : List UInt8}
    (hsize : bufSize < 2 ^ 32) (hlen : src.length < 2 ^ 32) :
    WriteRight ds bufSize stop src ↔ WriteInRing ds bufSize stop src.length := by
  simp only [WriteRight, WriteInRing, refosShareWrite]
  cases hvalid : refosShareValidateParams bufSize (refosShareGetStart ds) stop with
  | false =>
      refine iff_of_true ?_ (Or.inl rfl)
      rintro ok stop' ds' heq
      obtain ⟨rfl, rfl, rfl⟩ := heq
      exact ⟨rfl, rfl⟩
  | true =>
      obtain ⟨hmin, hstart, hstop⟩ := of_validateParams hvalid
      have hbuf : bufSize - shareMetadataSize + shareMetadataSize = bufSize :=
        Nat.sub_add_cancel (Nat.le_of_lt hmin)
      simp only [Bool.true_eq_false, if_false, false_or, u32_sub (Nat.le_of_lt hmin) hsize]
      by_cases hfits : refosShareWriteRemainingSize (refosShareGetStart ds) stop
          (bufSize - shareMetadataSize) < src.length
      · rw [if_pos hfits]
        refine iff_of_true ?_ (Or.inl hfits)
        rintro ok stop' ds' heq
        obtain ⟨rfl, rfl, rfl⟩ := heq
        exact ⟨rfl, rfl⟩
      · have hcopies := writeCopies_inside_iff (by omega) (by omega) (by omega) (by omega) hlen
          (Nat.le_of_not_lt hfits)
        rw [hbuf] at hcopies
        rw [if_neg hfits, or_iff_right hfits, ← hcopies]
        constructor
        · intro hright
          exact (hright _ _ _ rfl).2
        · rintro hinside ok stop' ds' heq
          obtain ⟨rfl, rfl, -⟩ := heq
          exact ⟨Nat.mod_lt _ (by omega), hinside⟩

/-- **When the two stay in the ring.** For every buffer size, every index of the caller and every
header: a read, or a write, does what it should if and only if the indices are those of the ring, or
nothing gets to its end. -/
theorem share_inside_iff (ds : RamDspace) {bufSize : Nat} (index len : Nat) {src : List UInt8}
    (hsize : bufSize < 2 ^ 32) (hlen : src.length < 2 ^ 32) :
    (ReadRight ds bufSize index len ↔ ReadInRing ds bufSize index len) ∧
      (WriteRight ds bufSize index src ↔ WriteInRing ds bufSize index src.length) :=
  ⟨readRight_iff ds index len hsize, writeRight_iff ds index hsize hlen⟩

/-- A buffer of 16 bytes whose header says 16 for both indices: the ring has 8 bytes. -/
def hostileHeader : RamDspace :=
  { ramDspaceOatCreate 16 with bytes := fun i => if i = 0 ∨ i = 4 then 16 else 0 }

/-- A read of one byte and a write that is refused stay in the ring of this buffer. -/
theorem share_inside_iff_short :
    ReadInRing hostileHeader 16 7 1 ∧ WriteInRing hostileHeader 16 7 9 ∧
      (ReadRight hostileHeader 16 7 1 ↔ ReadInRing hostileHeader 16 7 1) ∧
      (WriteRight hostileHeader 16 7 [1, 2, 3, 4, 5, 6, 7, 8, 9] ↔
        WriteInRing hostileHeader 16 7 9) := by
  refine ⟨by decide, by decide, ?_⟩
  apply share_inside_iff <;> decide

/-- With valid indices of the caller, a read copies 16 bytes and a write 8 bytes, both across the
end of the buffer. -/
theorem share_outside :
    ¬ReadRight hostileHeader 16 0 16 ∧
      ¬WriteRight hostileHeader 16 7 [1, 2, 3, 4, 5, 6, 7, 8] := by
  rw [readRight_iff _ _ _ (by decide), writeRight_iff _ _ (by decide) (by decide)]
  decide

end PartitionSeL4.Refos
