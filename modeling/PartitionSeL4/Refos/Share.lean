import PartitionSeL4.Refos.Stream

/-!
# `share.c`: a ring with a client at both ends

`refos_share_write` is the counterpart of `refos_share_read` (`Refos.Stream`): the writer keeps the
end index, takes the start index from the header, and refuses what does not fit in front of it. The
buffer need not be a whole number of pages here, only large enough for the header and two bytes.

`share_stream` is the result: whatever the two sides do, the reader gets the stream of the accepted
writes, and a write is accepted exactly when there is room for it.
-/

namespace PartitionSeL4.Refos

open Lib

/-! ## `refos_share_write` -/

/-- `refos_share_get_start` -/
def refosShareGetStart (ds : RamDspace) : Nat := ofLe (slice ds.bytes 0 4)

/-- `refos_share_write_remaining_size`, as the unsigned number it is compared as. -/
def refosShareWriteRemainingSize (start stop bufSize : Nat) : Nat :=
  if stop < start then u32 (u32 (start + 2 ^ 32 - stop) + 2 ^ 32 - 1)
  else u32 (u32 (bufSize + 2 ^ 32 - 1) + 2 ^ 32 - u32 (stop + 2 ^ 32 - start))

/-- The two copies of `refos_share_write`. -/
def shareStore (ds : RamDspace) (ringBufSize start stop : Nat) (src : List UInt8) : RamDspace :=
  if stop < start then ds.write (shareMetadataSize + stop) src
  else
    let endBytes := min src.length (u32 (ringBufSize + 2 ^ 32 - stop))
    let ds := ds.write (shareMetadataSize + stop) (src.take endBytes)
    if endBytes < src.length then ds.write shareMetadataSize (src.drop endBytes) else ds

/-- `refos_share_write` of the bytes `src`: whether it returns 0, the end index and the buffer. -/
def refosShareWrite (ds : RamDspace) (bufSize stop : Nat) (src : List UInt8) :
    Bool × Nat × RamDspace :=
  let start := refosShareGetStart ds
  let ringBufSize := u32 (bufSize + 2 ^ 32 - shareMetadataSize)
  if refosShareValidateParams bufSize start stop = false then (false, stop, ds)
  else if refosShareWriteRemainingSize start stop ringBufSize < src.length then (false, stop, ds)
  else
    let ds := shareStore ds ringBufSize start stop src
    let stop := u32 (stop + src.length) % ringBufSize
    (true, stop, ds.write 4 (leWord stop))

/-! ## Both ends -/

/-- A shared ring: the buffer, the two indices, and the bytes accepted and read so far. -/
structure ShareState where
  ds : RamDspace
  bufSize : Nat
  start : Nat
  stop : Nat
  accepted : List UInt8
  delivered : List UInt8

/-- A new ring in a buffer of `bufSize` bytes. -/
def shareInit (ds : RamDspace) (bufSize : Nat) : ShareState where
  ds := ds
  bufSize := bufSize
  start := 0
  stop := 0
  accepted := []
  delivered := []

/-- The calls of the two sides. -/
inductive ShareEvent where
  | write (src : List UInt8)
  | read (len : Nat)

/-- The effect of one call. -/
def shareStep (s : ShareState) : ShareEvent → Except Failure ShareState
  | .write src =>
      let (ok, stop, ds) := refosShareWrite s.ds s.bufSize s.stop src
      .ok { s with
        ds := ds
        stop := stop
        accepted := if ok then s.accepted ++ src else s.accepted }
  | .read len =>
      match refosShareRead s.ds s.bufSize s.start len with
      | some (dest, start, ds) =>
          .ok { s with ds := ds, start := start, delivered := s.delivered ++ dest }
      | none => .ok s

/-- Lengths are 32-bit words. -/
def ShareEvent.Words (_ : ShareState) : ShareEvent → Prop
  | .write src => src.length < 2 ^ 32
  | .read len => len < 2 ^ 32

namespace ShareState

variable (s : ShareState)

/-- The size of the ring. -/
def ringSize : Nat := s.bufSize - shareMetadataSize

/-- The bytes accepted and not yet read. -/
def unread : List UInt8 := s.accepted.drop s.delivered.length

end ShareState

/-- A write is accepted exactly when there is room for it, and otherwise changes nothing. -/
def WriteOk (s : ShareState) (src : List UInt8) : Prop :=
  ∀ ok stop ds, refosShareWrite s.ds s.bufSize s.stop src = (ok, stop, ds) →
    (ok = true ↔ src.length ≤ s.ringSize - 1 - s.unread.length) ∧
      (ok = false → stop = s.stop ∧ ds = s.ds)

/-! ## The invariant -/

/-- What the two sides agree on. -/
structure ShareInv (s : ShareState) : Prop where
  bufSize_eq : s.ringSize + shareMetadataSize = s.bufSize
  isPrefix : s.delivered <+: s.accepted
  holds : RingHolds s.ds s.ringSize s.start s.stop s.unread

namespace ShareInv

variable {s : ShareState}

theorem init {ds : RamDspace} {bufSize : Nat} (hmin : shareMetadataSize + 2 ≤ bufSize)
    (hmax : bufSize < 2 ^ 31) (hzero : ∀ i < shareMetadataSize, ds.bytes i = 0) :
    ShareInv (shareInit ds bufSize) := by
  refine ⟨?_, List.prefix_refl [], RingHolds.init ds ?_ ?_ hzero⟩
  · show bufSize - shareMetadataSize + shareMetadataSize = bufSize
    omega
  · show bufSize - shareMetadataSize < 2 ^ 31
    omega
  · show 0 < bufSize - shareMetadataSize
    omega

theorem accepted_eq (h : ShareInv s) : s.accepted = s.delivered ++ s.unread := by
  obtain ⟨rest, hrest⟩ := h.isPrefix
  rw [ShareState.unread, ← hrest, List.drop_left]

end ShareInv

theorem ShareState.unread_eq {s : ShareState} {rest : List UInt8}
    (h : s.accepted = s.delivered ++ rest) : s.unread = rest := by
  rw [ShareState.unread, h, List.drop_left]

section Write

variable {ds : RamDspace} {size start stop : Nat} {unread src : List UInt8}

theorem RingHolds.remaining_eq (h : RingHolds ds size start stop unread) :
    refosShareWriteRemainingSize start stop size = size - 1 - unread.length := by
  have hsize := h.size_lt
  have hstart := h.start_lt
  have hstop := h.stop_lt
  have hused := h.ringUsed_eq
  rw [refosShareWriteRemainingSize]
  by_cases hlt : stop < start
  · have hdiff : u32 (start + 2 ^ 32 - stop) = start - stop := u32_sub (by omega) (by omega)
    rw [ringUsed, if_neg (by omega)] at hused
    rw [if_pos hlt, hdiff, u32_sub (by omega) (by omega)]
    omega
  · have hdiff : u32 (stop + 2 ^ 32 - start) = stop - start := u32_sub (by omega) (by omega)
    have hlast : u32 (size + 2 ^ 32 - 1) = size - 1 := u32_sub (by omega) (by omega)
    rw [ringUsed, if_pos (by omega)] at hused
    rw [if_neg hlt, hdiff, hlast, u32_sub (by omega) (by omega)]
    omega

/-- The two copies store the bytes around the end of the ring. -/
theorem RingHolds.shareStore_eq (h : RingHolds ds size start stop unread)
    (hroom : src.length ≤ size - 1 - unread.length) :
    shareStore ds size start stop src = ringStore ds size stop src := by
  have hsize := h.size_lt
  have hstart := h.start_lt
  have hstop := h.stop_lt
  have hused := h.ringUsed_eq
  have hoff : shareMetadataSize + stop = stop + ringbufferMetadataSize := Nat.add_comm _ _
  rw [shareStore, ringStore, hoff]
  by_cases hlt : stop < start
  · -- in front of the start there is no wrapping
    rw [ringUsed, if_neg (by omega)] at hused
    rw [if_pos hlt, List.take_of_length_le (by omega), List.drop_of_length_le (by omega),
      RamDspace.write_nil]
  · rw [if_neg hlt, u32_sub (by omega) (by omega)]
    by_cases hwrap : size - stop < src.length
    · simp only [Nat.min_eq_right (Nat.le_of_lt hwrap), if_pos hwrap]
      rfl
    · simp only [Nat.min_eq_left (Nat.le_of_not_lt hwrap), Nat.lt_irrefl, if_false]
      rw [List.take_length, List.take_of_length_le (by omega), List.drop_of_length_le (by omega),
        RamDspace.write_nil]

theorem RingHolds.refosShareWrite_eq (h : RingHolds ds size start stop unread) {bufSize : Nat}
    (hbuf : size + shareMetadataSize = bufSize) (src : List UInt8) :
    refosShareWrite ds bufSize stop src =
      if src.length ≤ size - 1 - unread.length then
        (true, (stop + src.length) % size,
          (ringStore ds size stop src).write 4 (leWord ((stop + src.length) % size)))
      else (false, stop, ds) := by
  have hmeta : shareMetadataSize = 8 := rfl
  have hsize := h.size_lt
  have hstart := h.start_lt
  have hstop := h.stop_lt
  have hstart' : refosShareGetStart ds = start := h.startWord_eq
  have hring : u32 (bufSize + 2 ^ 32 - shareMetadataSize) = size := by
    rw [u32_sub (by omega) (by omega)]
    omega
  have hvalid : refosShareValidateParams bufSize start stop = true := by
    rw [refosShareValidateParams, if_neg (by omega), if_neg (by omega)]
  simp only [refosShareWrite, hstart', hring, hvalid, h.remaining_eq]
  rw [if_neg (by decide)]
  by_cases hroom : src.length ≤ size - 1 - unread.length
  · rw [if_neg (by omega), if_pos hroom, h.shareStore_eq hroom, u32_of_lt (by omega)]
  · rw [if_pos (by omega), if_neg hroom]

end Write

namespace ShareInv

variable {s : ShareState}

theorem writeOk (h : ShareInv s) (src : List UInt8) : WriteOk s src := by
  intro ok stop ds hwrite
  rw [h.holds.refosShareWrite_eq h.bufSize_eq src] at hwrite
  split_ifs at hwrite with hroom
  · cases hwrite
    simp [hroom]
  · cases hwrite
    simp [hroom]

theorem write (h : ShareInv s) (src : List UInt8) :
    ∃ s', shareStep s (.write src) = .ok s' ∧ ShareInv s' := by
  simp only [shareStep, h.holds.refosShareWrite_eq h.bufSize_eq src]
  by_cases hroom : src.length ≤ s.ringSize - 1 - s.unread.length
  · simp only [if_pos hroom]
    refine ⟨_, rfl, h.bufSize_eq, h.isPrefix.trans (List.prefix_append _ _), ?_⟩
    have hlt := h.holds.unread_lt
    have hfit : s.unread.length + src.length < s.ringSize := by omega
    have hunread : ShareState.unread { s with accepted := s.accepted ++ src } =
        s.unread ++ src := by
      refine ShareState.unread_eq ?_
      show s.accepted ++ src = s.delivered ++ (s.unread ++ src)
      rw [← List.append_assoc, ← h.accepted_eq]
    have hstored := h.holds.store hfit
    rw [← hunread] at hstored
    exact hstored
  · simp only [if_neg hroom]
    exact ⟨s, rfl, h⟩

theorem read (h : ShareInv s) (len : Nat) :
    ∃ s', shareStep s (.read len) = .ok s' ∧ ShareInv s' := by
  have hmin : min len s.unread.length ≤ s.unread.length := Nat.min_le_right _ _
  have haccepted : s.accepted = s.delivered ++ s.unread.take (min len s.unread.length) ++
      s.unread.drop (min len s.unread.length) := by
    rw [List.append_assoc, List.take_append_drop]
    exact h.accepted_eq
  obtain ⟨s', hs'⟩ : ∃ s' : ShareState, s' = { s with
    ds := s.ds.write 0 (leWord ((s.start + min len s.unread.length) % s.ringSize))
    start := (s.start + min len s.unread.length) % s.ringSize
    delivered := s.delivered ++ s.unread.take (min len s.unread.length) } := ⟨_, rfl⟩
  have hrest : s'.accepted = s'.delivered ++ s.unread.drop (min len s.unread.length) := by
    rw [hs']
    exact haccepted
  refine ⟨s', ?_, ?_, ⟨_, hrest.symm⟩, ?_⟩
  · simp only [shareStep, h.holds.refosShareRead_eq h.bufSize_eq len, hs']
  · rw [hs']
    exact h.bufSize_eq
  · rw [ShareState.unread_eq hrest, hs']
    exact h.holds.read hmin

theorem step (h : ShareInv s) (e : ShareEvent) : ∃ s', shareStep s e = .ok s' ∧ ShareInv s' := by
  cases e with
  | write src => exact h.write src
  | read len => exact h.read len

end ShareInv

/-- **The shared ring.** Take a buffer of at least the header and two bytes, with a zeroed header.
In every run of `refos_share_write` and `refos_share_read` calls the bytes read are a prefix of the
bytes accepted; and a further write is accepted exactly when its length is at most the free space,
and changes nothing otherwise. Every call returns. -/
theorem share_stream (ds : RamDspace) (bufSize : Nat) (hmin : shareMetadataSize + 2 ≤ bufSize)
    (hmax : bufSize < 2 ^ 31) (hzero : ∀ i < shareMetadataSize, ds.bytes i = 0)
    (evs : List ShareEvent) (s : ShareState)
    (hrun : Run shareStep ShareEvent.Words (shareInit ds bufSize) evs s) :
    s.delivered <+: s.accepted ∧ (∀ src, src.length < 2 ^ 32 → WriteOk s src) ∧
      ∀ e, ∃ s', shareStep s e = .ok s' := by
  have hinv : ShareInv s := by
    refine hrun.invariant (ShareInv.init hmin hmax hzero) fun t e u h _ hu => ?_
    obtain ⟨u', hu', hinv⟩ := h.step e
    rw [hu'] at hu
    exact Except.ok.inj hu ▸ hinv
  refine ⟨hinv.isPrefix, fun src _ => hinv.writeOk src, fun e => ?_⟩
  obtain ⟨s', hs', _⟩ := hinv.step e
  exact ⟨s', hs'⟩

/-- A run in the smallest buffer: one byte goes through the ring, twice. -/
theorem share_stream_smallest :
    ∃ s, Run shareStep ShareEvent.Words (shareInit (ramDspaceOatCreate 4096) 10)
        [.write [7], .read 5, .write [8], .write [9]] s ∧
      s.delivered <+: s.accepted ∧ (∀ src, src.length < 2 ^ 32 → WriteOk s src) ∧
      ∀ e, ∃ s', shareStep s e = .ok s' := by
  have hinit : ShareInv (shareInit (ramDspaceOatCreate 4096) 10) :=
    ShareInv.init (by decide) (by decide) fun _ _ => rfl
  have hbyte : ∀ (s : ShareState) (b : UInt8), ShareEvent.Words s (.write [b]) := by
    intro s b
    show 1 < 2 ^ 32
    decide
  have hfive : ∀ s, ShareEvent.Words s (.read 5) := by
    intro s
    show 5 < 2 ^ 32
    decide
  obtain ⟨s₁, hs₁, h₁⟩ := hinit.step (.write [7])
  obtain ⟨s₂, hs₂, h₂⟩ := h₁.step (.read 5)
  obtain ⟨s₃, hs₃, h₃⟩ := h₂.step (.write [8])
  obtain ⟨s₄, hs₄, _⟩ := h₃.step (.write [9])
  have hrun : Run shareStep ShareEvent.Words (shareInit (ramDspaceOatCreate 4096) 10)
      [.write [7], .read 5, .write [8], .write [9]] s₄ :=
    .snoc (.snoc (.snoc (.snoc .nil (hbyte _ 7) hs₁) (hfive _) hs₂) (hbyte _ 8) hs₃) (hbyte _ 9) hs₄
  exact ⟨s₄, hrun, share_stream _ 10 (by decide) (by decide) (fun _ _ => rfl) _ s₄ hrun⟩

end PartitionSeL4.Refos
