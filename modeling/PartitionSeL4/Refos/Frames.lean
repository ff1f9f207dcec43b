import PartitionSeL4.Refos.Dataspace

/-!
# `ram_dspace_read` and `ram_dspace_write`, frame by frame

The contents of a dataspace lie in frames of one page each. A call cuts its block at the page
boundaries; every piece goes through a helper that looks up the frame of the offset and computes the
place in the frame anew. Here the loops are written with their cursors. `start`, `end` and
`bufOffset` are `int`s that meet unsigned operands in every comparison, so that they are taken as
32-bit words.

* `writeFrom_flat` and `readFrom_flat`: the loops end, and do to the flat contents what
  `writeChunks` and `readChunks` do;
* `dataspace_read_write`: what is written is read, and what is not written is as before;
* `dataspace_bounds_iff`: when calls outside the dataspace are refused. The room behind the offset
  is a difference in 32 bits. An offset behind the end has a lot of it: the call finds no page, or
  has nothing to do because the end of the block wraps around as well.
-/

namespace PartitionSeL4.Refos

open Lib

/-- A dataspace with its frames: `frame i j` is byte `j` of page `i`. A frame that is not allocated
yet will be zero. -/
structure FrameDspace where
  npages : Nat
  frame : Nat → Nat → UInt8

/-- The contents as one array. -/
def FrameDspace.flat (dataspace : FrameDspace) : RamDspace where
  npages := dataspace.npages
  bytes i := dataspace.frame (i / pageSize) (i % pageSize)

/-- `npages * REFOS_PAGE_SIZE`, without a limit of 32 bits. -/
def FrameDspace.size (dataspace : FrameDspace) : Nat := dataspace.npages * pageSize

/-! ## The functions -/

/-- `procserv_frame_write`; `mapped` says whether the frame can be mapped. -/
def procservFrameWrite (mapped : Bool) (frame : Nat → UInt8) (src : List UInt8) (offset : Nat) :
    Err × (Nat → UInt8) :=
  if pageSize < u32 (offset + src.length) then (.invalidParam, frame)
  else if !mapped then (.nomem, frame)
  else (.success, blit frame offset src)

/-- `procserv_frame_read` -/
def procservFrameRead (mapped : Bool) (frame : Nat → UInt8) (len offset : Nat) :
    Err × List UInt8 :=
  if pageSize < u32 (offset + len) then (.invalidParam, [])
  else if !mapped then (.nomem, [])
  else (.success, slice frame offset len)

/-- `ram_dspace_write_page`; `frame` says whether the frame can be had and mapped. -/
def writeFramePage (frame : Bool) (buf : List UInt8) (dataspace : FrameDspace) (offset : Nat) :
    Err × FrameDspace :=
  let skipBytes := offset - pageAlign offset
  let idx := offset / pageSize
  if dataspace.npages ≤ idx then (.nomem, dataspace)
  else
    let (error, contents) := procservFrameWrite frame (dataspace.frame idx)
      (buf.take (pageSize - skipBytes)) skipBytes
    (error, { dataspace with frame := Function.update dataspace.frame idx contents })

/-- `ram_dspace_read_page` -/
def readFramePage (frame : Bool) (len : Nat) (dataspace : FrameDspace) (offset : Nat) :
    Err × List UInt8 :=
  let skipBytes := offset - pageAlign offset
  let idx := offset / pageSize
  if dataspace.npages ≤ idx then (.nomem, [])
  else
    procservFrameRead frame (dataspace.frame idx) (min len (pageSize - skipBytes)) skipBytes

/-- The loop of `ram_dspace_write`, up to `stop`. `none` if the loop is not over when the fuel is
used up. -/
def writeFrom (frames : Nat → Bool) (buf : List UInt8) (stop : Nat) :
    Nat → Nat → Nat → Nat → FrameDspace → Option (Err × FrameDspace × Nat)
  | 0, _, _, _, _ => none
  | fuel + 1, k, start, bufOffset, dataspace =>
      if start < stop then
        let stopHere := min (u32 (pageAlign start + pageSize)) stop
        let len := u32 (stopHere + 2 ^ 32 - start)
        match writeFramePage (frames k) ((buf.drop bufOffset).take len) dataspace start with
        | (.success, dataspace) =>
            writeFrom frames buf stop fuel (k + 1) stopHere (u32 (bufOffset + len)) dataspace
        | (error, dataspace) => some (error, dataspace, k + 1)
      else some (.success, dataspace, k)

/-- The loop of `ram_dspace_read`; `buf` is the memory behind the caller's pointer. -/
def readFrom (frames : Nat → Bool) (dataspace : FrameDspace) (stop : Nat) :
    Nat → Nat → Nat → Nat → (Nat → UInt8) → Option (Err × (Nat → UInt8) × Nat)
  | 0, _, _, _, _ => none
  | fuel + 1, k, start, bufOffset, buf =>
      if start < stop then
        let stopHere := min (u32 (pageAlign start + pageSize)) stop
        let len := u32 (stopHere + 2 ^ 32 - start)
        match readFramePage (frames k) len dataspace start with
        | (.success, page) =>
            readFrom frames dataspace stop fuel (k + 1) stopHere (u32 (bufOffset + len))
              (blit buf bufOffset page)
        | (error, _) => some (error, buf, k + 1)
      else some (.success, buf, k)

/-- More rounds than there are pages in 32 bits. -/
def ioFuel : Nat := 2 ^ 20 + 2

/-- The room behind the offset, as the calls compute it. -/
def FrameDspace.room (dataspace : FrameDspace) (offset : Nat) : Nat :=
  u32 (u32 (dataspace.npages * pageSize) + 2 ^ 32 - offset)

/-- `ram_dspace_write` of the bytes of `buf`. -/
def writeFrames (frames : Nat → Bool) (k : Nat) (buf : List UInt8) (dataspace : FrameDspace)
    (offset : Nat) : Option (Err × FrameDspace × Nat) :=
  if dataspace.room offset < buf.length then some (.invalidParam, dataspace, k)
  else writeFrom frames buf (u32 (offset + buf.length)) ioFuel k offset 0 dataspace

/-- `ram_dspace_read` of `len` bytes to `buf`. -/
def readFrames (frames : Nat → Bool) (k : Nat) (buf : Nat → UInt8) (len : Nat)
    (dataspace : FrameDspace) (offset : Nat) : Option (Err × (Nat → UInt8) × Nat) :=
  if dataspace.room offset < len then some (.invalidParam, buf, k)
  else readFrom frames dataspace (u32 (offset + len)) ioFuel k offset 0 buf

/-! ## One page -/

section Page

variable {dataspace : FrameDspace} {offset : Nat}

@[simp] theorem flat_npages : dataspace.flat.npages = dataspace.npages := rfl

theorem skipBytes_eq (offset : Nat) : offset - pageAlign offset = offset % pageSize := by
  have := Nat.mod_le offset pageSize
  simp only [pageAlign]
  omega

/-- A block that stays in one frame is written there as it is in the flat contents. -/
theorem flat_update {buf : List UInt8} (h : offset % pageSize + buf.length ≤ pageSize) :
    FrameDspace.flat
        { dataspace with
          frame := Function.update dataspace.frame (offset / pageSize)
            (blit (dataspace.frame (offset / pageSize)) (offset % pageSize) buf) } =
      dataspace.flat.write offset buf := by
  simp only [FrameDspace.flat, RamDspace.write]
  congr 1
  funext i
  have hsplit := Nat.div_add_mod i pageSize
  have hsplit' := Nat.div_add_mod offset pageSize
  have hmod := Nat.mod_lt i (show 0 < pageSize by decide)
  by_cases hpage : i / pageSize = offset / pageSize
  · rw [hpage] at hsplit ⊢
    rw [Function.update_self]
    simp only [blit]
    have hle : offset % pageSize ≤ i % pageSize ↔ offset ≤ i := by omega
    have hsub : i % pageSize - offset % pageSize = i - offset := by omega
    simp only [hle, hsub, hpage]
  · -- another page
    have hout : i < offset ∨ offset + buf.length ≤ i := by
      rcases Nat.lt_or_gt_of_ne hpage with hlt | hlt
      · have hmul := Nat.mul_le_mul_left pageSize (Nat.succ_le_of_lt hlt)
        rw [Nat.mul_succ] at hmul
        omega
      · have hmul := Nat.mul_le_mul_left pageSize (Nat.succ_le_of_lt hlt)
        rw [Nat.mul_succ] at hmul
        omega
    rw [Function.update_of_ne hpage, blit_of_outside _ _ _ hout]

/-- A block that stays in one frame is read there as it is in the flat contents. -/
theorem slice_frame {len : Nat} (h : offset % pageSize + len ≤ pageSize) :
    slice (dataspace.frame (offset / pageSize)) (offset % pageSize) len =
      slice dataspace.flat.bytes offset len := by
  refine List.map_congr_left fun j hj => ?_
  have hj' := List.mem_range.1 hj
  have hsplit := Nat.div_add_mod offset pageSize
  have hdiv : (offset + j) / pageSize = offset / pageSize := by
    simp only [pageSize] at *
    omega
  have hmod : (offset + j) % pageSize = offset % pageSize + j := by
    simp only [pageSize] at *
    omega
  simp only [FrameDspace.flat, hdiv, hmod]

theorem writeFramePage_flat (frame : Bool) (buf : List UInt8) :
    ((writeFramePage frame buf dataspace offset).1,
        (writeFramePage frame buf dataspace offset).2.flat) =
      ramDspaceWritePage frame buf dataspace.flat offset := by
  have hmod := Nat.mod_lt offset (show 0 < pageSize by decide)
  have hlen : (buf.take (pageSize - offset % pageSize)).length ≤ pageSize - offset % pageSize :=
    List.length_take_le _ _
  have hcheck : ¬pageSize <
      u32 (offset % pageSize + (buf.take (pageSize - offset % pageSize)).length) := by
    have hle := Nat.mod_le (offset % pageSize + (buf.take (pageSize - offset % pageSize)).length)
      (2 ^ 32)
    rw [u32]
    omega
  rw [writeFramePage, ramDspaceWritePage, pageAccess, flat_npages, skipBytes_eq]
  by_cases hidx : dataspace.npages ≤ offset / pageSize
  · simp only [hidx, if_true]
    rfl
  · simp only [hidx, if_false, procservFrameWrite, hcheck]
    cases frame with
    | false => simp
    | true =>
        simp only [Bool.not_true, Bool.false_eq_true, if_false, if_true]
        rw [flat_update (by omega)]

theorem readFramePage_flat (frame : Bool) (len : Nat) :
    readFramePage frame len dataspace offset =
      ramDspaceReadPage frame len dataspace.flat offset := by
  have hmod := Nat.mod_lt offset (show 0 < pageSize by decide)
  have hcheck : ¬pageSize < u32 (offset % pageSize + min len (pageSize - offset % pageSize)) := by
    have hle := Nat.mod_le (offset % pageSize + min len (pageSize - offset % pageSize)) (2 ^ 32)
    rw [u32]
    omega
  rw [readFramePage, ramDspaceReadPage, pageAccess, flat_npages, skipBytes_eq]
  by_cases hidx : dataspace.npages ≤ offset / pageSize
  · simp only [hidx, if_true]
    rfl
  · simp only [hidx, if_false, procservFrameRead, hcheck]
    cases frame with
    | false => simp
    | true =>
        simp only [Bool.not_true, Bool.false_eq_true, if_false, if_true]
        rw [slice_frame (by omega)]

end Page

/-! ## The loops -/

section Loops

variable (frames : Nat → Bool) {stop fuel start : Nat}

/-- Enough fuel for the rounds that are left. -/
def Fuelled (stop fuel start : Nat) : Prop :=
  0 < fuel ∧ (start < stop → stop + pageSize ≤ pageAlign start + fuel * pageSize)

theorem Fuelled.next {n : Nat} (h : Fuelled stop (fuel + 1) start) (hlt : start < stop)
    (hnext : start + n = stop ∨ start + n = pageAlign start + pageSize) :
    Fuelled stop fuel (start + n) := by
  have hfuel := h.2 hlt
  have halign : pageAlign start ≤ start := Nat.sub_le _ _
  rw [Nat.succ_mul] at hfuel
  constructor
  · by_contra hzero
    obtain rfl : fuel = 0 := by omega
    omega
  · intro hmore
    rcases hnext with hdone | hnext
    · omega
    · have halign' : pageAlign (start + n) = start + n := by
        rw [hnext, pageAlign, pageAlign]
        simp only [pageSize]
        omega
      omega

/-- The result of a loop, with the flat contents. -/
def flatResult (r : Err × FrameDspace × Nat) : Err × RamDspace × Nat := (r.1, r.2.1.flat, r.2.2)

/-- The loop of `ram_dspace_write` ends, and does to the flat contents what `writeChunks` does. -/
theorem writeFrom_flat (buf : List UInt8) (hstop : stop < 2 ^ 32 - pageSize)
    (hfuel : Fuelled stop fuel start) (k : Nat) {bufOffset : Nat} (hle : start ≤ stop)
    (hbuf : bufOffset + (stop - start) < 2 ^ 32) (dataspace : FrameDspace) :
    (writeFrom frames buf stop fuel k start bufOffset dataspace).map flatResult =
      some (writeChunks frames (pageChunks fuel start stop) k (buf.drop bufOffset)
        dataspace.flat) := by
  induction fuel generalizing k start bufOffset dataspace with
  | zero => exact absurd hfuel.1 (Nat.lt_irrefl 0)
  | succ fuel ih =>
      rw [writeFrom, pageChunks]
      by_cases hlt : start < stop
      · obtain ⟨n, _, _, hend, hmin, hlen, hnext⟩ := chunk_step hlt hstop
        simp only [hmin] at hlen
        simp only [hlt, if_true, hmin, hlen, writeChunks]
        rw [← writeFramePage_flat (frames k) ((buf.drop bufOffset).take n)]
        cases hwrite : writeFramePage (frames k) ((buf.drop bufOffset).take n) dataspace start with
        | mk error dataspace' =>
            cases error with
            | success =>
                have hcursor : u32 (bufOffset + n) = bufOffset + n := u32_of_lt (by omega)
                simp only [hcursor, List.drop_drop]
                exact ih (hfuel.next hlt hnext) (k + 1) hend (by omega) dataspace'
            | _ => rfl
      · simp only [hlt, if_false]
        rfl

theorem length_of_readPage {frame : Bool} {n : Nat} {dataspace : RamDspace} {page : List UInt8}
    (hpage : n ≤ pageSize - start % pageSize)
    (h : ramDspaceReadPage frame n dataspace start = (.success, page)) : page.length = n := by
  rw [ramDspaceReadPage, skipBytes_eq, Nat.min_eq_left hpage] at h
  split_ifs at h
  · obtain rfl := (Prod.mk.inj h).2
    exact length_slice ..
  · cases (Prod.mk.inj h).1

/-- The loop of `ram_dspace_read` ends, and copies to the caller's buffer what `readChunks`
reads. -/
theorem readFrom_flat (dataspace : FrameDspace) (out : Nat → UInt8)
    (hstop : stop < 2 ^ 32 - pageSize) (hfuel : Fuelled stop fuel start) (k : Nat)
    (buf : List UInt8) (hle : start ≤ stop) (hbuf : buf.length + (stop - start) < 2 ^ 32) :
    readFrom frames dataspace stop fuel k start buf.length (blit out 0 buf) =
      some ((readChunks frames (pageChunks fuel start stop) k buf dataspace.flat).1,
        blit out 0 (readChunks frames (pageChunks fuel start stop) k buf dataspace.flat).2.1,
        (readChunks frames (pageChunks fuel start stop) k buf dataspace.flat).2.2) := by
  induction fuel generalizing k start buf with
  | zero => exact absurd hfuel.1 (Nat.lt_irrefl 0)
  | succ fuel ih =>
      rw [readFrom, pageChunks]
      by_cases hlt : start < stop
      · obtain ⟨n, _, hpage, hend, hmin, hlen, hnext⟩ := chunk_step hlt hstop
        simp only [hmin] at hlen
        simp only [hlt, if_true, hmin, hlen, readChunks, readFramePage_flat]
        cases hread : ramDspaceReadPage (frames k) n dataspace.flat start with
        | mk error page =>
            cases error with
            | success =>
                have hn := length_of_readPage hpage hread
                have hcursor : u32 (buf.length + n) = (buf ++ page).length := by
                  rw [List.length_append, hn]
                  exact u32_of_lt (by omega)
                have hout : blit (blit out 0 buf) buf.length page = blit out 0 (buf ++ page) := by
                  rw [blit_append, Nat.zero_add]
                simp only [hcursor, hout]
                refine ih (hfuel.next hlt hnext) (k + 1) (buf ++ page) hend ?_
                rw [List.length_append, hn]
                omega
            | _ => rfl
      · simp only [hlt, if_false]
        rfl

end Loops

/-! ## Calls inside the dataspace -/

section Inside

variable (frames : Nat → Bool) (k : Nat) (dataspace : FrameDspace) (offset : Nat)

theorem fuelled_ioFuel {stop : Nat} (hstop : stop < 2 ^ 32 - pageSize) (start : Nat) :
    Fuelled stop ioFuel start := by
  refine ⟨by decide, fun _ => ?_⟩
  have hfuel : ioFuel * pageSize = 2 ^ 32 + 2 * pageSize := by decide
  rw [hfuel]
  omega

theorem ioChunks_eq (offset len : Nat) :
    ioChunks offset len = pageChunks ioFuel offset (u32 (offset + len)) := rfl

theorem writeFrames_flat (buf : List UInt8) (hfit : offset + buf.length < 2 ^ 32 - pageSize) :
    (writeFrames frames k buf dataspace offset).map flatResult =
      some (ramDspaceWrite frames k buf dataspace.flat offset) := by
  have hstop : u32 (offset + buf.length) = offset + buf.length := u32_of_lt (by omega)
  have hroom : dataspace.room offset =
      u32 (ramDspaceGetSize dataspace.flat + 2 ^ 32 - offset) := rfl
  rw [writeFrames, ramDspaceWrite, hroom, ioChunks_eq, hstop]
  split_ifs
  · rfl
  · exact writeFrom_flat frames buf hfit (fuelled_ioFuel hfit offset) k (by omega) (by omega)
      dataspace

theorem readFrames_flat (out : Nat → UInt8) {len : Nat}
    (hfit : offset + len < 2 ^ 32 - pageSize) :
    readFrames frames k out len dataspace offset =
      some ((ramDspaceRead frames k len dataspace.flat offset).1,
        blit out 0 (ramDspaceRead frames k len dataspace.flat offset).2.1,
        (ramDspaceRead frames k len dataspace.flat offset).2.2) := by
  have hstop : u32 (offset + len) = offset + len := u32_of_lt (by omega)
  have hroom : dataspace.room offset =
      u32 (ramDspaceGetSize dataspace.flat + 2 ^ 32 - offset) := rfl
  rw [readFrames, ramDspaceRead, hroom, ioChunks_eq, hstop]
  split_ifs
  · simp only [blit_nil]
  · have hread := readFrom_flat frames dataspace out hfit (fuelled_ioFuel hfit offset) k []
      (by omega) (by rw [List.length_nil]; omega)
    rw [List.length_nil, blit_nil] at hread
    exact hread

/-- **Writing inside a dataspace**, where every frame can be had. -/
theorem writeFrames_inside (hframes : ∀ j, frames j = true) (buf : List UInt8)
    (hfit : offset + buf.length ≤ dataspace.size) (hsize : dataspace.size < 2 ^ 32 - pageSize) :
    ∃ written k', writeFrames frames k buf dataspace offset = some (.success, written, k') ∧
      written.flat = dataspace.flat.write offset buf := by
  have hflat := writeFrames_flat frames k dataspace offset buf (by omega)
  obtain ⟨k', _, _, hdone | ⟨_, j, _, _, hframe, _⟩⟩ :=
    ramDspaceWrite_spec frames k buf dataspace.flat offset hfit hsize
  · rw [hdone] at hflat
    obtain ⟨⟨error, written, k₁⟩, hwrite, hresult⟩ := Option.map_eq_some_iff.1 hflat
    simp only [flatResult, Prod.mk.injEq] at hresult
    obtain ⟨rfl, hwritten, rfl⟩ := hresult
    exact ⟨written, k₁, hwrite, hwritten⟩
  · rw [hframes j] at hframe
    cases hframe

/-- **Reading inside a dataspace**, where every frame can be had. -/
theorem readFrames_inside (hframes : ∀ j, frames j = true) (out : Nat → UInt8) {len : Nat}
    (hfit : offset + len ≤ dataspace.size) (hsize : dataspace.size < 2 ^ 32 - pageSize) :
    ∃ k', readFrames frames k out len dataspace offset =
      some (.success, blit out 0 (slice dataspace.flat.bytes offset len), k') := by
  rw [readFrames_flat frames k dataspace offset out (by omega)]
  obtain ⟨k', _, hdone | ⟨_, j, _, _, hframe⟩⟩ :=
    ramDspaceRead_spec frames k dataspace.flat hfit hsize
  · rw [hdone]
    exact ⟨k', rfl⟩
  · rw [hframes j] at hframe
    cases hframe

end Inside

/-- **Reading and writing across pages.** Inside a dataspace of up to 2 GiB, where every frame can
be had: a write succeeds, and a read of the same range behind it gives the bytes written. A read of
any range succeeds, before and after the write, and gives the same byte at every place outside the
range written. `out` is the memory behind the reader's pointer. -/
theorem dataspace_read_write (frames : Nat → Bool) (hframes : ∀ j, frames j = true)
    (dataspace : FrameDspace) (hsize : dataspace.size ≤ 2 ^ 31) (offset : Nat) (buf : List UInt8)
    (hfit : offset + buf.length ≤ dataspace.size) (k : Nat) (out : Nat → UInt8) :
    ∃ written k', writeFrames frames k buf dataspace offset = some (.success, written, k') ∧
      (∃ read k'', readFrames frames k' out buf.length written offset =
        some (.success, read, k'') ∧ slice read 0 buf.length = buf) ∧
      ∀ o n, o + n ≤ dataspace.size →
        ∃ before after k₀ k₁,
          readFrames frames k out n dataspace o = some (.success, before, k₀) ∧
          readFrames frames k' out n written o = some (.success, after, k₁) ∧
          ∀ i < n, (o + i < offset ∨ offset + buf.length ≤ o + i) → after i = before i := by
  have hlt : dataspace.size < 2 ^ 32 - pageSize := by
    simp only [pageSize]
    omega
  obtain ⟨written, k', hwrite, hflat⟩ :=
    writeFrames_inside frames k dataspace offset hframes buf hfit hlt
  have hpages : written.size = dataspace.size := by
    have hnpages := congrArg RamDspace.npages hflat
    simp only [flat_npages, RamDspace.write_npages] at hnpages
    rw [FrameDspace.size, hnpages, FrameDspace.size]
  have hbytes : written.flat.bytes = blit dataspace.flat.bytes offset buf :=
    congrArg RamDspace.bytes hflat
  refine ⟨written, k', hwrite, ?_, fun o n hin => ?_⟩
  · obtain ⟨k'', hread⟩ := readFrames_inside frames k' written offset hframes out
      (hpages.symm ▸ hfit) (hpages.symm ▸ hlt)
    refine ⟨_, k'', hread, ?_⟩
    rw [hbytes, slice_blit_self]
    exact slice_blit_self out 0 buf
  · obtain ⟨k₀, hbefore⟩ := readFrames_inside frames k dataspace o hframes out hin hlt
    obtain ⟨k₁, hafter⟩ := readFrames_inside frames k' written o hframes out
      (hpages.symm ▸ hin) (hpages.symm ▸ hlt)
    refine ⟨_, _, k₀, k₁, hbefore, hafter, fun i hi hout => ?_⟩
    -- both reads copy what lies at `o + i`
    have hcopied : ∀ m : Nat → UInt8, blit out 0 (slice m o n) i = m (o + i) := by
      intro m
      have hlen : i < (slice m o n).length := by rwa [length_slice]
      have hin := blit_of_inside out 0 (slice m o n) hlen
      rw [Nat.zero_add] at hin
      rw [hin]
      simp [slice]
    rw [hcopied, hcopied, hbytes, blit_of_outside _ _ _ hout]

/-- Two bytes across the boundary of two pages. -/
theorem dataspace_read_write_boundary :
    ∃ written k', writeFrames (fun _ => true) 0 [1, 2] ⟨2, fun _ _ => 0⟩ 4095 =
        some (.success, written, k') ∧
      ∃ read k'', readFrames (fun _ => true) k' (fun _ => 0) 2 written 4095 =
        some (.success, read, k'') ∧ slice read 0 2 = [1, 2] := by
  obtain ⟨written, k', hwrite, hread, _⟩ :=
    dataspace_read_write (fun _ => true) (fun _ => rfl) ⟨2, fun _ _ => 0⟩ (by decide) 4095 [1, 2]
      (by decide) 0 fun _ => 0
  exact ⟨written, k', hwrite, hread⟩

/-! ## Calls outside the dataspace -/

section Outside

variable (frames : Nat → Bool) (k : Nat) (dataspace : FrameDspace) {offset : Nat}

/-- A write succeeds only inside the dataspace. Outside it is refused, with no page touched. -/
def WriteBounded (buf : List UInt8) (offset : Nat) : Prop :=
  (∀ written k', writeFrames frames k buf dataspace offset = some (.success, written, k') →
    offset + buf.length ≤ dataspace.size) ∧
  (dataspace.size < offset + buf.length →
    writeFrames frames k buf dataspace offset = some (.invalidParam, dataspace, k))

/-- A read succeeds only inside the dataspace. Outside it is refused, with no page and nothing of
the caller's buffer touched. -/
def ReadBounded (out : Nat → UInt8) (len offset : Nat) : Prop :=
  (∀ read k', readFrames frames k out len dataspace offset = some (.success, read, k') →
    offset + len ≤ dataspace.size) ∧
  (dataspace.size < offset + len →
    readFrames frames k out len dataspace offset = some (.invalidParam, out, k))

/-- The block starts inside the dataspace, or it is too long for the room that an offset behind the
end seems to have. -/
def SeenOutside (offset len : Nat) : Prop :=
  offset ≤ dataspace.size ∨ 2 ^ 32 + dataspace.size < offset + len

instance (offset len : Nat) : Decidable (SeenOutside dataspace offset len) :=
  inferInstanceAs (Decidable (_ ∨ _))

variable {dataspace}

theorem room_lt {len : Nat} (hoffset : offset < 2 ^ 32) (h : SeenOutside dataspace offset len)
    (hout : dataspace.size < offset + len) : dataspace.room offset < len := by
  simp only [SeenOutside, FrameDspace.size, FrameDspace.room, u32] at *
  omega

theorem le_room {len : Nat} (hoffset : offset < 2 ^ 32) (h : ¬SeenOutside dataspace offset len) :
    len ≤ dataspace.room offset := by
  simp only [SeenOutside, FrameDspace.size, FrameDspace.room, u32] at *
  omega

theorem npages_le_of_behind {len : Nat} (h : ¬SeenOutside dataspace offset len) :
    dataspace.npages ≤ offset / pageSize := by
  simp only [SeenOutside, FrameDspace.size, pageSize] at *
  omega

theorem ioFuel_eq : ioFuel = 2 ^ 20 + 1 + 1 := rfl

/-- A write behind the end is not refused: it finds nothing to do, or no page. -/
theorem writeFrames_behind {buf : List UInt8} (hoffset : offset < 2 ^ 32)
    (h : ¬SeenOutside dataspace offset buf.length) :
    ∃ error k', writeFrames frames k buf dataspace offset = some (error, dataspace, k') ∧
      error ≠ .invalidParam := by
  have hroom := le_room hoffset h
  rw [writeFrames, if_neg (by omega), ioFuel_eq, writeFrom]
  by_cases hlt : offset < u32 (offset + buf.length)
  · simp only [hlt, if_true, writeFramePage, npages_le_of_behind h]
    exact ⟨.nomem, k + 1, rfl, by decide⟩
  · rw [if_neg hlt]
    exact ⟨.success, k, rfl, by decide⟩

theorem readFrames_behind {out : Nat → UInt8} {len : Nat} (hoffset : offset < 2 ^ 32)
    (h : ¬SeenOutside dataspace offset len) :
    ∃ error k', readFrames frames k out len dataspace offset = some (error, out, k') ∧
      error ≠ .invalidParam := by
  have hroom := le_room hoffset h
  rw [readFrames, if_neg (by omega), ioFuel_eq, readFrom]
  by_cases hlt : offset < u32 (offset + len)
  · simp only [hlt, if_true, readFramePage, npages_le_of_behind h]
    exact ⟨.nomem, k + 1, rfl, by decide⟩
  · rw [if_neg hlt]
    exact ⟨.success, k, rfl, by decide⟩

theorem writeBounded_iff {buf : List UInt8} (hoffset : offset < 2 ^ 32) :
    WriteBounded frames k dataspace buf offset ↔ SeenOutside dataspace offset buf.length := by
  constructor
  · intro hbounded
    by_contra h
    obtain ⟨error, k', hwrite, herror⟩ := writeFrames_behind frames k hoffset h
    have hout : dataspace.size < offset + buf.length := by
      simp only [SeenOutside] at h
      omega
    rw [hbounded.2 hout, Option.some.injEq, Prod.mk.injEq] at hwrite
    exact herror hwrite.1.symm
  · intro h
    have hrefused : dataspace.size < offset + buf.length →
        writeFrames frames k buf dataspace offset = some (.invalidParam, dataspace, k) :=
      fun hout => if_pos (room_lt hoffset h hout)
    refine ⟨fun written k' hwrite => ?_, hrefused⟩
    by_contra hout
    rw [hrefused (by omega)] at hwrite
    cases hwrite

theorem readBounded_iff {out : Nat → UInt8} {len : Nat} (hoffset : offset < 2 ^ 32) :
    ReadBounded frames k dataspace out len offset ↔ SeenOutside dataspace offset len := by
  constructor
  · intro hbounded
    by_contra h
    obtain ⟨error, k', hread, herror⟩ := readFrames_behind frames k hoffset h
    have hout : dataspace.size < offset + len := by
      simp only [SeenOutside] at h
      omega
    rw [hbounded.2 hout, Option.some.injEq, Prod.mk.injEq] at hread
    exact herror hread.1.symm
  · intro h
    have hrefused : dataspace.size < offset + len →
        readFrames frames k out len dataspace offset = some (.invalidParam, out, k) :=
      fun hout => if_pos (room_lt hoffset h hout)
    refine ⟨fun read k' hread => ?_, hrefused⟩
    by_contra hout
    rw [hrefused (by omega)] at hread
    cases hread

end Outside

/-- **When calls outside a dataspace are refused**, for every dataspace and all offsets and lengths
of 32 bits, whichever frames can be had. -/
theorem dataspace_bounds_iff (frames : Nat → Bool) (k : Nat) (dataspace : FrameDspace)
    (offset len : BitVec 32) (buf : List UInt8) (hbuf : buf.length = len.toNat)
    (out : Nat → UInt8) :
    (WriteBounded frames k dataspace buf offset.toNat ∧
        ReadBounded frames k dataspace out len.toNat offset.toNat) ↔
      SeenOutside dataspace offset.toNat len.toNat := by
  rw [writeBounded_iff frames k offset.isLt, readBounded_iff frames k offset.isLt, hbuf, and_self]

/-- One page, and a block of two bytes at its end: the calls are refused. -/
theorem dataspace_bounds_iff_end :
    WriteBounded (fun _ => true) 0 ⟨1, fun _ _ => 0⟩ [7, 7] 4095 ∧
      ReadBounded (fun _ => true) 0 ⟨1, fun _ _ => 0⟩ (fun _ => 0) 2 4095 :=
  (dataspace_bounds_iff (fun _ => true) 0 ⟨1, fun _ _ => 0⟩ 4095 2 [7, 7] rfl fun _ => 0).2
    (by decide)

/-- One page, and one byte at the end of the 32 bits: both calls succeed, and do nothing. Two pages
further on, they say that there is no memory. -/
theorem outside_not_refused :
    (¬WriteBounded (fun _ => true) 0 ⟨1, fun _ _ => 0⟩ [7] 0xffffffff ∧
        ¬ReadBounded (fun _ => true) 0 ⟨1, fun _ _ => 0⟩ (fun _ => 0) 1 0xffffffff) ∧
      ¬WriteBounded (fun _ => true) 0 ⟨1, fun _ _ => 0⟩ [7] 0x3000 ∧
      ¬ReadBounded (fun _ => true) 0 ⟨1, fun _ _ => 0⟩ (fun _ => 0) 1 0x3000 := by
  rw [writeBounded_iff _ _ (by decide), writeBounded_iff _ _ (by decide),
    readBounded_iff _ _ (by decide), readBounded_iff _ _ (by decide)]
  decide

end PartitionSeL4.Refos
