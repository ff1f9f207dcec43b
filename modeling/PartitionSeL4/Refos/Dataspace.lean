import PartitionSeL4.Data
import PartitionSeL4.Lib.Bytes

/-!
# `dataspace.c`: RAM dataspaces and their contents

A dataspace is a number of pages, whose frames are allocated when they are first used. A new frame
is zeroed, so the contents are a total function on offsets. Reading and writing go page by page
(`ioChunks`): every page has to be got (`ram_dspace_get_page`) and mapped into the process server
(`procserv_frame_read`, `procserv_frame_write`), and either can fail for want of memory. Which of
the page accesses of a call succeed is the parameter `frames`, a function of the access's number.

`ramDspaceWrite_spec` and `ramDspaceRead_spec` are what the rest uses: inside the dataspace, a call
copies the whole block, or stops at the first access that fails.
-/

namespace PartitionSeL4.Refos

open Lib

/-- `refos_err_t` -/
inductive Err where
  | success
  | nomem
  | invalid
  | invalidParam
  | invalidWindow
  | accessDenied
  | unmapFirst
  | fileNotFound
  | noParamBuffer
  | delegated
  deriving DecidableEq, Repr

/-- `REFOS_PAGE_SIZE` -/
def pageSize : Nat := 4096

/-- `REFOS_PAGE_ALIGN` -/
def pageAlign (x : Nat) : Nat := x - x % pageSize

/-- `refos_round_up_npages`: the number of pages that `size` bytes fill. -/
def roundUpNpages (size : Nat) : Nat := size / pageSize + if size % pageSize = 0 then 0 else 1

/-- `struct ram_dspace_waiter`: a thread that waits for the content of a page. -/
structure Waiter where
  pageidx : Nat
  reply : Nat
  deriving DecidableEq, Repr

/-- `struct ram_dspace` -/
structure RamDspace where
  npages : Nat
  /-- The contents of the frames. -/
  bytes : Nat → UInt8
  ref : Nat := 1
  contentInitEnabled : Bool := false
  contentInitEP : Nat := 0
  contentInitPID : Nat := 0
  contentInitBitmask : Option (Nat → Bool) := none
  contentInitWaitingList : List Waiter := []
  physicalAddrEnabled : Bool := false

/-- Copy a block into the frames. -/
def RamDspace.write (dataspace : RamDspace) (offset : Nat) (buf : List UInt8) : RamDspace :=
  { dataspace with bytes := blit dataspace.bytes offset buf }

/-- `ram_dspace_oat_create` -/
def ramDspaceOatCreate (size : Nat) : RamDspace where
  npages := roundUpNpages size
  bytes _ := 0

/-- `RAM_DATASPACE_INVALID_ID` -/
def ramDataspaceInvalidID : Int := 0

/-- `ram_dspace_get_size` -/
def ramDspaceGetSize (dataspace : RamDspace) : Nat := u32 (dataspace.npages * pageSize)

/-! ## Pages -/

/-- `ram_dspace_get_page` and the mapping of the frame: whether the page can be accessed. -/
def pageAccess (frame : Bool) (dataspace : RamDspace) (offset : Nat) : Bool :=
  if dataspace.npages ≤ offset / pageSize then false else frame

/-- `ram_dspace_write_page`. With its cap on the length, `procserv_frame_write` never refuses. -/
def ramDspaceWritePage (frame : Bool) (buf : List UInt8) (dataspace : RamDspace) (offset : Nat) :
    Err × RamDspace :=
  let skipBytes := offset - pageAlign offset
  if pageAccess frame dataspace offset then
    (.success, dataspace.write offset (buf.take (pageSize - skipBytes)))
  else (.nomem, dataspace)

/-- `ram_dspace_read_page` -/
def ramDspaceReadPage (frame : Bool) (len : Nat) (dataspace : RamDspace) (offset : Nat) :
    Err × List UInt8 :=
  let skipBytes := offset - pageAlign offset
  if pageAccess frame dataspace offset then
    (.success, slice dataspace.bytes offset (min len (pageSize - skipBytes)))
  else (.nomem, [])

/-- The start and the length of every round of the loops of `ram_dspace_read` and
`ram_dspace_write`. -/
def pageChunks : Nat → Nat → Nat → List (Nat × Nat)
  | 0, _, _ => []
  | fuel + 1, start, stop =>
      if start < stop then
        let stopHere := min (u32 (pageAlign start + pageSize)) stop
        (start, u32 (stopHere + 2 ^ 32 - start)) :: pageChunks fuel stopHere stop
      else []

/-- The rounds of the loops for `len` bytes at `offset`. There are at most two more of them than
pages in 32 bits. -/
def ioChunks (offset len : Nat) : List (Nat × Nat) :=
  pageChunks (2 ^ 20 + 2) offset (u32 (offset + len))

namespace RamDspace

variable (dataspace : RamDspace) (offset : Nat) (buf buf' : List UInt8)

@[simp] theorem write_npages : (dataspace.write offset buf).npages = dataspace.npages := rfl

@[simp] theorem write_bytes :
    (dataspace.write offset buf).bytes = blit dataspace.bytes offset buf := rfl

@[simp] theorem write_nil : dataspace.write offset [] = dataspace := by
  simp [write]

theorem write_append : dataspace.write offset (buf ++ buf') =
    (dataspace.write offset buf).write (offset + buf.length) buf' := by
  simp [write, blit_append]

end RamDspace

/-! ## Reading and writing -/

/-- The loop of `ram_dspace_write`. The last component is the number of the next page access. -/
def writeChunks (frames : Nat → Bool) :
    List (Nat × Nat) → Nat → List UInt8 → RamDspace → Err × RamDspace × Nat
  | [], k, _, dataspace => (.success, dataspace, k)
  | (start, n) :: chunks, k, buf, dataspace =>
      match ramDspaceWritePage (frames k) (buf.take n) dataspace start with
      | (.success, dataspace) => writeChunks frames chunks (k + 1) (buf.drop n) dataspace
      | (error, dataspace) => (error, dataspace, k + 1)

/-- `ram_dspace_write`. The check of the length is done in 32 bits. -/
def ramDspaceWrite (frames : Nat → Bool) (k : Nat) (buf : List UInt8) (dataspace : RamDspace)
    (offset : Nat) : Err × RamDspace × Nat :=
  if u32 (ramDspaceGetSize dataspace + 2 ^ 32 - offset) < buf.length then
    (.invalidParam, dataspace, k)
  else writeChunks frames (ioChunks offset buf.length) k buf dataspace

/-- The loop of `ram_dspace_read`. -/
def readChunks (frames : Nat → Bool) :
    List (Nat × Nat) → Nat → List UInt8 → RamDspace → Err × List UInt8 × Nat
  | [], k, buf, _ => (.success, buf, k)
  | (start, n) :: chunks, k, buf, dataspace =>
      match ramDspaceReadPage (frames k) n dataspace start with
      | (.success, page) => readChunks frames chunks (k + 1) (buf ++ page) dataspace
      | (error, _) => (error, buf, k + 1)

/-- `ram_dspace_read` -/
def ramDspaceRead (frames : Nat → Bool) (k len : Nat) (dataspace : RamDspace) (offset : Nat) :
    Err × List UInt8 × Nat :=
  if u32 (ramDspaceGetSize dataspace + 2 ^ 32 - offset) < len then (.invalidParam, [], k)
  else readChunks frames (ioChunks offset len) k [] dataspace

/-! ## The rounds of the loops -/

/-- The rounds go through a block without a gap, each in one page. -/
inductive Chunked : Nat → Nat → List (Nat × Nat) → Prop
  | nil (stop : Nat) : Chunked stop stop []
  | cons {start n stop : Nat} {chunks : List (Nat × Nat)} (hpos : 0 < n)
      (hpage : n ≤ pageSize - start % pageSize) (hle : start + n ≤ stop) :
      Chunked (start + n) stop chunks → Chunked start stop ((start, n) :: chunks)

theorem chunk_step {start stop : Nat} (hlt : start < stop) (hstop : stop < 2 ^ 32 - pageSize) :
    ∃ n, 0 < n ∧ n ≤ pageSize - start % pageSize ∧ start + n ≤ stop ∧
      min (u32 (pageAlign start + pageSize)) stop = start + n ∧
      u32 (min (u32 (pageAlign start + pageSize)) stop + 2 ^ 32 - start) = n ∧
      (start + n = stop ∨ start + n = pageAlign start + pageSize) := by
  have hmod := Nat.mod_lt start (show 0 < pageSize by decide)
  have halign : pageAlign start + start % pageSize = start := by
    have := Nat.mod_le start pageSize
    simp only [pageAlign]
    omega
  have hu : u32 (pageAlign start + pageSize) = pageAlign start + pageSize :=
    u32_of_lt (by simp only [pageSize] at *; omega)
  rw [hu]
  refine ⟨min (pageAlign start + pageSize) stop - start, ?_, ?_, ?_, ?_, ?_, ?_⟩
  · omega
  · omega
  · omega
  · omega
  · exact u32_sub (by omega) (by simp only [pageSize] at *; omega)
  · omega

theorem pageChunks_chunked {fuel start stop : Nat} (hle : start ≤ stop)
    (hstop : stop < 2 ^ 32 - pageSize)
    (hfuel : stop ≤ pageAlign start + (fuel - 1) * pageSize) (hpos : 0 < fuel) :
    Chunked start stop (pageChunks fuel start stop) := by
  induction fuel generalizing start with
  | zero => omega
  | succ fuel ih =>
      rw [pageChunks]
      split_ifs with hlt
      · obtain ⟨n, hn, hpage, hend, hmin, hlen, hnext⟩ := chunk_step hlt hstop
        simp only [hmin] at hlen ⊢
        rw [hlen]
        refine .cons hn hpage hend ?_
        rcases hnext with hdone | hnext
        · -- the last round
          rw [hdone]
          cases fuel with
          | zero => exact .nil stop
          | succ fuel =>
              rw [pageChunks, if_neg (Nat.lt_irrefl stop)]
              exact .nil stop
        · have halign : pageAlign (start + n) = start + n := by
            rw [hnext, pageAlign, pageAlign]
            simp only [pageSize]
            omega
          have hfuel' : 0 < fuel := by
            by_contra hzero
            obtain rfl : fuel = 0 := by omega
            have hstart : pageAlign start ≤ start := Nat.sub_le _ _
            omega
          refine ih hend ?_ hfuel'
          obtain ⟨f, rfl⟩ : ∃ f, fuel = f + 1 := ⟨fuel - 1, by omega⟩
          rw [halign, hnext]
          simp only [Nat.add_sub_cancel, Nat.succ_mul] at hfuel ⊢
          omega
      · obtain rfl : start = stop := by omega
        exact .nil start

theorem ioChunks_chunked (offset len : Nat) (h : offset + len < 2 ^ 32 - pageSize) :
    Chunked offset (offset + len) (ioChunks offset len) := by
  have hu : u32 (offset + len) = offset + len := u32_of_lt (by omega)
  rw [ioChunks, hu]
  refine pageChunks_chunked (by omega) h ?_ (by omega)
  simp only [pageSize] at *
  omega

theorem pageAccess_of_lt {dataspace : RamDspace} {offset : Nat}
    (h : offset < dataspace.npages * pageSize) (frame : Bool) :
    pageAccess frame dataspace offset = frame := by
  rw [pageAccess, if_neg]
  rw [Nat.not_le]
  exact Nat.div_lt_of_lt_mul (by rwa [Nat.mul_comm] at h)

/-- The room that the calls find behind an offset inside the dataspace. -/
theorem room_eq {dataspace : RamDspace} {offset : Nat}
    (hin : offset ≤ dataspace.npages * pageSize) (hsize : dataspace.npages * pageSize < 2 ^ 32) :
    u32 (ramDspaceGetSize dataspace + 2 ^ 32 - offset) = dataspace.npages * pageSize - offset := by
  rw [ramDspaceGetSize, u32_of_lt hsize]
  exact u32_sub hin hsize

/-! ## What a call does -/

section Calls

variable (frames : Nat → Bool)

/-- The loop of `ram_dspace_write` copies everything, or stops at an access that fails. -/
theorem writeChunks_spec {start stop : Nat} {chunks : List (Nat × Nat)}
    (hchunks : Chunked start stop chunks) (k : Nat) (buf : List UInt8) (dataspace : RamDspace)
    (hlen : start + buf.length = stop) (hfit : stop ≤ dataspace.npages * pageSize) :
    ∃ k', k ≤ k' ∧ (buf ≠ [] → k < k') ∧
      (writeChunks frames chunks k buf dataspace =
          (.success, dataspace.write start buf, k') ∨
        ∃ m j, writeChunks frames chunks k buf dataspace =
            (.nomem, dataspace.write start (buf.take m), k') ∧
          k ≤ j ∧ frames j = false ∧ (j = k → m = 0)) := by
  induction hchunks generalizing k buf dataspace with
  | nil stop =>
      obtain rfl : buf = [] := List.eq_nil_of_length_eq_zero (by omega)
      exact ⟨k, Nat.le_refl k, by simp, Or.inl (by simp [writeChunks])⟩
  | @cons start n stop chunks hpos hpage hle hrest ih =>
      have hin : ∀ frame, pageAccess frame dataspace start = frame :=
        pageAccess_of_lt (by omega)
      have hskip : start - pageAlign start = start % pageSize := by
        have := Nat.mod_le start pageSize
        simp only [pageAlign]
        omega
      cases hframe : frames k with
      | false =>
          refine ⟨k + 1, by omega, fun _ => by omega, Or.inr ⟨0, k, ?_, Nat.le_refl k, hframe,
            fun _ => rfl⟩⟩
          simp [writeChunks, ramDspaceWritePage, hin, hframe]
      | true =>
          -- this round writes the first `n` bytes, the rest is the induction hypothesis
          have htake : (buf.take n).take (pageSize - start % pageSize) = buf.take n := by
            rw [List.take_take, Nat.min_eq_right hpage]
          have hround : ramDspaceWritePage true (buf.take n) dataspace start =
              (.success, dataspace.write start (buf.take n)) := by
            simp only [ramDspaceWritePage, hskip, htake, hin, if_true]
          have hn : (buf.take n).length = n := by
            rw [List.length_take]
            omega
          have hjoin : ∀ l, (dataspace.write start (buf.take n)).write (start + n) l =
              dataspace.write start (buf.take n ++ l) := by
            intro l
            rw [RamDspace.write_append, hn]
          obtain ⟨k', hk', _, hcases⟩ := ih (k + 1) (buf.drop n)
            (dataspace.write start (buf.take n)) (by rw [List.length_drop]; omega) hfit
          refine ⟨k', by omega, fun _ => by omega, ?_⟩
          simp only [writeChunks, hframe, hround]
          rcases hcases with hdone | ⟨m, j, hfail, hj, hframe', _⟩
          · refine Or.inl ?_
            rw [hdone, hjoin, List.take_append_drop]
          · refine Or.inr ⟨n + m, j, ?_, by omega, hframe', by omega⟩
            rw [hfail, hjoin, List.take_add]

/-- **Writing inside a dataspace.** The whole block is copied, or a page access fails and the part
before it is copied. -/
theorem ramDspaceWrite_spec (k : Nat) (buf : List UInt8) (dataspace : RamDspace) (offset : Nat)
    (hfit : offset + buf.length ≤ dataspace.npages * pageSize)
    (hsize : dataspace.npages * pageSize < 2 ^ 32 - pageSize) :
    ∃ k', k ≤ k' ∧ (buf ≠ [] → k < k') ∧
      (ramDspaceWrite frames k buf dataspace offset =
          (.success, dataspace.write offset buf, k') ∨
        ∃ m j, ramDspaceWrite frames k buf dataspace offset =
            (.nomem, dataspace.write offset (buf.take m), k') ∧
          k ≤ j ∧ frames j = false ∧ (j = k → m = 0)) := by
  rw [ramDspaceWrite, room_eq (by omega) (by omega), if_neg (by omega)]
  exact writeChunks_spec frames (ioChunks_chunked _ _ (by omega)) k buf dataspace rfl hfit

theorem ramDspaceWrite_of_lt (k : Nat) (buf : List UInt8) (dataspace : RamDspace) {offset : Nat}
    (hin : offset ≤ dataspace.npages * pageSize)
    (hout : dataspace.npages * pageSize < offset + buf.length)
    (hsize : dataspace.npages * pageSize < 2 ^ 32) :
    ramDspaceWrite frames k buf dataspace offset = (.invalidParam, dataspace, k) := by
  rw [ramDspaceWrite, room_eq hin hsize, if_pos (by omega)]

theorem readChunks_spec {start stop : Nat} {chunks : List (Nat × Nat)}
    (hchunks : Chunked start stop chunks) (k : Nat) (buf : List UInt8) (dataspace : RamDspace)
    (hfit : stop ≤ dataspace.npages * pageSize) :
    ∃ k', k ≤ k' ∧
      (readChunks frames chunks k buf dataspace =
          (.success, buf ++ slice dataspace.bytes start (stop - start), k') ∨
        ∃ read j, readChunks frames chunks k buf dataspace = (.nomem, read, k') ∧
          k ≤ j ∧ frames j = false) := by
  induction hchunks generalizing k buf with
  | nil stop => exact ⟨k, Nat.le_refl k, Or.inl (by simp [readChunks])⟩
  | @cons start n stop chunks hpos hpage hle hrest ih =>
      have hin : ∀ frame, pageAccess frame dataspace start = frame :=
        pageAccess_of_lt (by omega)
      have hskip : start - pageAlign start = start % pageSize := by
        have := Nat.mod_le start pageSize
        simp only [pageAlign]
        omega
      cases hframe : frames k with
      | false =>
          refine ⟨k + 1, by omega, Or.inr ⟨buf, k, ?_, Nat.le_refl k, hframe⟩⟩
          simp [readChunks, ramDspaceReadPage, hin, hframe]
      | true =>
          have hround : ramDspaceReadPage true n dataspace start =
              (.success, slice dataspace.bytes start n) := by
            simp only [ramDspaceReadPage, hskip, Nat.min_eq_left hpage, hin, if_true]
          obtain ⟨k', hk', hcases⟩ := ih (k + 1) (buf ++ slice dataspace.bytes start n) hfit
          refine ⟨k', by omega, ?_⟩
          simp only [readChunks, hframe, hround]
          rcases hcases with hdone | ⟨read, j, hfail, hj, hframe'⟩
          · refine Or.inl ?_
            rw [hdone, List.append_assoc, ← slice_add,
              show n + (stop - (start + n)) = stop - start by omega]
          · exact Or.inr ⟨read, j, hfail, by omega, hframe'⟩

/-- **Reading inside a dataspace.** -/
theorem ramDspaceRead_spec (k : Nat) {len : Nat} (dataspace : RamDspace) {offset : Nat}
    (hfit : offset + len ≤ dataspace.npages * pageSize)
    (hsize : dataspace.npages * pageSize < 2 ^ 32 - pageSize) :
    ∃ k', k ≤ k' ∧
      (ramDspaceRead frames k len dataspace offset =
          (.success, slice dataspace.bytes offset len, k') ∨
        ∃ read j, ramDspaceRead frames k len dataspace offset = (.nomem, read, k') ∧
          k ≤ j ∧ frames j = false) := by
  rw [ramDspaceRead, room_eq (by omega) (by omega), if_neg (by omega)]
  obtain ⟨k', hk', hcases⟩ :=
    readChunks_spec frames (ioChunks_chunked offset len (by omega)) k []
      dataspace hfit
  refine ⟨k', hk', ?_⟩
  rwa [Nat.add_sub_cancel_left, List.nil_append] at hcases

end Calls

end PartitionSeL4.Refos
