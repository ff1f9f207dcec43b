import PartitionSeL4.Lib.Run
import PartitionSeL4.Refos.DataStruct
import PartitionSeL4.Refos.Dataspace

/-!
# `filetable.c`: positions in open files

An open file is a dataspace of a server, with a position in it and its size. The position is an
`int32_t` and the size a `uint32_t`. `filetable_lseek` moves the position and then cuts it off at 0
and at the size, so that it stays between the two in every run (`Moves`). The sum is taken in 32
bits before it is cut off: one of 2^31 or more is negative by then, and the position goes to the
beginning of the file instead of its end.
-/

namespace PartitionSeL4.Refos

open Lib

/-! ## The table -/

/-- `FD_TABLE_BASE` -/
def fdTableBase : Nat := 3

/-- `FD_TABLE_DATASPACE_IPC_MAXLEN` -/
def fdTableDataspaceIpcMaxlen : Nat := 32

/-- `fd_table_entry_dataspace_t`. An entry is only kept with a dataspace. -/
structure FdEntry where
  serverSession : Nat
  dspace : Nat
  dspace_ne : dspace ≠ 0
  dspacePos : Int
  dspaceSize : Nat
  deriving DecidableEq

/-- `fd_table_t` -/
structure FdTable where
  table : Coat FdEntry
  tableSize : Nat

/-- The entry of a descriptor, if it is in range and open. -/
def FdTable.entry (t : FdTable) (fd : Int) : Option FdEntry :=
  if fd < fdTableBase ∨ (t.tableSize : Int) ≤ fd then none else t.table.get fd.toNat

/-- Write to the entry of a descriptor. -/
def FdTable.setEntry (t : FdTable) (fd : Int) (e : FdEntry) : FdTable :=
  { t with table := t.table.set fd.toNat e }

/-! ## Moving the position -/

/-- `whence`: `SEEK_SET`, `SEEK_CUR`, `SEEK_END`, or none of these. -/
inductive Whence where
  | set
  | cur
  | atEnd
  | invalid
  deriving DecidableEq, Repr

/-- The `switch` of `filetable_lseek`. The sum with the size is unsigned, and is stored like a
signed one. -/
def seekPos (e : FdEntry) (offset : Int) : Whence → Option Int
  | .set => some offset
  | .cur => some (i32 (e.dspacePos + offset))
  | .atEnd => some (i32 (e.dspaceSize + offset))
  | .invalid => none

/-- What is done with a position below 0, and then with one above the size. -/
def clampPos (size : Nat) (pos : Int) : Int :=
  let pos := if pos < 0 then 0 else pos
  if (size : Int) < pos then i32 size else pos

/-- `filetable_lseek`, with `*offset`. -/
def filetableLseek (t : FdTable) (fd offset : Int) (whence : Whence) : Err × Int × FdTable :=
  match t.entry fd with
  | none => (.fileNotFound, offset, t)
  | some e =>
      match seekPos e offset whence with
      | none => (.invalidParam, offset, t)
      | some pos =>
          let pos := clampPos e.dspaceSize pos
          (.success, pos, t.setEntry fd { e with dspacePos := pos })

/-- `EFAULT` -/
def efault : Int := 14

/-- `_sys_lseek` -/
def sysLseek (t : FdTable) (fildes offset : Int) (whence : Whence) : Int × FdTable :=
  if fildes = 0 ∨ fildes = 1 ∨ fildes = 2 then (offset, t)
  else
    match filetableLseek t fildes offset whence with
    | (.success, newOffset, t) => (newOffset, t)
    | (_, _, t) => (-efault, t)

/-! ## Reading and writing -/

/-- `EFILENOTFOUND` -/
def efilenotfound : Int := 10

/-- A call of `data_read` or `data_write`: `len` bytes at `buffer`. -/
structure FileRequest where
  serverSession : Nat
  dspace : Nat
  pos : Int
  buffer : Nat
  len : Int
  deriving DecidableEq, Repr

/-- `filetable_internal_read_write`: what it returns, and its request, if any, to the server.
`serve` is what the server replies, and `getSize` what `data_get_size` returns after a write. -/
def filetableInternalReadWrite (t : FdTable) (fd : Int) (buffer : Nat) (bufferLen : Int)
    (read : Bool) (serve : FileRequest → Int) (getSize : Nat) :
    Int × Option FileRequest × FdTable :=
  if buffer = 0 ∨ bufferLen = 0 then (0, none, t)
  else
    match t.entry fd with
    | none => (-efilenotfound, none, t)
    | some e =>
        let request : FileRequest :=
          { serverSession := e.serverSession, dspace := e.dspace, pos := e.dspacePos,
            buffer := buffer, len := min bufferLen fdTableDataspaceIpcMaxlen }
        let nr := serve request
        if nr < 0 then (nr, some request, t)
        else
          let pos := i32 (e.dspacePos + nr)
          if read then
            (nr, some request, t.setEntry fd { e with dspacePos := clampPos e.dspaceSize pos })
          else
            (nr, some request, t.setEntry fd
              { e with dspacePos := if pos < 0 then 0 else pos, dspaceSize := getSize })

/-- `filetable_read` -/
def filetableRead (t : FdTable) (fd : Int) (bufferDest : Nat) (bufferLen : Int)
    (serve : FileRequest → Int) : Int × Option FileRequest × FdTable :=
  filetableInternalReadWrite t fd bufferDest bufferLen true serve 0

/-- `filetable_write` -/
def filetableWrite (t : FdTable) (fd : Int) (bufferSrc : Nat) (bufferLen : Int)
    (serve : FileRequest → Int) (getSize : Nat) : Int × Option FileRequest × FdTable :=
  filetableInternalReadWrite t fd bufferSrc bufferLen false serve getSize

/-! ## Runs -/

inductive SeekEvent where
  | lseek (fd offset : Int) (whence : Whence)
  | read (fd : Int) (bufferDest : Nat) (bufferLen : Int) (reply : Int)
  deriving DecidableEq, Repr

/-- One call. -/
def seekStep (t : FdTable) : SeekEvent → Except Failure FdTable
  | .lseek fd offset whence => .ok (filetableLseek t fd offset whence).2.2
  | .read fd bufferDest bufferLen reply =>
      .ok (filetableRead t fd bufferDest bufferLen fun _ => reply).2.2

/-! ## The property -/

/-- What `whence` counts from. -/
def Whence.base (e : FdEntry) : Whence → Option Int
  | .set => some 0
  | .cur => some e.dspacePos
  | .atEnd => some e.dspaceSize
  | .invalid => none

/-- Where a seek should lead. -/
def seekTarget (e : FdEntry) (base offset : Int) : Int := max 0 (min e.dspaceSize (base + offset))

/-- A seek leads there, says so, and leaves everything else alone. -/
def LseekRight (t : FdTable) (fd : Int) (e : FdEntry) (base offset : Int) (whence : Whence) :
    Prop :=
  filetableLseek t fd offset whence = (.success, seekTarget e base offset,
      t.setEntry fd { e with dspacePos := seekTarget e base offset }) ∧
    (sysLseek t fd offset whence).1 = seekTarget e base offset

/-! ## 32 bits -/

theorem i32_wrapped {x : Int} (hlo : 2 ^ 31 ≤ x) (hhi : x < 2 ^ 32) : i32 x < 0 := by
  rw [i32, Int.bmod_def]
  omega

theorem clampPos_eq {size : Nat} (hsize : size < 2 ^ 31) (pos : Int) :
    clampPos size pos = max 0 (min (size : Int) pos) := by
  have hi32 : i32 size = size := i32_eq (by omega) (by omega)
  rw [clampPos, hi32]
  split_ifs <;> omega

/-! ## Entries -/

section

variable {t u : FdTable} {fd fd' : Int} {e e' : FdEntry}

theorem FdTable.entry_range (h : t.entry fd = some e) :
    ¬(fd < fdTableBase ∨ (t.tableSize : Int) ≤ fd) ∧ t.table.get fd.toNat = some e := by
  rw [entry] at h
  split_ifs at h with hout
  exact ⟨hout, h⟩

theorem FdTable.entry_setEntry (h : t.entry fd = some e) (e' : FdEntry) :
    (t.setEntry fd e').entry fd = some e' := by
  obtain ⟨hin, hget⟩ := entry_range h
  have hrange : ¬(fd.toNat < t.table.pool.start ∨ t.table.pool.stop ≤ fd.toNat) := by
    intro hout
    rw [Coat.get, if_pos hout] at hget
    cases hget
  rw [setEntry, entry, if_neg hin, Coat.get]
  exact (if_neg hrange).trans (Function.update_self ..)

theorem FdTable.entry_setEntry_of_ne (h : t.entry fd' = some e) (hne : fd ≠ fd') (e' : FdEntry) :
    (t.setEntry fd' e').entry fd = t.entry fd := by
  obtain ⟨hin, _⟩ := entry_range h
  rw [setEntry, entry, entry]
  by_cases hout : fd < fdTableBase ∨ (t.tableSize : Int) ≤ fd
  · rw [if_pos hout, if_pos hout]
  · have hnat : fd.toNat ≠ fd'.toNat := by omega
    rw [if_neg hout, if_neg hout, Coat.get, Coat.get]
    dsimp only [Coat.set]
    rw [Function.update_of_ne hnat]
    rfl

/-! ## Runs -/

/-- At most one file is moved, and its position is cut off at 0 and at the size. -/
def Moves (t u : FdTable) : Prop :=
  u = t ∨ ∃ fd e pos, t.entry fd = some e ∧
    u = t.setEntry fd { e with dspacePos := clampPos e.dspaceSize pos }

theorem lseek_moves (t : FdTable) (fd offset : Int) (whence : Whence) :
    Moves t (filetableLseek t fd offset whence).2.2 := by
  rw [filetableLseek]
  cases hentry : t.entry fd with
  | none => exact Or.inl rfl
  | some e =>
      dsimp only
      cases hseek : seekPos e offset whence with
      | none => exact Or.inl rfl
      | some pos => exact Or.inr ⟨fd, e, pos, hentry, rfl⟩

theorem read_moves (t : FdTable) (fd : Int) (bufferDest : Nat) (bufferLen : Int)
    (serve : FileRequest → Int) : Moves t (filetableRead t fd bufferDest bufferLen serve).2.2 := by
  rw [filetableRead, filetableInternalReadWrite]
  by_cases hnone : bufferDest = 0 ∨ bufferLen = 0
  · rw [if_pos hnone]
    exact Or.inl rfl
  rw [if_neg hnone]
  cases hentry : t.entry fd with
  | none => exact Or.inl rfl
  | some e =>
      dsimp only
      split
      · exact Or.inl rfl
      · exact Or.inr ⟨fd, e, _, hentry, rfl⟩

/-- The file is open, with this size, and its position is in it. -/
def PosOk (t : FdTable) (fd : Int) (size : Nat) : Prop :=
  ∃ e, t.entry fd = some e ∧ e.dspaceSize = size ∧ 0 ≤ e.dspacePos ∧ e.dspacePos ≤ size

theorem PosOk.moves {size : Nat} (h : PosOk t fd size) (hsize : size < 2 ^ 31) (hm : Moves t u) :
    PosOk u fd size := by
  rcases hm with rfl | ⟨fd', e', pos, hentry', rfl⟩
  · exact h
  · obtain ⟨e, hentry, hsizee, hlo, hhi⟩ := h
    by_cases hfd : fd = fd'
    · subst hfd
      obtain rfl := Option.some.inj (hentry.symm.trans hentry')
      refine ⟨_, FdTable.entry_setEntry hentry _, hsizee, ?_⟩
      dsimp only
      rw [hsizee, clampPos_eq hsize]
      omega
    · exact ⟨e, (FdTable.entry_setEntry_of_ne hentry' hfd _).trans hentry, hsizee, hlo, hhi⟩

/-! ## Single seeks -/

theorem lseek_eq (hentry : t.entry fd = some e) {offset pos : Int} {whence : Whence}
    (hseek : seekPos e offset whence = some pos) :
    filetableLseek t fd offset whence = (.success, clampPos e.dspaceSize pos,
      t.setEntry fd { e with dspacePos := clampPos e.dspaceSize pos }) := by
  rw [filetableLseek, hentry]
  dsimp only
  rw [hseek]

/-- A seek is right if and only if its position is cut off to where it should lead. -/
theorem lseekRight_iff (hentry : t.entry fd = some e) {base offset pos : Int} {whence : Whence}
    (hseek : seekPos e offset whence = some pos) :
    LseekRight t fd e base offset whence ↔
      clampPos e.dspaceSize pos = seekTarget e base offset := by
  have heq := lseek_eq hentry hseek
  have hfd : ¬(fd = 0 ∨ fd = 1 ∨ fd = 2) := by
    have hlo := (FdTable.entry_range hentry).1
    rw [fdTableBase] at hlo
    omega
  rw [LseekRight, sysLseek, if_neg hfd, heq]
  constructor
  · exact fun h => h.2
  · intro h
    rw [h]
    exact ⟨rfl, rfl⟩

/-- The sum fits, or it is negative by the time it is cut off. -/
theorem clamp_i32_iff (hsize : e.dspaceSize < 2 ^ 31) {base offset : Int} (hbase : 0 ≤ base)
    (hle : base ≤ e.dspaceSize) (hlo : -2 ^ 31 ≤ offset) (hhi : offset < 2 ^ 31) :
    clampPos e.dspaceSize (i32 (base + offset)) = seekTarget e base offset ↔
      base + offset < 2 ^ 31 := by
  rw [clampPos_eq hsize, seekTarget]
  by_cases hfits : base + offset < 2 ^ 31
  · rw [i32_eq (by omega) hfits]
    exact iff_of_true rfl hfits
  · have hneg := i32_wrapped (Int.not_lt.1 hfits) (by omega)
    refine iff_of_false ?_ hfits
    omega

end

/-- **The position in a file.** For every open file whose position is in it and whose size is below
2^31: a seek leads to the sum of its offset and what it counts from, cut off at 0 and at the size,
if and only if this sum is below 2^31; and in every run of seeks and reads, on this file and others,
with any replies, the position stays in the file. -/
theorem lseek_right_iff (t : FdTable) (fd : Int) (e : FdEntry) (hentry : t.entry fd = some e)
    (hlo : 0 ≤ e.dspacePos) (hhi : e.dspacePos ≤ e.dspaceSize) (hsize : e.dspaceSize < 2 ^ 31) :
    (∀ (offset base : Int) (whence : Whence), -2 ^ 31 ≤ offset → offset < 2 ^ 31 →
      whence.base e = some base →
        (LseekRight t fd e base offset whence ↔ base + offset < 2 ^ 31)) ∧
    ∀ (evs : List SeekEvent) (u : FdTable), Run seekStep (fun _ _ => True) t evs u →
      PosOk u fd e.dspaceSize := by
  constructor
  · intro offset base whence hofflo hoffhi hbase
    cases whence with
    | set =>
        obtain rfl := Option.some.inj hbase
        rw [lseekRight_iff hentry rfl, clampPos_eq hsize, seekTarget, Int.zero_add]
        exact iff_of_true rfl hoffhi
    | cur =>
        obtain rfl := Option.some.inj hbase
        rw [lseekRight_iff hentry rfl]
        exact clamp_i32_iff hsize hlo hhi hofflo hoffhi
    | atEnd =>
        obtain rfl := Option.some.inj hbase
        rw [lseekRight_iff hentry rfl]
        exact clamp_i32_iff hsize (Int.natCast_nonneg _) (Int.le_refl _) hofflo hoffhi
    | invalid => cases hbase
  · intro evs u hrun
    refine hrun.invariant (I := fun t => PosOk t fd e.dspaceSize) ⟨e, hentry, rfl, hlo, hhi⟩
      fun t ev u h _ hu => ?_
    cases ev with
    | lseek fd' offset whence => exact Except.ok.inj hu ▸ h.moves hsize (lseek_moves t ..)
    | read fd' bufferDest bufferLen reply =>
        exact Except.ok.inj hu ▸ h.moves hsize (read_moves t ..)

/-- A file of 100 bytes, open as descriptor 3. -/
def hundredBytes : FdEntry := ⟨1, 1, Nat.one_ne_zero, 40, 100⟩

def hundredTable : FdTable where
  table := (Coat.init fdTableBase 1024).set 3 hundredBytes
  tableSize := 1024

/-- 50 bytes forward from the middle of the file. -/
theorem lseek_right_iff_forward :
    LseekRight hundredTable 3 hundredBytes 40 50 .cur ↔ (40 + 50 : Int) < 2 ^ 31 :=
  (lseek_right_iff hundredTable 3 hundredBytes rfl (by decide) (by decide) (by decide)).1 50 40 .cur
    (by decide) (by decide) rfl

/-- A seek far behind the end of the file leads to its beginning. -/
theorem lseek_past_end : ¬LseekRight hundredTable 3 hundredBytes 100 (2 ^ 31 - 1) .atEnd ∧
    (filetableLseek hundredTable 3 (2 ^ 31 - 1) .atEnd).2.1 = 0 ∧
    seekTarget hundredBytes 100 (2 ^ 31 - 1) = 100 := by
  refine ⟨fun h => ?_, by decide, by decide⟩
  have hpos := h.2
  revert hpos
  decide

end PartitionSeL4.Refos
