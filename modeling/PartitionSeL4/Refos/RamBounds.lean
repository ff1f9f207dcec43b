import PartitionSeL4.Refos.FileServSafe

/-!
# Whether reads and writes stay inside a RAM file

A RAM file is an array of `CPIO_RAMFS_MAX_FILESSIZE` bytes, and the arrays lie one behind the
other. `data_write_handler` compares the end of a write, as a 32-bit sum, with the size of the
handle and with the maximal size, and copies to the offset. Where the sum is too large an assertion
fails before the error is returned. Where it wraps around neither comparison notices, and the copy
goes to another file (`ramfsAddr_wrapped`).

So a write does what it should if and only if it ends within the array: `ram_file_bounds_iff`.
Reads always do.
-/

namespace PartitionSeL4.Refos

open Lib

/-! ## The property -/

/-- A write changes only its range of the array of file `i`, and one that ends behind the array is
refused and changes nothing. -/
def FileServ.WriteInside (s : FileServ) (fd offset : Nat) (data : List UInt8) (i : Nat) : Prop :=
  ∃ r s', dataWriteHandler s true fd offset data = .ok (r, s') ∧
    (∀ j pos, s'.ramfsArchive j pos ≠ s.ramfsArchive j pos →
      j = i ∧ offset ≤ pos ∧ pos < offset + data.length ∧ pos < cpioRamfsMaxFilessize) ∧
    (cpioRamfsMaxFilessize < offset + data.length →
      (∃ e, r = .error e) ∧ s'.ramfsArchive = s.ramfsArchive ∧ s'.ramfsFilesz = s.ramfsFilesz ∧
        s'.allocTable = s.allocTable)

/-- A read gives bytes of the file below the size of the handle. -/
def FileServ.ReadsInside (archive : CpioArchive) (s : FileServ) (fd : Nat) (dspace : FsDataspace) :
    Prop :=
  ∀ offset count, ∃ n ≤ count, (0 < n → offset + n ≤ dspace.fileDataSize) ∧
    dataReadHandler archive s true fd offset count =
      .bytes (slice (s.byte archive dspace.fileData) offset n)

variable {archive : CpioArchive} {s : FileServ} {fd offset i : Nat} {data : List UInt8}
  {dspace : FsDataspace}

/-! ## Reads and writes -/

theorem reads_inside (hget : s.dspaceGetBadge fd = some dspace) :
    s.ReadsInside archive fd dspace := by
  intro offset count
  simp only [dataReadHandler, hget, Bool.true_eq_false, if_false]
  split_ifs with hend
  · exact ⟨0, Nat.zero_le _, fun h => absurd h (Nat.lt_irrefl 0), rfl⟩
  · exact ⟨_, Nat.min_le_right _ _, fun _ => by omega, rfl⟩

theorem write_inside (hget : s.dspaceGetBadge fd = some dspace)
    (hcreated : dspace.fileCreated = true) (hfile : dspace.fileData = .ramfs i)
    (hfits : offset + data.length ≤ cpioRamfsMaxFilessize) :
    s.WriteInside fd offset data i := by
  have hstop : u32 (offset + data.length) = offset + data.length :=
    u32_of_lt (Nat.lt_of_le_of_lt hfits (by decide))
  simp only [FileServ.WriteInside, dataWriteHandler, hget, hcreated, hfile, hstop,
    Bool.true_eq_false, if_false]
  rw [if_neg (by omega), if_neg (by omega)]
  refine ⟨_, _, rfl, fun j pos hne => ?_, fun hlong => absurd hfits (Nat.not_le.2 hlong)⟩
  have hj : j = i := by
    by_contra hj
    exact hne (congrFun (Function.update_of_ne hj ..) pos)
  subst hj
  have hin : ¬(pos < offset ∨ offset + data.length ≤ pos) := by
    intro hout
    refine hne ?_
    simp only [Function.update_self]
    exact blit_of_outside _ _ _ hout
  omega

/-- A write that ends behind the array runs into the assertion, or past the array. -/
theorem write_outside (hget : s.dspaceGetBadge fd = some dspace)
    (hcreated : dspace.fileCreated = true) (hfile : dspace.fileData = .ramfs i)
    (hlong : cpioRamfsMaxFilessize < offset + data.length) :
    ∃ failure, dataWriteHandler s true fd offset data = .error failure := by
  simp only [dataWriteHandler, hget, hcreated, hfile, Bool.true_eq_false, if_false]
  split_ifs
  · exact ⟨_, rfl⟩
  · exact ⟨_, rfl⟩

/-- **RAM files are left if and only if a write ends behind the array.** -/
theorem ram_file_bounds_iff (archive : CpioArchive) (s : FileServ) (fd offset i : Nat)
    (data : List UInt8) (dspace : FsDataspace) (hget : s.dspaceGetBadge fd = some dspace)
    (hcreated : dspace.fileCreated = true) (hfile : dspace.fileData = .ramfs i) :
    s.WriteInside fd offset data i ∧ s.ReadsInside archive fd dspace ↔
      offset + data.length ≤ cpioRamfsMaxFilessize := by
  constructor
  · rintro ⟨⟨r, s', hwrite, _⟩, _⟩
    by_contra hlong
    obtain ⟨failure, hfails⟩ := write_outside hget hcreated hfile (Nat.not_le.1 hlong)
    rw [hfails] at hwrite
    cases hwrite
  · intro hfits
    exact ⟨write_inside hget hcreated hfile hfits, reads_inside hget⟩

/-- A new file. -/
def newFile : List FileEvent := [.dataOpen [120] ⟨false, true⟩ .granted]

/-- The last three bytes of a file are written. -/
theorem ram_file_bounds_iff_end :
    ∃ s, Run (fileStep []) (fun _ e => e.Words) fileServInit newFile s ∧
      s.WriteInside firstFd 40957 [1, 2, 3] 0 := by
  obtain ⟨s, hrun, hget⟩ : ∃ s, Run (fileStep []) (fun _ e => e.Words) fileServInit newFile s ∧
      s.dspaceGetBadge firstFd = some ⟨1, .ramfs 0, 0, true, [120]⟩ := by
    apply Run.exists_of_exec
    decide +kernel
  exact ⟨s, hrun, ((ram_file_bounds_iff [] s firstFd 40957 0 [1, 2, 3] _ hget rfl rfl).2
    (by decide)).1⟩

/-! ## Where a write goes -/

/-- The address of a place in the array of a file, in `_ramfs_archive`. -/
def ramfsAddr (base i offset : Nat) : Nat := u32 (base + cpioRamfsMaxFilessize * i + offset)

/-- An offset of a few bytes below 2^32 is a place at the end of the file before. -/
theorem ramfsAddr_wrapped (base i : Nat) {k : Nat} (hk : k ≤ cpioRamfsMaxFilessize) :
    ramfsAddr base (i + 1) (2 ^ 32 - k) = ramfsAddr base i (cpioRamfsMaxFilessize - k) := by
  have hle : cpioRamfsMaxFilessize < 2 ^ 32 := by decide
  have hsum : base + cpioRamfsMaxFilessize * (i + 1) + (2 ^ 32 - k) =
      base + cpioRamfsMaxFilessize * i + (cpioRamfsMaxFilessize - k) + 2 ^ 32 := by
    rw [Nat.mul_succ]
    omega
  rw [ramfsAddr, ramfsAddr, hsum, u32, u32, Nat.add_mod_right]

/-- Two files, and four bytes for the second one at the offset 2^32 - 2. The end of the write is 2
as a word. The copy begins with the last two bytes of the first file. A write of one byte behind the
end is not refused either, but trips the assertion. -/
theorem write_leaves_file :
    ∃ s, Run (fileStep []) (fun _ e => e.Words) fileServInit
        (newFile ++ [.dataOpen [121] ⟨false, true⟩ .granted]) s ∧
      ¬s.WriteInside (firstFd + 1) (2 ^ 32 - 2) [1, 2, 3, 4] 1 ∧
      s.ending [] (.dataWrite true (firstFd + 1) (2 ^ 32 - 2) [1, 2, 3, 4]) = .error .fault ∧
      (∀ base, ramfsAddr base 1 (2 ^ 32 - 2) = ramfsAddr base 0 40958) ∧
      ¬s.WriteInside (firstFd + 1) 40960 [1] 1 ∧
      s.ending [] (.dataWrite true (firstFd + 1) 40960 [1]) = .error .assertion := by
  obtain ⟨s, hrun, hwrapped, hlong⟩ : ∃ s, Run (fileStep []) (fun _ e => e.Words) fileServInit
      (newFile ++ [.dataOpen [121] ⟨false, true⟩ .granted]) s ∧
      s.ending [] (.dataWrite true (firstFd + 1) (2 ^ 32 - 2) [1, 2, 3, 4]) = .error .fault ∧
      s.ending [] (.dataWrite true (firstFd + 1) 40960 [1]) = .error .assertion := by
    apply Run.exists_of_exec
    decide +kernel
  have hnot : ∀ offset data failure,
      s.ending [] (.dataWrite true (firstFd + 1) offset data) = .error failure →
        ¬s.WriteInside (firstFd + 1) offset data 1 := by
    rintro offset data failure hending ⟨r, s', hwrite, _⟩
    rw [FileServ.ending, fileHandle, hwrite] at hending
    cases hending
  refine ⟨s, hrun, hnot _ _ _ hwrapped, hwrapped, fun base => ?_, hnot _ _ _ hlong, hlong⟩
  exact ramfsAddr_wrapped base 0 (by decide)

end PartitionSeL4.Refos
