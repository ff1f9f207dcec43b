import PartitionSeL4.Refos.FileServSafe

/-!
# RAM files and their handles

The contents and the size of a RAM file are shared, but a handle has a size of its own: the recorded
size when it was opened, raised by its own writes. A read goes by the size of the handle, and every
write makes it the recorded size.

What a RAM file is for is said by the list of creations and writes: `ramSize` and `ramContents`.
`ram_file_semantics` says that the server implements this as long as a write goes through a handle
whose own size would give the same result as the recorded one. A write through a handle that has
missed another one's writes makes the file shorter.
-/

namespace PartitionSeL4.Refos

open Lib

/-! ## What a RAM file is -/

/-- The size of a file after a creation or a write: the largest end of a write since the last
creation. -/
def RamOp.sizeAfter (name : List UInt8) (size : Nat) : RamOp → Nat
  | .create n => if n = name then 0 else size
  | .write n offset data => if n = name then max size (offset + data.length) else size

/-- The contents of a file after a creation or a write. -/
def RamOp.contentsAfter (name : List UInt8) (contents : Nat → UInt8) : RamOp → Nat → UInt8
  | .create n => if n = name then fun _ => 0 else contents
  | .write n offset data => if n = name then blit contents offset data else contents

def ramSize (ops : List RamOp) (name : List UInt8) : Nat := ops.foldl (RamOp.sizeAfter name) 0

def ramContents (ops : List RamOp) (name : List UInt8) : Nat → UInt8 :=
  ops.foldl (RamOp.contentsAfter name) fun _ => 0

@[simp] theorem ramSize_append (ops : List RamOp) (op : RamOp) (name : List UInt8) :
    ramSize (ops ++ [op]) name = op.sizeAfter name (ramSize ops name) := by
  simp [ramSize]

@[simp] theorem ramContents_append (ops : List RamOp) (op : RamOp) (name : List UInt8) :
    ramContents (ops ++ [op]) name = op.contentsAfter name (ramContents ops name) := by
  simp [ramContents]

/-! ## The property and the condition -/

/-- The name in a row of `_ramfs_filename`. -/
def FileServ.HasName (s : FileServ) (i : Nat) (name : List UInt8) : Prop :=
  strEq s.ramfsFilename name (cpioRamfsMaxFilename * i) = true

/-- The recorded size of the file of a handle. -/
def FileServ.recordedSize (s : FileServ) (dspace : FsDataspace) : Nat :=
  match dspace.fileData with
  | .ramfs i => s.ramfsFilesz i
  | .cpio _ => dspace.fileDataSize

/-- Names are shorter than a row, and writes end within the maximal size. -/
def FileEvent.RamDomain : FileEvent → Prop
  | .dataOpen name _ _ => 0 ∉ name ∧ name.length < cpioRamfsMaxFilename
  | .dataWrite _ _ offset data => offset + data.length ≤ cpioRamfsMaxFilessize
  | _ => True

instance : (e : FileEvent) → Decidable e.RamDomain
  | .dataOpen _ _ _ => inferInstanceAs (Decidable (_ ∧ _))
  | .dataWrite _ _ _ _ => inferInstanceAs (Decidable (_ ≤ _))
  | .dataClose _ _ _ | .dataRead _ _ _ _ | .dataDatamap _ _ _ _ _ _ | .dataDataunmap _ _ _
  | .dataInitData _ _ _ _ _ _ | .fault _ | .contentInit _ _ => inferInstanceAs (Decidable True)

/-- The size of the handle and the recorded size give the same size after the write. -/
def FileServ.WriteUpToDate (s : FileServ) : FileEvent → Prop
  | .dataWrite _ fd offset data => ∀ dspace ∈ s.dspaceGetBadge fd, dspace.fileCreated = true →
      max dspace.fileDataSize (offset + data.length) =
        max (s.recordedSize dspace) (offset + data.length)
  | _ => True

instance (s : FileServ) : (e : FileEvent) → Decidable (s.WriteUpToDate e)
  | .dataWrite _ _ _ _ => inferInstanceAs (Decidable (∀ dspace ∈ _, _))
  | .dataOpen _ _ _ | .dataClose _ _ _ | .dataRead _ _ _ _ | .dataDatamap _ _ _ _ _ _
  | .dataDataunmap _ _ _ | .dataInitData _ _ _ _ _ _ | .fault _ | .contentInit _ _ =>
      inferInstanceAs (Decidable True)

/-- What is asked for of the file is within the size of the handle. -/
def FileServ.ReadUpToDate (s : FileServ) (dspace : FsDataspace) (offset count : Nat) : Prop :=
  min (offset + count) (s.recordedSize dspace) ≤ max offset dspace.fileDataSize

/-- The RAM files have the size and the contents that they should have: recorded, after a further
write, and as read through any handle. -/
structure FileServ.RamFilesRight (archive : CpioArchive) (s : FileServ) : Prop where
  named : ∀ i < s.ramfsCurfile, ∃ name, 0 ∉ name ∧ s.HasName i name
  size : ∀ i < s.ramfsCurfile, ∀ name, 0 ∉ name → s.HasName i name →
    s.ramfsFilesz i = ramSize s.ops name
  write : ∀ caps fd offset data s', s.WriteUpToDate (.dataWrite caps fd offset data) →
    fileStep archive s (.dataWrite caps fd offset data) = .ok s' →
      ∀ i, s.ramfsFilesz i ≤ s'.ramfsFilesz i
  read : ∀ fd offset count dspace, s.dspaceGetBadge fd = some dspace → dspace.fileCreated = true →
    s.ReadUpToDate dspace offset count →
      ∃ bytes, dataReadHandler archive s true fd offset count = .bytes bytes ∧
        ∀ pos, offset ≤ pos → pos < offset + count → pos < ramSize s.ops dspace.name →
          bytes[pos - offset]? = some (ramContents s.ops dspace.name pos)

/-! ## Names -/

section Names

variable {mem mem' : Nat → UInt8} {name name' : List UInt8} {addr : Nat}

theorem strEq_unique (h : strEq mem name addr = true) (h' : strEq mem name' addr = true)
    (hname : 0 ∉ name) (hname' : 0 ∉ name') : name = name' := by
  induction name generalizing name' addr with
  | nil =>
      cases name' with
      | nil => rfl
      | cons c' name' =>
          simp only [strEq, Bool.and_eq_true, decide_eq_true_eq] at h h'
          exact absurd (List.mem_cons.2 (Or.inl (h.symm.trans h'.1))) hname'
  | cons c name ih =>
      cases name' with
      | nil =>
          simp only [strEq, Bool.and_eq_true, decide_eq_true_eq] at h h'
          exact absurd (List.mem_cons.2 (Or.inl (h'.symm.trans h.1))) hname
      | cons c' name' =>
          simp only [strEq, Bool.and_eq_true, decide_eq_true_eq] at h h'
          obtain ⟨hc, h⟩ := h
          obtain ⟨hc', h'⟩ := h'
          rw [← hc, ← hc', ih h h' (fun hm => hname (List.mem_cons_of_mem _ hm))
            fun hm => hname' (List.mem_cons_of_mem _ hm)]

/-- A comparison reads the string and the byte behind it. -/
theorem strEq_congr (h : ∀ a, addr ≤ a → a ≤ addr + name.length → mem a = mem' a) :
    strEq mem name addr = strEq mem' name addr := by
  induction name generalizing addr with
  | nil => simp [strEq, h addr (Nat.le_refl _) (Nat.le_refl _)]
  | cons c name ih =>
      rw [List.length_cons] at h
      rw [strEq, strEq, h addr (Nat.le_refl _) (by omega), ih]
      intro a h₁ h₂
      exact h a (by omega) (by omega)

/-- A memory that holds the bytes of a name and a zero holds the name. -/
theorem strEq_of_bytes (h : ∀ j < name.length, mem (addr + j) = name.getD j 0)
    (hzero : mem (addr + name.length) = 0) : strEq mem name addr = true := by
  induction name generalizing addr with
  | nil => simpa [strEq] using hzero
  | cons c name ih =>
      rw [strEq, Bool.and_eq_true, decide_eq_true_eq]
      refine ⟨by simpa using h 0 (Nat.succ_pos _), ih (fun j hj => ?_) ?_⟩
      · have := h (j + 1) (Nat.succ_lt_succ hj)
        rwa [Nat.add_right_comm, Nat.add_assoc]
      · rwa [List.length_cons, ← Nat.add_assoc, Nat.add_right_comm] at hzero

theorem strEq_strncpy (hlen : name.length < cpioRamfsMaxFilename) :
    strEq (blit mem addr (strncpyBytes name cpioRamfsMaxFilename)) name addr = true := by
  have hbytes : ∀ j < cpioRamfsMaxFilename,
      blit mem addr (strncpyBytes name cpioRamfsMaxFilename) (addr + j) = name.getD j 0 := by
    intro j hj
    have hl : (strncpyBytes name cpioRamfsMaxFilename).length = cpioRamfsMaxFilename := by
      simp only [strncpyBytes, List.length_append, List.length_take, List.length_replicate]
      omega
    rw [blit_of_inside _ _ _ (hl.symm ▸ hj)]
    simp only [strncpyBytes, List.take_of_length_le (Nat.le_of_lt hlen)]
    rw [List.getElem_append]
    split_ifs with hin
    · simp [hin]
    · simp [hin]
  refine strEq_of_bytes (fun j hj => hbytes j (by omega)) ?_
  rw [hbytes _ hlen]
  simp

end Names

/-! ## The invariant -/

/-- The handle of a created file is one for a row, opened under its name. -/
def FsDataspace.ForRow (names : Nat → List UInt8) (rows : Nat) (dspace : FsDataspace) : Prop :=
  dspace.fileCreated = true → ∃ i < rows, dspace.fileData = .ramfs i ∧ dspace.name = names i

/-- The rows of the RAM files hold distinct names, and the sizes and contents are those of what was
done under these names. -/
structure FileServ.RamOk (names : Nat → List UInt8) (s : FileServ) : Prop where
  coat : s.allocTable.Ok
  short : ∀ i < s.ramfsCurfile, 0 ∉ names i ∧ (names i).length < cpioRamfsMaxFilename
  row : ∀ i < s.ramfsCurfile, s.HasName i (names i)
  distinct : ∀ i < s.ramfsCurfile, ∀ j < s.ramfsCurfile, names i = names j → i = j
  size : ∀ i < s.ramfsCurfile, s.ramfsFilesz i = ramSize s.ops (names i)
  contents : ∀ i < s.ramfsCurfile, s.ramfsArchive i = ramContents s.ops (names i)
  unused : ∀ i, s.ramfsCurfile ≤ i → s.ramfsFilesz i = 0 ∧ s.ramfsArchive i = fun _ => 0
  handle : ∀ id dspace, s.allocTable.table id = some dspace → dspace.ForRow names s.ramfsCurfile

namespace FileServ

variable {archive : CpioArchive} {s s' : FileServ} {names : Nat → List UInt8} {name : List UInt8}

theorem RamOk.init (names : Nat → List UInt8) : fileServInit.RamOk names where
  coat := .init (by omega) (by omega)
  short i hi := absurd hi (Nat.not_lt_zero i)
  row i hi := absurd hi (Nat.not_lt_zero i)
  distinct i hi := absurd hi (Nat.not_lt_zero i)
  size i hi := absurd hi (Nat.not_lt_zero i)
  contents i hi := absurd hi (Nat.not_lt_zero i)
  unused i _ := ⟨rfl, rfl⟩
  handle id dspace h := by cases h

theorem RamOk.withTable (h : s.RamOk names) {t : Coat FsDataspace} (hcoat : t.Ok)
    (hhandle : ∀ id dspace, t.table id = some dspace → dspace.ForRow names s.ramfsCurfile) :
    RamOk names { s with allocTable := t } :=
  ⟨hcoat, h.short, h.row, h.distinct, h.size, h.contents, h.unused, hhandle⟩

theorem RamOk.name_eq (h : s.RamOk names) {i : Nat} (hi : i < s.ramfsCurfile) (hname : 0 ∉ name)
    (hrow : s.HasName i name) : name = names i :=
  strEq_unique hrow (h.row i hi) hname (h.short i hi).1

theorem RamOk.of_findRamfs_some (h : s.RamOk names) {i : Nat} (hname : 0 ∉ name)
    (hi : s.findRamfs name = some i) : i < s.ramfsCurfile ∧ name = names i := by
  have hlt : i < s.ramfsCurfile := List.mem_range.1 (List.mem_of_find?_eq_some hi)
  have hrow : s.HasName i name := by
    simpa [HasName] using List.find?_some hi
  exact ⟨hlt, h.name_eq hlt hname hrow⟩

theorem RamOk.of_findRamfs_none (h : s.RamOk names) (hnone : s.findRamfs name = none) :
    ∀ i < s.ramfsCurfile, names i ≠ name := by
  rintro i hi rfl
  exact List.find?_eq_none.1 hnone i (List.mem_range.2 hi) (h.row i hi)

/-- What is done to the file of one row changes the size and the contents of this row only. -/
theorem RamOk.changeRow (h : s.RamOk names) {i : Nat} (hi : i < s.ramfsCurfile) (op : RamOp)
    {size : Nat} {contents : Nat → UInt8}
    (hop : ∀ name, name ≠ names i → (∀ n, op.sizeAfter name n = n) ∧
      ∀ c, op.contentsAfter name c = c)
    (hsize : size = op.sizeAfter (names i) (ramSize s.ops (names i)))
    (hcontents : contents = op.contentsAfter (names i) (ramContents s.ops (names i))) :
    RamOk names { s with
      ramfsFilesz := Function.update s.ramfsFilesz i size
      ramfsArchive := Function.update s.ramfsArchive i contents
      ops := s.ops ++ [op] } := by
  have hother : ∀ j < s.ramfsCurfile, j ≠ i → names j ≠ names i :=
    fun j hj hne heq => hne (h.distinct j hj i hi heq)
  refine ⟨h.coat, h.short, h.row, h.distinct, ?_, ?_, ?_, h.handle⟩
  · intro j hj
    simp only [Function.update_apply, ramSize_append]
    split_ifs with hji
    · rw [hji, hsize]
    · rw [(hop _ (hother j hj hji)).1]
      exact h.size j hj
  · intro j hj
    simp only [Function.update_apply, ramContents_append]
    split_ifs with hji
    · rw [hji, hcontents]
    · rw [(hop _ (hother j hj hji)).2]
      exact h.contents j hj
  · intro j hj
    have hji : j ≠ i := Nat.ne_of_gt (Nat.lt_of_lt_of_le hi hj)
    simp only [Function.update_of_ne hji]
    exact h.unused j hj

theorem RamOk.createRamfs (h : s.RamOk names) {i : Nat} (hi : i < s.ramfsCurfile) :
    (s.createRamfs i (names i)).RamOk names := by
  refine h.changeRow hi (.create (names i)) ?_ ?_ ?_
  · intro name hne
    simp [RamOp.sizeAfter, RamOp.contentsAfter, hne.symm]
  · simp [RamOp.sizeAfter]
  · simp [RamOp.contentsAfter]

theorem hasName_strncpy {i j : Nat} (hlen : name.length < cpioRamfsMaxFilename) (hj : j < i)
    (hrow : s.HasName j name) (bytes : List UInt8) :
    strEq (blit s.ramfsFilename (cpioRamfsMaxFilename * i) bytes) name (cpioRamfsMaxFilename * j)
      = true := by
  have hstep : cpioRamfsMaxFilename * (j + 1) ≤ cpioRamfsMaxFilename * i := Nat.mul_le_mul_left _ hj
  rw [Nat.mul_succ] at hstep
  have hbefore : strEq s.ramfsFilename name (cpioRamfsMaxFilename * j) = true := hrow
  rw [← hbefore]
  apply strEq_congr
  intro a _ ha
  exact blit_of_outside _ _ _ (Or.inl (by omega))

theorem RamOk.newRow (h : s.RamOk names) (hname : 0 ∉ name)
    (hlen : name.length < cpioRamfsMaxFilename) (hnew : ∀ i < s.ramfsCurfile, names i ≠ name) :
    RamOk (Function.update names s.ramfsCurfile name) { s with
      ramfsFilename := blit s.ramfsFilename (cpioRamfsMaxFilename * s.ramfsCurfile)
        (strncpyBytes name cpioRamfsMaxFilename)
      ramfsCurfile := s.ramfsCurfile + 1
      ops := s.ops ++ [.create name] } := by
  have hlast : Function.update names s.ramfsCurfile name s.ramfsCurfile = name :=
    Function.update_self ..
  have hold : ∀ i < s.ramfsCurfile, Function.update names s.ramfsCurfile name i = names i :=
    fun i hi => Function.update_of_ne (Nat.ne_of_lt hi) ..
  obtain ⟨hsize, hcontents⟩ := h.unused _ (Nat.le_refl _)
  refine ⟨h.coat, ?_, ?_, ?_, ?_, ?_, fun i hi => h.unused i (Nat.le_of_succ_le hi), ?_⟩
  · intro i hi
    obtain hi | rfl := Nat.lt_succ_iff_lt_or_eq.1 hi
    · rw [hold i hi]
      exact h.short i hi
    · rw [hlast]
      exact ⟨hname, hlen⟩
  · intro i hi
    obtain hi | rfl := Nat.lt_succ_iff_lt_or_eq.1 hi
    · rw [hold i hi]
      exact hasName_strncpy (h.short i hi).2 hi (h.row i hi) _
    · rw [hlast]
      exact strEq_strncpy hlen
  · intro i hi j hj
    obtain hi | rfl := Nat.lt_succ_iff_lt_or_eq.1 hi <;>
      obtain hj | rfl := Nat.lt_succ_iff_lt_or_eq.1 hj
    · rw [hold i hi, hold j hj]
      exact h.distinct i hi j hj
    · rw [hold i hi, hlast]
      exact fun heq => absurd heq (hnew i hi)
    · rw [hold j hj, hlast]
      exact fun heq => absurd heq.symm (hnew j hj)
    · exact fun _ => rfl
  · intro i hi
    obtain hi | rfl := Nat.lt_succ_iff_lt_or_eq.1 hi
    · simp only [hold i hi, ramSize_append, RamOp.sizeAfter, if_neg (hnew i hi).symm]
      exact h.size i hi
    · simp only [hlast, ramSize_append, RamOp.sizeAfter, if_true]
      exact hsize
  · intro i hi
    obtain hi | rfl := Nat.lt_succ_iff_lt_or_eq.1 hi
    · simp only [hold i hi, ramContents_append, RamOp.contentsAfter, if_neg (hnew i hi).symm]
      exact h.contents i hi
    · simp only [hlast, ramContents_append, RamOp.contentsAfter, if_true]
      exact hcontents
  · intro id dspace hd hcreated
    obtain ⟨i, hi, hfile, heq⟩ := h.handle id dspace hd hcreated
    exact ⟨i, Nat.lt_succ_of_lt hi, hfile, heq.trans (hold i hi).symm⟩

/-- Looking for a file keeps the invariant, and the file found is one under its name. -/
theorem RamOk.findFile {flags : OpenFlags} {file : FoundFile} (h : s.RamOk names) (hname : 0 ∉ name)
    (hlen : name.length < cpioRamfsMaxFilename)
    (hfound : s.findFile archive name flags = .ok (file, s')) :
    ∃ names', s'.RamOk names' ∧ ∀ id, (file.dataspace id name).ForRow names' s'.ramfsCurfile := by
  simp only [FileServ.findFile] at hfound
  split at hfound
  · split_ifs at hfound
    obtain ⟨rfl, rfl⟩ := Prod.mk.inj (Except.ok.inj hfound)
    refine ⟨names, h, fun id hcreated => ?_⟩
    cases hcreated
  split at hfound
  · rename_i i hi
    obtain ⟨rfl, rfl⟩ := Prod.mk.inj (Except.ok.inj hfound)
    obtain ⟨hlt, rfl⟩ := h.of_findRamfs_some hname hi
    split_ifs
    · exact ⟨names, h.createRamfs hlt, fun id _ => ⟨i, hlt, rfl, rfl⟩⟩
    · exact ⟨names, h, fun id _ => ⟨i, hlt, rfl, rfl⟩⟩
  · rename_i hnone
    split_ifs at hfound
    obtain ⟨rfl, rfl⟩ := Prod.mk.inj (Except.ok.inj hfound)
    refine ⟨_, h.newRow hname hlen (h.of_findRamfs_none hnone), fun id _ => ?_⟩
    exact ⟨s.ramfsCurfile, Nat.lt_succ_self _, rfl, by simp [FoundFile.dataspace]⟩

/-- Every step keeps the invariant, if a write goes through a handle that is up to date. -/
theorem RamOk.step {e : FileEvent} (h : s.RamOk names) (hdomain : e.RamDomain)
    (hfresh : s.WriteUpToDate e) (hs' : fileStep archive s e = .ok s') :
    ∃ names', s'.RamOk names' := by
  cases change_of_step h.coat hs' with
  | unchanged => exact ⟨names, h⟩
  | notOpened t found coat table =>
      obtain ⟨names', h', _⟩ := h.findFile hdomain.1 hdomain.2 found
      refine ⟨names', h'.withTable coat fun id d hd => h'.handle id d ?_⟩
      rw [(findFile_frame found).1, ← table, hd]
  | opened t found alloc coat fresh table =>
      obtain ⟨names', h', hnew⟩ := h.findFile hdomain.1 hdomain.2 found
      refine ⟨names', h'.withTable coat fun id d hd => ?_⟩
      rw [table, ← (findFile_frame found).1] at hd
      exact forall_update h'.handle (fun d hd => Option.some.inj hd ▸ hnew _) id d hd
  | closed live =>
      exact ⟨names, h.withTable (h.coat.remove live).1 (forall_update h.handle (by simp))⟩
  | @wrote caps fd offset id i data dspace get live created file fits =>
      obtain ⟨j, hj, hfile, hname⟩ := h.handle _ _ live created
      obtain rfl : j = i := FileData.ramfs.inj (hfile.symm.trans file)
      have hsize : max dspace.fileDataSize (offset + data.length) =
          max (ramSize s.ops (names j)) (offset + data.length) := by
        rw [hfresh dspace get created, recordedSize, hfile, ← h.size j hj]
      rw [hname, hsize]
      have hrow := h.changeRow hj (.write (names j) offset data)
        (fun name hne => by simp [RamOp.sizeAfter, RamOp.contentsAfter, hne.symm]) rfl rfl
      simp only [RamOp.sizeAfter, RamOp.contentsAfter, if_true, ← h.contents j hj] at hrow
      refine ⟨names, hrow.withTable (h.coat.set (by simp [live]) _) (forall_update h.handle ?_)⟩
      intro d hd
      rw [← Option.some.inj hd]
      exact fun _ => ⟨j, hj, hfile, rfl⟩
  | mapped di live assoc =>
      exact ⟨names, h.coat, h.short, h.row, h.distinct, h.size, h.contents, h.unused, h.handle⟩
  | unmapped =>
      exact ⟨names, h.coat, h.short, h.row, h.distinct, h.size, h.contents, h.unused, h.handle⟩
  | initialised di live assoc =>
      exact ⟨names, h.coat, h.short, h.row, h.distinct, h.size, h.contents, h.unused, h.handle⟩

/-! ## The semantics -/

theorem RamOk.read (h : s.RamOk names) {fd offset count : Nat} {dspace : FsDataspace}
    (hget : s.dspaceGetBadge fd = some dspace) (hcreated : dspace.fileCreated = true)
    (hfresh : s.ReadUpToDate dspace offset count) :
    ∃ bytes, dataReadHandler archive s true fd offset count = .bytes bytes ∧
      ∀ pos, offset ≤ pos → pos < offset + count → pos < ramSize s.ops dspace.name →
        bytes[pos - offset]? = some (ramContents s.ops dspace.name pos) := by
  obtain ⟨i, hi, hfile, hname⟩ := h.handle _ _ (table_of_dspaceGetBadge hget) hcreated
  have hrecorded : s.recordedSize dspace = ramSize s.ops dspace.name := by
    rw [recordedSize, hfile, hname, ← h.size i hi]
  rw [ReadUpToDate, hrecorded] at hfresh
  simp only [dataReadHandler, hget, Bool.true_eq_false, if_false]
  split_ifs with hend
  · refine ⟨[], rfl, ?_⟩
    intro pos hle hlt hsize
    omega
  · refine ⟨_, rfl, ?_⟩
    intro pos hle hlt hsize
    have hin : pos - offset < min (dspace.fileDataSize - offset) count := by omega
    rw [getElem?_slice _ _ hin, Nat.add_sub_cancel' hle, hfile, byte, h.contents i hi, hname]

theorem RamOk.write_le (h : s.RamOk names) {caps : Bool} {fd offset : Nat} {data : List UInt8}
    (hfresh : s.WriteUpToDate (.dataWrite caps fd offset data))
    (hs' : fileStep archive s (.dataWrite caps fd offset data) = .ok s') (i : Nat) :
    s.ramfsFilesz i ≤ s'.ramfsFilesz i := by
  cases change_of_step h.coat hs' with
  | unchanged => exact Nat.le_refl _
  | @wrote _ _ _ _ j _ dspace get live created file fits =>
      have hsize := hfresh dspace get created
      rw [recordedSize, file] at hsize
      simp only [Function.update_apply]
      split_ifs with hij
      · rw [hsize, hij]
        exact Nat.le_max_left _ _
      · exact Nat.le_refl _

theorem RamOk.ramFilesRight (h : s.RamOk names) : s.RamFilesRight archive where
  named i hi := ⟨names i, (h.short i hi).1, h.row i hi⟩
  size i hi name hname hrow := by
    rw [h.name_eq hi hname hrow]
    exact h.size i hi
  write _ _ _ _ _ hfresh hs' i := h.write_le hfresh hs' i
  read _ _ _ _ hget hcreated hfresh := h.read hget hcreated hfresh

end FileServ

/-- **RAM files.** In a run of requests in which every write goes through a handle whose own size
gives the same size after the write as the recorded one, the recorded size of every RAM file is the
largest end of a write since its last creation, such a write does not reduce it, and a read through
any handle gives the bytes last written, as far as what it asks for of the file is within the size
of the handle. -/
theorem ram_file_semantics (archive : CpioArchive) (evs : List FileEvent) (s : FileServ)
    (hrun : Run (fileStep archive) (fun t e => e.RamDomain ∧ t.WriteUpToDate e) fileServInit evs
      s) : s.RamFilesRight archive := by
  have hok : ∃ names, s.RamOk names := by
    refine hrun.invariant (I := fun t => ∃ names, t.RamOk names) ⟨fun _ => [], .init _⟩ ?_
    rintro t e u ⟨names, h⟩ ⟨hdomain, hfresh⟩ hu
    exact h.step hdomain hfresh hu
  obtain ⟨names, h⟩ := hok
  exact h.ramFilesRight

/-- The bytes of an answer. -/
def FileReply.readBytes : FileReply → Option (List UInt8)
  | .bytes data => some data
  | _ => none

/-- A file is created and written to twice through one handle. -/
theorem ram_file_semantics_one_handle :
    ∃ s, Run (fileStep []) (fun t e => e.RamDomain ∧ t.WriteUpToDate e) fileServInit
        [.dataOpen [120] ⟨false, true⟩ .granted, .dataWrite true firstFd 2 [1, 2],
          .dataWrite true firstFd 0 [3]] s ∧
      s.ramfsFilesz 0 = 4 ∧
      (dataReadHandler [] s true firstFd 0 4).readBytes = some [3, 0, 1, 2] ∧
      s.RamFilesRight [] := by
  obtain ⟨s, hrun, hsize, hread⟩ : ∃ s, Run (fileStep [])
      (fun t e => e.RamDomain ∧ t.WriteUpToDate e) fileServInit
      [.dataOpen [120] ⟨false, true⟩ .granted, .dataWrite true firstFd 2 [1, 2],
        .dataWrite true firstFd 0 [3]] s ∧
      s.ramfsFilesz 0 = 4 ∧
      (dataReadHandler [] s true firstFd 0 4).readBytes = some [3, 0, 1, 2] := by
    apply Run.exists_of_exec
    decide +kernel
  exact ⟨s, hrun, hsize, hread, ram_file_semantics [] _ s hrun⟩

/-- Two handles for one new file. Four bytes are written through the first one: a read through the
second one gives none of them. One byte is then written through the second one, and the recorded
size drops from four to one. -/
theorem short_write_shrinks_file :
    ∃ s s', Run (fileStep []) (fun _ e => e.RamDomain) fileServInit
        [.dataOpen [120] ⟨false, true⟩ .granted, .dataOpen [120] ⟨false, false⟩ .granted,
          .dataWrite true firstFd 0 [1, 2, 3, 4]] s ∧
      s.ramfsFilesz 0 = 4 ∧
      (dataReadHandler [] s true (firstFd + 1) 0 4).readBytes = some [] ∧
      fileStep [] s (.dataWrite true (firstFd + 1) 0 [9]) = .ok s' ∧
      s'.ramfsFilesz 0 = 1 ∧ ramSize s'.ops [120] = 4 := by
  obtain ⟨s, hrun, hsize, hread, hstep⟩ : ∃ s,
      Run (fileStep []) (fun _ e => e.RamDomain) fileServInit
        [.dataOpen [120] ⟨false, true⟩ .granted, .dataOpen [120] ⟨false, false⟩ .granted,
          .dataWrite true firstFd 0 [1, 2, 3, 4]] s ∧
      s.ramfsFilesz 0 = 4 ∧
      (dataReadHandler [] s true (firstFd + 1) 0 4).readBytes = some [] ∧
      (fileStep [] s (.dataWrite true (firstFd + 1) 0 [9])).toOption.any fun s' =>
        s'.ramfsFilesz 0 = 1 ∧ ramSize s'.ops [120] = 4 := by
    apply Run.exists_of_exec
    decide +kernel
  obtain ⟨s', hs', hafter⟩ := (Option.any_eq_true _ _).1 hstep
  exact ⟨s, s', hrun, hsize, hread, eq_ok_of_toOption hs', of_decide_eq_true hafter⟩

end PartitionSeL4.Refos
