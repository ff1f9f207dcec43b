import PartitionSeL4.Refos.FileServSafe

/-!
# Whose pages the file server supplies

An association keeps the bare id of a dataspace, and `data_close` frees the id without looking for
associations. The id freed last is handed out first. A window that was mapped before the `close` is
then paged from the file that is opened next.

`pages_of_mapped_file` is what holds otherwise: as long as no `data_open` gets an id that an
association for another file still names, every page and every piece of contents supplied come from
the file that was open under the id when the association was made.
-/

namespace PartitionSeL4.Refos

open Lib

/-! ## The property and the condition -/

/-- Whatever the notifications supply is a piece of the file that the association was made for. -/
structure FileServ.PagesRight (archive : CpioArchive) (s : FileServ) : Prop where
  fault : ∀ n r s', fileHandle archive s (.fault n) = .ok (r, s') →
    ∃ dwa ∈ s.windowAssocTable n.winID, ∃ count, r = .page (blit (fun _ => 0) n.initFrameSkip
      (slice (s.byte archive dwa.file) (dwa.dataspaceOffset + n.dataspaceSkipWinOffset) count))
  contentInit : ∀ dataID offset r s', fileHandle archive s (.contentInit dataID offset) =
      .ok (r, s') →
    ∃ dda ∈ s.dspaceAssocTable dataID, ∃ count, r = .provided
      (slice (s.byte archive dda.file) (u32 (offset + dda.dataspaceOffset)) count)

/-- The associations of a table that name an id were made for a file. -/
def NamesOnly (table : Nat → Option DataspaceAssociationInfo) (id : Nat) (file : FileData) : Prop :=
  ∀ objID di, table objID = some di → di.dataspaceID = id → di.file = file

/-- An `open` does not get an id that an association for another file names. -/
def FileServ.NoStaleId (archive : CpioArchive) (s : FileServ) : FileEvent → Prop
  | .dataOpen name flags _ => ∀ id pool file s', s.allocTable.pool.alloc = some (id, pool) →
      s.findFile archive name flags = .ok (file, s') →
        NamesOnly s.windowAssocTable id file.fileData ∧
          NamesOnly s.dspaceAssocTable id file.fileData
  | _ => True

/-! ## The invariant -/

/-- A dataspace that an association names is a dataspace of the association's file. -/
def AssocOk (table : Nat → Option DataspaceAssociationInfo) (dspaces : Nat → Option FsDataspace) :
    Prop :=
  ∀ objID di, table objID = some di → ∀ dspace ∈ dspaces di.dataspaceID,
    dspace.fileData = di.file

structure FileServ.AssocsOk (s : FileServ) : Prop where
  coat : s.allocTable.Ok
  id_eq : ∀ id dspace, s.allocTable.table id = some dspace → dspace.dID = id
  window : AssocOk s.windowAssocTable s.allocTable.table
  external : AssocOk s.dspaceAssocTable s.allocTable.table

section Assoc

variable {table : Nat → Option DataspaceAssociationInfo} {dspaces : Nat → Option FsDataspace}
  {id objID offset : Nat} {dspace : FsDataspace}

theorem AssocOk.opened (h : AssocOk table dspaces) (hnames : NamesOnly table id dspace.fileData) :
    AssocOk table (Function.update dspaces id (some dspace)) := by
  intro obj di hdi d hd
  rw [Option.mem_def, Function.update_apply] at hd
  split_ifs at hd with hid
  · rw [← Option.some.inj hd]
    exact (hnames obj di hdi hid).symm
  · exact h obj di hdi d hd

theorem AssocOk.closed (h : AssocOk table dspaces) :
    AssocOk table (Function.update dspaces id none) := by
  intro obj di hdi d hd
  rw [Option.mem_def, Function.update_apply] at hd
  split_ifs at hd
  exact h obj di hdi d hd

theorem AssocOk.changed {new : FsDataspace} (h : AssocOk table dspaces)
    (hlive : dspaces id = some dspace) (hfile : new.fileData = dspace.fileData) :
    AssocOk table (Function.update dspaces id (some new)) := by
  refine h.opened fun obj di hdi hid => ?_
  rw [hfile]
  exact (h obj di hdi dspace (hid ▸ hlive)).symm

theorem AssocOk.associated {di : Option DataspaceAssociationInfo} (h : AssocOk table dspaces)
    (hlive : dspaces dspace.dID = some dspace) (hdi : ∀ d ∈ di, d = dspace.association offset) :
    AssocOk (Function.update table objID di) dspaces := by
  intro obj d hd ds hds
  rw [Function.update_apply] at hd
  split_ifs at hd
  · obtain rfl := hdi d hd
    rw [FsDataspace.association, Option.mem_def, hlive] at hds
    exact Option.some.inj hds ▸ rfl
  · exact h obj d hd ds hds

end Assoc

namespace FileServ

variable {archive : CpioArchive} {s s' : FileServ}

theorem AssocsOk.init : fileServInit.AssocsOk where
  coat := .init (by omega) (by omega)
  id_eq id dspace h := by cases h
  window objID di h := by cases h
  external objID di h := by cases h

theorem AssocsOk.step {e : FileEvent} (h : s.AssocsOk) (hstale : s.NoStaleId archive e)
    (hs' : fileStep archive s e = .ok s') : s'.AssocsOk := by
  cases change_of_step h.coat hs' with
  | unchanged => exact h
  | notOpened t found coat table =>
      obtain ⟨_, hwindow, hexternal⟩ := findFile_frame found
      exact ⟨coat, table ▸ h.id_eq, table ▸ hwindow ▸ h.window, table ▸ hexternal ▸ h.external⟩
  | opened t found alloc coat fresh table =>
      obtain ⟨_, hwindow, hexternal⟩ := findFile_frame found
      obtain ⟨hnames, hnames'⟩ := hstale _ _ _ _ alloc found
      refine ⟨coat, ?_, ?_, ?_⟩
      · intro i d hd
        have hd : t.table i = some d := hd
        rw [table, Function.update_apply] at hd
        split_ifs at hd with hi
        · rw [← Option.some.inj hd]
          exact hi.symm
        · exact h.id_eq i d hd
      · exact table ▸ hwindow ▸ h.window.opened hnames
      · exact table ▸ hexternal ▸ h.external.opened hnames'
  | closed live =>
      refine ⟨(h.coat.remove live).1, fun i d hd => ?_, h.window.closed, h.external.closed⟩
      have hd : Function.update s.allocTable.table _ none i = some d := hd
      rw [Function.update_apply] at hd
      split_ifs at hd
      exact h.id_eq i d hd
  | wrote get live created file fits =>
      refine ⟨h.coat.set (by simp [live]) _, fun i d hd => ?_, h.window.changed live rfl,
        h.external.changed live rfl⟩
      have hd : Function.update s.allocTable.table _ (some _) i = some d := hd
      rw [Function.update_apply] at hd
      split_ifs at hd with hi
      · have hid := h.id_eq _ _ live
        rw [← Option.some.inj hd, hi]
        exact hid
      · exact h.id_eq i d hd
  | mapped di live assoc =>
      exact ⟨h.coat, h.id_eq, h.window.associated ((h.id_eq _ _ live).symm ▸ live) assoc,
        h.external⟩
  | unmapped =>
      refine ⟨h.coat, h.id_eq, fun obj d hd => ?_, h.external⟩
      have hd : Function.update s.windowAssocTable _ none obj = some d := hd
      rw [Function.update_apply] at hd
      split_ifs at hd
      exact h.window obj d hd
  | initialised di live assoc =>
      exact ⟨h.coat, h.id_eq, h.window,
        h.external.associated ((h.id_eq _ _ live).symm ▸ live) assoc⟩

theorem AssocsOk.pagesRight (h : s.AssocsOk) : s.PagesRight archive where
  fault n r s' hr := by
    simp only [fileHandle, handleFileserverFault] at hr
    split at hr
    · cases hr
    rename_i dwa hdwa
    split at hr
    · cases hr
    rename_i dspace hdspace
    rw [h.window _ _ hdwa dspace (table_of_dspaceGet hdspace)] at hr
    split_ifs at hr
    obtain ⟨rfl, _⟩ := Prod.mk.inj (Except.ok.inj hr)
    exact ⟨dwa, hdwa, _, rfl⟩
  contentInit dataID offset r s' hr := by
    simp only [fileHandle, handleFileserverContentInit] at hr
    split at hr
    · cases hr
    rename_i dda hdda
    split at hr
    · cases hr
    rename_i dspace hdspace
    rw [h.external _ _ hdda dspace (table_of_dspaceGet hdspace)] at hr
    split_ifs at hr
    obtain ⟨rfl, _⟩ := Prod.mk.inj (Except.ok.inj hr)
    exact ⟨dda, hdda, _, rfl⟩

end FileServ

/-- **Pages of the mapped file.** In every run of requests and notifications in which no `data_open`
gets an id that an association for another file still names: whatever is supplied for a window or an
external dataspace is a piece of the file that was open under the id when the window was mapped or
the dataspace was to be initialised. -/
theorem pages_of_mapped_file (archive : CpioArchive) (evs : List FileEvent) (s : FileServ)
    (hrun : Run (fileStep archive) (FileServ.NoStaleId archive) fileServInit evs s) :
    s.PagesRight archive := by
  have hok : s.AssocsOk := by
    refine hrun.invariant .init ?_
    intro t e u h hstale hu
    exact h.step hstale hu
  exact hok.pagesRight

/-- Two files. -/
def twoFiles : CpioArchive := [([102], [7, 7, 7]), ([103], [8, 8, 8])]

/-- The first file is mapped; so its pages are right. -/
theorem pages_of_mapped_file_once :
    ∃ s, Run (fileStep twoFiles) (FileServ.NoStaleId twoFiles) fileServInit
        [.dataOpen [102] ⟨true, false⟩ .granted, .dataDatamap true firstFd true 0 9 .granted] s ∧
      (s.windowAssocTable 9).isSome ∧ s.PagesRight twoFiles := by
  obtain ⟨s, hrun, hassoc⟩ : ∃ s, Run (fileStep twoFiles) (fun _ _ => True) fileServInit
      [.dataOpen [102] ⟨true, false⟩ .granted, .dataDatamap true firstFd true 0 9 .granted] s ∧
      (s.windowAssocTable 9).isSome := by
    apply Run.exists_of_exec
    decide +kernel
  obtain ⟨s₁, _, hopen, hrest⟩ := hrun.cons_inv
  obtain ⟨s₂, _, hmap, hnil⟩ := hrest.cons_inv
  obtain rfl := hnil.nil_inv
  have hfirst : fileServInit.NoStaleId twoFiles (.dataOpen [102] ⟨true, false⟩ .granted) := by
    intro id pool file s' _ _
    constructor <;>
    · intro objID di hdi
      cases hdi
  have hrun₁ : Run (fileStep twoFiles) (FileServ.NoStaleId twoFiles) fileServInit [_] s₁ :=
    .single hfirst hopen
  have hrun₂ : Run (fileStep twoFiles) (FileServ.NoStaleId twoFiles) s₁ [_] s :=
    .single (show FileServ.NoStaleId twoFiles s₁ (.dataDatamap true firstFd true 0 9 .granted) from
      trivial) hmap
  have hrun' := hrun₁.trans hrun₂
  exact ⟨s, hrun', hassoc, pages_of_mapped_file twoFiles _ s hrun'⟩

/-- The first byte of a page supplied. -/
def FileReply.pageByte : FileReply → Option UInt8
  | .page frame => some (frame 0)
  | _ => none

/-- The first file is mapped and closed, and the second one opened: it gets the same id, and the
window shows its contents. -/
theorem page_of_another_file :
    ∃ s, Run (fileStep twoFiles) (fun _ e => e.Words) fileServInit
        [.dataOpen [102] ⟨true, false⟩ .granted, .dataDatamap true firstFd true 0 9 .granted,
          .dataClose true firstFd true, .dataOpen [103] ⟨true, false⟩ .granted] s ∧
      (∃ r s', fileHandle twoFiles s (.fault ⟨9, 4096, 0x10000, 0x10000⟩) = .ok (r, s') ∧
        r.pageByte = some 8) ∧ ¬s.PagesRight twoFiles := by
  obtain ⟨s, hrun, hfile, hbyte⟩ : ∃ s, Run (fileStep twoFiles) (fun _ e => e.Words) fileServInit
      [.dataOpen [102] ⟨true, false⟩ .granted, .dataDatamap true firstFd true 0 9 .granted,
        .dataClose true firstFd true, .dataOpen [103] ⟨true, false⟩ .granted] s ∧
      s.windowAssocTable 9 = some ⟨1, 0, .cpio [102]⟩ ∧
      ((fileHandle twoFiles s (.fault ⟨9, 4096, 0x10000, 0x10000⟩)).toOption.bind fun x =>
        x.1.pageByte) = some 8 := by
    apply Run.exists_of_exec
    decide +kernel
  obtain ⟨⟨r, s'⟩, hr, hbyte⟩ := Option.bind_eq_some_iff.1 hbyte
  have hr := eq_ok_of_toOption hr
  refine ⟨s, hrun, ⟨r, s', hr, hbyte⟩, fun h => ?_⟩
  obtain ⟨dwa, hdwa, count, rfl⟩ := h.fault _ _ _ hr
  obtain rfl := Option.some.inj (hfile.symm.trans hdwa)
  -- the first byte of a page of the first file is 7, or 0 where nothing is copied
  have hbyte : blit (fun _ => 0) 0 (slice (s.byte twoFiles (.cpio [102])) 0 count) 0 = 8 :=
    Option.some.inj hbyte
  cases count with
  | zero => cases hbyte
  | succ count =>
      have hfirst : (slice (s.byte twoFiles (.cpio [102])) 0 (count + 1))[0]? = some 7 :=
        getElem?_slice _ 0 (Nat.succ_pos count)
      rw [blit, if_pos (Nat.zero_le 0), Nat.sub_zero, hfirst] at hbyte
      cases hbyte

end PartitionSeL4.Refos
