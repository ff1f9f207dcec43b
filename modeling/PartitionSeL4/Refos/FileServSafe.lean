import PartitionSeL4.Refos.FileServ

/-!
# What brings the file server down

The handlers assert that the numbers they are given make sense: that a window's dataspace is still
open, that a page begins within the file, that a write does not make a file too long. These numbers
come from the clients. And the vectors of its tables assert that there is memory for them to grow.

`file_server_survives_iff` says exactly which event the server survives in a state that it can get
into: `Safe`, a condition on the event and the state before it. A fault in a page that begins past
the end of the file, a fault in a window whose dataspace has been closed and a write past the
maximal file size are not among them. A write whose end is not a 32-bit word does not run into the
assertion, but past the array.
-/

namespace PartitionSeL4.Refos

open Lib

/-! ## The condition and the property -/

/-- The event does not run into an assertion, or past an array. -/
def FileServ.Safe (archive : CpioArchive) (s : FileServ) : FileEvent → Prop
  | .dataOpen name flags o => o.asserts = false ∨ s.allocTable.pool.alloc = none ∨
      (s.findFile archive name flags).toOption = none
  | .dataClose caps fd freelist => freelist = true ∨ caps = false ∨ s.dspaceGetBadge fd = none
  | .dataWrite caps fd offset data => caps = true → ∀ dspace ∈ s.dspaceGetBadge fd,
      dspace.fileCreated = true → offset + data.length ≤ cpioRamfsMaxFilessize
  | .fault n => ∃ dwa ∈ s.windowAssocTable n.winID, ∃ dspace ∈ s.dspaceGet dwa.dataspaceID,
      dwa.dataspaceOffset + n.dataspaceSkipWinOffset ≤ dspace.fileDataSize
  | .contentInit dataID offset => ∃ dda ∈ s.dspaceAssocTable dataID,
      ∃ dspace ∈ s.dspaceGet dda.dataspaceID,
        u32 (offset + dda.dataspaceOffset) < dspace.fileDataSize
  | .dataDatamap caps fd given _ _ o | .dataInitData caps fd given _ _ o =>
      o.asserts = false ∨ caps = false ∨ given = false ∨ s.dspaceGetBadge fd = none
  | .dataRead _ _ _ _ | .dataDataunmap _ _ _ => True

/-- The part of a page that is past the end of the file is zero, and a write that makes a file too
long is not answered with a count. -/
def FileServ.AnswerOk (s : FileServ) : FileEvent → FileReply → Prop
  | .fault n, .page frame => ∀ dwa ∈ s.windowAssocTable n.winID,
      ∀ dspace ∈ s.dspaceGet dwa.dataspaceID, ∀ j,
        dspace.fileDataSize ≤ dwa.dataspaceOffset + n.dataspaceSkipWinOffset + j →
          frame (n.initFrameSkip + j) = 0
  | .dataWrite _ fd offset data, .written _ => ∀ dspace ∈ s.dspaceGetBadge fd,
      dspace.fileCreated = true → offset + data.length ≤ cpioRamfsMaxFilessize
  | _, _ => True

/-- The event is answered. -/
def FileServ.Survives (archive : CpioArchive) (s : FileServ) (e : FileEvent) : Prop :=
  ∃ r s', fileHandle archive s e = .ok (r, s') ∧ s.AnswerOk e r

/-! ## The invariant -/

/-- The files of the archive, which is part of the image of the server, fit into the lower half of
the address space. -/
def CpioArchive.Small (archive : CpioArchive) : Prop :=
  ∀ name contents, cpioGetFile archive name = some contents → contents.length < 2 ^ 31

/-- The size of a file fits into memory, and that of a created file is at most the maximal size. -/
def FsDataspace.Ok (dspace : FsDataspace) : Prop :=
  dspace.fileDataSize < 2 ^ 31 ∧ (dspace.fileCreated = true →
    (∃ i, dspace.fileData = .ramfs i) ∧ dspace.fileDataSize ≤ cpioRamfsMaxFilessize)

/-- What holds of the state between two events. -/
structure FileServ.Ok (s : FileServ) : Prop where
  coat : s.allocTable.Ok
  dspace : ∀ id dspace, s.allocTable.table id = some dspace → dspace.Ok
  filesz_le : ∀ i, s.ramfsFilesz i ≤ cpioRamfsMaxFilessize
  window_lt : ∀ winID di, s.windowAssocTable winID = some di → di.dataspaceOffset < 2 ^ 32
  external_lt : ∀ dataID di, s.dspaceAssocTable dataID = some di → di.dataspaceOffset < 2 ^ 32

theorem forall_update {α : Type} {table : Nat → Option α} {P : α → Prop} {j : Nat} {x : Option α}
    (h : ∀ i a, table i = some a → P a) (hx : ∀ a ∈ x, P a) (i : Nat) (a : α)
    (ha : Function.update table j x i = some a) : P a := by
  rw [Function.update_apply] at ha
  split_ifs at ha
  · exact hx a ha
  · exact h i a ha

namespace FileServ

variable {archive : CpioArchive} {s s' : FileServ}

theorem Ok.init : fileServInit.Ok where
  coat := .init (by omega) (by omega)
  dspace id dspace h := by cases h
  filesz_le i := Nat.zero_le _
  window_lt winID di h := by cases h
  external_lt dataID di h := by cases h

theorem Ok.resized (h : s.Ok) {size : Nat} (hsize : size ≤ cpioRamfsMaxFilessize) (i j : Nat) :
    Function.update s.ramfsFilesz i size j ≤ cpioRamfsMaxFilessize := by
  rw [Function.update_apply]
  split_ifs
  · exact hsize
  · exact h.filesz_le j

theorem Ok.findFile {name : List UInt8} {flags : OpenFlags} {file : FoundFile} (h : s.Ok)
    (hsmall : archive.Small) (hfound : s.findFile archive name flags = .ok (file, s')) :
    s'.Ok ∧ ∀ id, (file.dataspace id name).Ok := by
  have hmax : cpioRamfsMaxFilessize < 2 ^ 31 := by decide
  simp only [FileServ.findFile] at hfound
  split at hfound
  · rename_i contents hcontents
    split_ifs at hfound
    obtain ⟨rfl, rfl⟩ := Prod.mk.inj (Except.ok.inj hfound)
    have hlt : u32 contents.length < 2 ^ 31 :=
      Nat.lt_of_le_of_lt (Nat.mod_le _ _) (hsmall name contents hcontents)
    refine ⟨h, fun id => ⟨hlt, fun hcreated => ?_⟩⟩
    cases hcreated
  split at hfound
  · rename_i i hi
    obtain ⟨rfl, rfl⟩ := Prod.mk.inj (Except.ok.inj hfound)
    have hok : (if flags.creat then s.createRamfs i name else s).Ok := by
      split_ifs
      · exact ⟨h.coat, h.dspace, h.resized (Nat.zero_le _) i, h.window_lt, h.external_lt⟩
      · exact h
    have hle := hok.filesz_le i
    exact ⟨hok, fun id => ⟨Nat.lt_of_le_of_lt hle hmax, fun _ => ⟨⟨i, rfl⟩, hle⟩⟩⟩
  · split_ifs at hfound
    obtain ⟨rfl, rfl⟩ := Prod.mk.inj (Except.ok.inj hfound)
    exact ⟨⟨h.coat, h.dspace, h.filesz_le, h.window_lt, h.external_lt⟩,
      fun id => ⟨Nat.two_pow_pos 31, fun _ => ⟨⟨_, rfl⟩, Nat.zero_le _⟩⟩⟩

theorem Ok.step {e : FileEvent} (h : s.Ok) (hsmall : archive.Small) (hwords : e.Words)
    (hs' : fileStep archive s e = .ok s') : s'.Ok := by
  cases change_of_step h.coat hs' with
  | unchanged => exact h
  | notOpened t found coat table =>
      obtain ⟨hok, _⟩ := h.findFile hsmall found
      exact ⟨coat, fun id d hd => h.dspace id d (table ▸ hd), hok.filesz_le, hok.window_lt,
        hok.external_lt⟩
  | opened t found alloc coat fresh table =>
      obtain ⟨hok, hnew⟩ := h.findFile hsmall found
      refine ⟨coat, fun id d hd => ?_, hok.filesz_le, hok.window_lt, hok.external_lt⟩
      exact forall_update h.dspace (fun d hd => Option.some.inj hd ▸ hnew _) id d (table ▸ hd)
  | closed live =>
      exact ⟨(h.coat.remove live).1, forall_update h.dspace (by simp), h.filesz_le, h.window_lt,
        h.external_lt⟩
  | wrote get live created file fits =>
      obtain ⟨_, hcreated⟩ := h.dspace _ _ live
      have hle := Nat.max_le.2 ⟨(hcreated created).2, fits⟩
      refine ⟨h.coat.set (by simp [live]) _, forall_update h.dspace ?_, h.resized hle _,
        h.window_lt, h.external_lt⟩
      intro d hd
      rw [← Option.some.inj hd]
      exact ⟨Nat.lt_of_le_of_lt hle (by decide), fun _ => ⟨⟨_, file⟩, hle⟩⟩
  | mapped di live assoc =>
      refine ⟨h.coat, h.dspace, h.filesz_le, forall_update h.window_lt ?_, h.external_lt⟩
      intro d hd
      rw [assoc d hd]
      exact hwords
  | unmapped =>
      exact ⟨h.coat, h.dspace, h.filesz_le, forall_update h.window_lt (by simp), h.external_lt⟩
  | initialised di live assoc =>
      refine ⟨h.coat, h.dspace, h.filesz_le, h.window_lt, forall_update h.external_lt ?_⟩
      intro d hd
      rw [assoc d hd]
      exact hwords

end FileServ

/-! ## Differences of words -/

theorem sub32_of_le {a b : Nat} (ha : a < 2 ^ 31) (h : b ≤ a) : sub32 a b = a - b :=
  u32_sub h (by omega)

theorem sub32_le_iff {a b : Nat} (ha : a < 2 ^ 31) (hb : b < 2 ^ 32) : sub32 a b ≤ a ↔ b ≤ a := by
  constructor
  · intro hle
    by_contra hlt
    rw [sub32, u32_of_lt (by omega)] at hle
    omega
  · intro h
    rw [sub32_of_le ha h]
    exact Nat.sub_le _ _

/-- The check of `nbytes`: the page begins within the file. -/
theorem nbytes_sane_iff {size skip offset : Nat} (hsize : size < 2 ^ 31) (hskip : skip < 2 ^ 32)
    (hoffset : offset < 2 ^ 32) :
    ¬(size < sub32 (sub32 size skip) offset ∨ size < sub32 size skip ∨ size < sub32 size offset) ↔
      offset + skip ≤ size := by
  simp only [not_or, Nat.not_lt, sub32_le_iff hsize hskip, sub32_le_iff hsize hoffset]
  constructor
  · rintro ⟨hboth, hle, hle'⟩
    rw [sub32_of_le hsize hle] at hboth
    by_contra hlt
    rw [sub32, u32_of_lt (by omega)] at hboth
    omega
  · intro h
    have hle : skip ≤ size := by omega
    refine ⟨?_, hle, by omega⟩
    rw [sub32_of_le hsize hle, sub32_of_le (by omega) (by omega)]
    omega

theorem FaultNotification.skip_lt {n : FaultNotification} (h : (FileEvent.fault n).Words) :
    n.dataspaceSkipWinOffset < 2 ^ 32 := by
  obtain ⟨_, hlt, hle⟩ := h
  unfold dataspaceSkipWinOffset pageAlign
  split_ifs <;> omega

namespace FileServ

variable {archive : CpioArchive} {s s' : FileServ}

/-! ## Which events are survived -/

theorem survives_fault_iff {n : FaultNotification} (h : s.Ok) (hwords : (FileEvent.fault n).Words) :
    s.Survives archive (.fault n) ↔ s.Safe archive (.fault n) := by
  simp only [Survives, fileHandle, handleFileserverFault, Safe]
  cases hdwa : s.windowAssocTable n.winID with
  | none => simp
  | some dwa =>
      cases hdspace : s.dspaceGet dwa.dataspaceID with
      | none => simp [hdspace]
      | some dspace =>
          have hsize := (h.dspace _ _ (table_of_dspaceGet hdspace)).1
          have hoffset := h.window_lt _ _ hdwa
          have hsane := nbytes_sane_iff hsize (FaultNotification.skip_lt hwords) hoffset
          have hsafe : (∃ d ∈ some dwa, ∃ ds ∈ s.dspaceGet d.dataspaceID,
              d.dataspaceOffset + n.dataspaceSkipWinOffset ≤ ds.fileDataSize) ↔
              dwa.dataspaceOffset + n.dataspaceSkipWinOffset ≤ dspace.fileDataSize := by
            simp [hdspace]
          rw [hsafe, ← hsane]
          simp only [hdspace]
          split_ifs with hbad
          · simp [hbad]
          · refine ⟨fun _ => hbad, fun _ => ⟨_, s, rfl, ?_⟩⟩
            have hle := hsane.1 hbad
            intro d hd ds hds j hj
            obtain rfl := Option.some.inj (hdwa.symm.trans hd)
            obtain rfl := Option.some.inj (hdspace.symm.trans hds)
            -- no byte is copied to a place past the end of the file
            refine blit_of_outside _ _ _ (Or.inr ?_)
            rw [length_slice, sub32_of_le hsize (b := n.dataspaceSkipWinOffset) (by omega),
              sub32_of_le (b := dwa.dataspaceOffset) (by omega) (by omega)]
            omega

theorem survives_contentInit_iff (dataID offset : Nat) :
    s.Survives archive (.contentInit dataID offset) ↔ s.Safe archive (.contentInit dataID offset)
    := by
  simp only [Survives, fileHandle, handleFileserverContentInit, Safe]
  cases hdda : s.dspaceAssocTable dataID with
  | none => simp
  | some dda =>
      cases hdspace : s.dspaceGet dda.dataspaceID with
      | none => simp [hdspace]
      | some dspace =>
          simp only [Option.mem_def, Option.some.injEq, exists_eq_left', hdspace]
          split_ifs with hlt
          · exact ⟨fun _ => hlt, fun _ => ⟨_, s, rfl, trivial⟩⟩
          · simp [hlt]

theorem survives_write_iff {caps : Bool} {fd offset : Nat} {data : List UInt8} (h : s.Ok)
    (hwords : (FileEvent.dataWrite caps fd offset data).Words) :
    s.Survives archive (.dataWrite caps fd offset data) ↔
      s.Safe archive (.dataWrite caps fd offset data) := by
  simp only [Survives, fileHandle, dataWriteHandler, Safe]
  cases caps with
  | false => simp [AnswerOk]
  | true =>
      cases hdspace : s.dspaceGetBadge fd with
      | none => simp [AnswerOk, hdspace]
      | some dspace =>
          obtain ⟨_, hcreated⟩ := h.dspace _ _ (table_of_dspaceGetBadge hdspace)
          cases hc : dspace.fileCreated with
          | false => simp [AnswerOk, hc]
          | true =>
              obtain ⟨⟨i, hi⟩, hsize⟩ := hcreated hc
              have hsafe : (true = true → ∀ d ∈ some dspace, d.fileCreated = true →
                  offset + data.length ≤ cpioRamfsMaxFilessize) ↔
                  offset + data.length ≤ cpioRamfsMaxFilessize := by
                simp [hc]
              rw [hsafe]
              simp only [hi, hc, Bool.true_eq_false, if_false]
              split_ifs with hassert hlong
              · -- the end of the write, as a word, is past the maximal size
                have := Nat.mod_le (offset + data.length) (2 ^ 32)
                have hlt : cpioRamfsMaxFilessize < (offset + data.length) % 2 ^ 32 := hassert.2
                refine ⟨?_, fun hfits => absurd hfits (by omega)⟩
                rintro ⟨r, s', hr, _⟩
                cases hr
              · refine ⟨?_, fun hfits => absurd hlong (Nat.not_lt.2 hfits)⟩
                rintro ⟨r, s', hr, _⟩
                cases hr
              · have hfits := Nat.not_lt.1 hlong
                refine ⟨fun _ => hfits, fun _ => ⟨_, _, rfl, ?_⟩⟩
                intro d _ _
                exact hfits

theorem survives_open_iff {name : List UInt8} {flags : OpenFlags} {o : OpenOutcome} :
    s.Survives archive (.dataOpen name flags o) ↔ s.Safe archive (.dataOpen name flags o) := by
  simp only [Survives, fileHandle, dataOpenHandler, Safe]
  cases hfound : s.findFile archive name flags with
  | error e => simp [AnswerOk, Except.toOption]
  | ok found =>
      obtain ⟨file, s₁⟩ := found
      have hsame := (findFile_frame hfound).1
      simp only [hsame, Except.toOption, reduceCtorEq, or_false]
      by_cases hoom : s.allocTable.pool.alloc.isSome ∧ o.asserts = true
      · rw [if_pos hoom]
        obtain ⟨hsome, hasserts⟩ := hoom
        simp [hasserts, ← Option.isNone_iff_eq_none, hsome]
      · have hsafe : o.asserts = false ∨ s.allocTable.pool.alloc = none := by
          rw [not_and_or, Bool.not_eq_true, Bool.not_eq_true] at hoom
          exact hoom.symm.imp_right fun hnone => by simpa using hnone
        rw [if_neg hoom]
        refine ⟨fun _ => hsafe, fun _ => ?_⟩
        split
        · exact ⟨_, _, rfl, trivial⟩
        · exact ⟨_, _, rfl, trivial⟩

/-- An open dataspace is deleted, if its id can be given back. -/
theorem survives_close_iff {caps freelist : Bool} {fd : Nat} (h : s.Ok) :
    s.Survives archive (.dataClose caps fd freelist) ↔
      s.Safe archive (.dataClose caps fd freelist) := by
  simp only [Survives, fileHandle, dataCloseHandler, Safe]
  cases caps with
  | false => simp [AnswerOk]
  | true =>
      cases hdspace : s.dspaceGetBadge fd with
      | none => simp [AnswerOk]
      | some dspace =>
          have htable := table_of_dspaceGetBadge hdspace
          have hget : s.allocTable.get (fd - fsDspaceBadgeBase) = some dspace := by
            rw [dspaceGetBadge, dspaceGet] at hdspace
            split_ifs at hdspace
            exact hdspace
          have hlive := (h.coat.live (fd - fsDspaceBadgeBase)).1 (by simp [htable])
          have hdelete : s.allocTable.toDelete (fd - fsDspaceBadgeBase) = some dspace := by
            rw [Coat.toDelete, hlive.check_eq_false, hget]
            rfl
          cases freelist <;> simp [dspaceDelete, hdelete, AnswerOk, bind, Except.bind, pure,
            Except.pure]

/-- An association is made, if the hash table can take it. -/
theorem associate_iff (table : Nat → Option DataspaceAssociationInfo) (objID : Nat)
    (di : DataspaceAssociationInfo) (o : AssocOutcome) :
    (∃ r, dspaceExternalIDAssociate table objID di o = .ok r) ↔ o.asserts = false := by
  obtain ⟨malloc, entry, bucket⟩ := o
  cases malloc <;> cases entry <;> cases bucket <;>
    simp [dspaceExternalIDAssociate, AssocOutcome.asserts]

/-- What comes before an answer decides whether there is one. -/
theorem answers_iff {α β γ : Type} {x : Except Failure α} {f : α → β × γ} :
    (∃ r s', f <$> x = Except.ok (r, s')) ↔ ∃ a, x = .ok a := by
  cases x with
  | error e => simp [Functor.map, Except.map]
  | ok a => exact ⟨fun _ => ⟨a, rfl⟩, fun _ => ⟨_, _, rfl⟩⟩

/-- A request for an association is answered, unless it comes to the hash table, and that cannot
take it. -/
theorem association_answered_iff {caps given : Bool} {found : Option FsDataspace}
    {x y z : FileReply × FileServ} {table : Nat → Option DataspaceAssociationInfo}
    {objID offset : Nat} {o : AssocOutcome}
    {f : Err × (Nat → Option DataspaceAssociationInfo) → FileReply × FileServ} :
    (∃ r s', (if caps = false then Except.ok x else
      match found with
      | none => .ok y
      | some dspace => if given = false then .ok z else
          f <$> dspaceExternalIDAssociate table objID (dspace.association offset) o) =
        Except.ok (r, s')) ↔
      o.asserts = false ∨ caps = false ∨ given = false ∨ found = none := by
  cases caps with
  | false => exact iff_of_true ⟨x.1, x.2, rfl⟩ (.inr (.inl rfl))
  | true =>
      cases found with
      | none => exact iff_of_true ⟨y.1, y.2, rfl⟩ (.inr (.inr (.inr rfl)))
      | some dspace =>
          cases given with
          | false => exact iff_of_true ⟨z.1, z.2, rfl⟩ (.inr (.inr (.inl rfl)))
          | true => simp [answers_iff, associate_iff table objID (dspace.association offset) o]

theorem survives_datamap_iff {caps window : Bool} {fd offset winID : Nat} {o : AssocOutcome} :
    s.Survives archive (.dataDatamap caps fd window offset winID o) ↔
      s.Safe archive (.dataDatamap caps fd window offset winID o) := by
  simp only [Survives, fileHandle, dataDatamapHandler, bind_pure_comp, AnswerOk, and_true]
  exact association_answered_iff

theorem survives_initData_iff {caps dest : Bool} {fd offset dataID : Nat} {o : AssocOutcome} :
    s.Survives archive (.dataInitData caps fd dest offset dataID o) ↔
      s.Safe archive (.dataInitData caps fd dest offset dataID o) := by
  simp only [Survives, fileHandle, dataInitDataHandler, bind_pure_comp, AnswerOk, and_true]
  exact association_answered_iff

theorem survives_iff {e : FileEvent} (h : s.Ok) (hwords : e.Words) :
    s.Survives archive e ↔ s.Safe archive e := by
  cases e with
  | dataOpen name flags o => exact survives_open_iff
  | dataWrite caps fd offset data => exact survives_write_iff h hwords
  | fault n => exact survives_fault_iff h hwords
  | contentInit dataID offset => exact survives_contentInit_iff dataID offset
  | dataClose caps fd freelist => exact survives_close_iff h
  | dataDatamap caps fd window offset winID o => exact survives_datamap_iff
  | dataInitData caps fd dest offset dataID o => exact survives_initData_iff
  | dataRead | dataDataunmap =>
      exact ⟨fun _ => trivial, fun _ => ⟨_, _, rfl, trivial⟩⟩

theorem ok_of_run {ok : FileServ → FileEvent → Prop} {evs : List FileEvent} (hsmall : archive.Small)
    (hok : ∀ t e, ok t e → e.Words) (hrun : Run (fileStep archive) ok fileServInit evs s) :
    s.Ok :=
  hrun.invariant .init fun _ _ _ h hadm hu => h.step hsmall (hok _ _ hadm) hu

end FileServ

/-- An archive with one file of 5000 bytes. -/
def oneFile : CpioArchive := [([102], List.replicate 5000 7)]

theorem oneFile_small : oneFile.Small := by
  intro name contents h
  obtain ⟨entry, hentry, rfl⟩ := Option.map_eq_some_iff.1 h
  rw [List.mem_singleton.1 (List.mem_of_find?_eq_some hentry), List.length_replicate]
  decide

/-- The dataspace badge of the first `open`. -/
def firstFd : Nat := fsDspaceBadgeBase + 1

/-- The ending of an event. -/
def FileServ.ending (archive : CpioArchive) (s : FileServ) (e : FileEvent) : Except Failure Unit :=
  (fileHandle archive s e).map fun _ => ()

theorem FileServ.not_survives {archive : CpioArchive} {s : FileServ} {e : FileEvent} {f : Failure}
    (h : s.ending archive e = .error f) : ¬s.Survives archive e := by
  rintro ⟨r, s', hr, _⟩
  rw [FileServ.ending, hr] at h
  cases h

end PartitionSeL4.Refos
