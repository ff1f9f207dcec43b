import PartitionSeL4.Refos.RamFile

/-!
# Under which names RAM files are found

The names of RAM files are rows of 32 bytes. `strncpy` fills a row with the first 32 bytes of a
longer name, without a zero behind it, and `strcmp` then reads on into the next row. So a file that
was created under a name of 32 bytes or more is lost, or found under another name, depending on
which file is created next.

`ram_names_found` says what holds as long as no such name is created: every name that was created is
found in its own row, no other name is, and no name has two rows. A run is paired with the names for
which a row was taken, in order.
-/

namespace PartitionSeL4.Refos

open Lib

/-! ## The property and the condition -/

/-- The names of the rows after an event: an `open` that took a row adds its name. -/
def FileEvent.created (s s' : FileServ) (names : List (List UInt8)) :
    FileEvent → List (List UInt8)
  | .dataOpen name _ _ => if s.ramfsCurfile < s'.ramfsCurfile then names ++ [name] else names
  | _ => names

/-- A step of the server, with the names of the rows. -/
def namesStep (archive : CpioArchive) (x : FileServ × List (List UInt8)) (e : FileEvent) :
    Except Failure (FileServ × List (List UInt8)) := do
  let s ← fileStep archive x.1 e
  return (s, e.created x.1 s x.2)

/-- An `open` of a string, which is not longer than a row if a row is taken for it. -/
def FileServ.NameFits (archive : CpioArchive) (s : FileServ) : FileEvent → Prop
  | .dataOpen name flags _ => 0 ∉ name ∧
      (flags.creat = true → cpioGetFile archive name = none →
        s.ramfsCurfile < cpioRamfsMaxCreatedFiles → name.length < cpioRamfsMaxFilename)
  | _ => True

instance (archive : CpioArchive) (s : FileServ) : (e : FileEvent) → Decidable (s.NameFits archive e)
  | .dataOpen _ _ _ => inferInstanceAs (Decidable (_ ∧ _))
  | .dataClose _ _ _ | .dataRead _ _ _ _ | .dataWrite _ _ _ _ | .dataDatamap _ _ _ _ _ _
  | .dataDataunmap _ _ _ | .dataInitData _ _ _ _ _ _ | .fault _ | .contentInit _ _ =>
      inferInstanceAs (Decidable True)

/-- Every name created is found in its row, and in no other; no name has two rows; and a name that
was not created gets a new row, or is refused. -/
structure NamesRight (archive : CpioArchive) (s : FileServ) (names : List (List UInt8)) : Prop where
  once : names.Nodup
  found : ∀ i name, names[i]? = some name → ∀ flags, ∃ file s',
    s.findFile archive name flags = .ok (file, s') ∧ file.fileData = .ramfs i ∧
      s'.ramfsCurfile = s.ramfsCurfile
  other : ∀ name, 0 ∉ name → name ∉ names → cpioGetFile archive name = none →
    ∀ flags file s', s.findFile archive name flags = .ok (file, s') →
      flags.creat = true ∧ file.fileData = .ramfs names.length ∧
        s'.ramfsCurfile = s.ramfsCurfile + 1

/-! ## The invariant -/

/-- The rows hold the names created, which are distinct, shorter than a row and not in the
archive. -/
structure NamesOk (archive : CpioArchive) (s : FileServ) (names : List (List UInt8)) : Prop where
  coat : s.allocTable.Ok
  length_eq : names.length = s.ramfsCurfile
  nodup : names.Nodup
  short : ∀ name ∈ names, 0 ∉ name ∧ name.length < cpioRamfsMaxFilename
  absent : ∀ name ∈ names, cpioGetFile archive name = none
  row : ∀ i name, names[i]? = some name → s.HasName i name

namespace NamesOk

variable {archive : CpioArchive} {s s' : FileServ} {names : List (List UInt8)} {name : List UInt8}

theorem init (archive : CpioArchive) : NamesOk archive fileServInit [] where
  coat := .init (by omega) (by omega)
  length_eq := rfl
  nodup := List.nodup_nil
  short name h := by cases h
  absent name h := by cases h
  row i name h := by cases h

theorem congr (h : NamesOk archive s names) (hcoat : s'.allocTable.Ok)
    (hrows : s'.ramfsFilename = s.ramfsFilename) (hcur : s'.ramfsCurfile = s.ramfsCurfile) :
    NamesOk archive s' names := by
  refine ⟨hcoat, h.length_eq.trans hcur.symm, h.nodup, h.short, h.absent, fun i name hi => ?_⟩
  rw [FileServ.HasName, hrows]
  exact h.row i name hi

theorem findRamfs_eq_some (h : NamesOk archive s names) (hname : 0 ∉ name) {i : Nat} :
    s.findRamfs name = some i ↔ names[i]? = some name := by
  have hrow : ∀ j, s.findRamfs name = some j → names[j]? = some name := by
    intro j hj
    have hlt : j < names.length := h.length_eq ▸ List.mem_range.1 (List.mem_of_find?_eq_some hj)
    have hget : names[j]? = some names[j] := List.getElem?_eq_getElem hlt
    have hj : s.HasName j name := by
      simpa [FileServ.HasName] using List.find?_some hj
    rw [hget, strEq_unique hj (h.row j _ hget) hname (h.short _ (List.getElem_mem hlt)).1]
  refine ⟨hrow i, fun hi => ?_⟩
  obtain ⟨hlt, _⟩ := List.getElem?_eq_some_iff.1 hi
  cases hfind : s.findRamfs name with
  | none =>
      exact absurd (h.row i name hi)
        (List.find?_eq_none.1 hfind i (List.mem_range.2 (h.length_eq ▸ hlt)))
  | some j => rw [(List.getElem?_inj hlt h.nodup).1 (hi.trans (hrow j hfind).symm)]

theorem findRamfs_eq_none (h : NamesOk archive s names) (hname : 0 ∉ name) :
    s.findRamfs name = none ↔ name ∉ names := by
  rw [← not_iff_not, ← ne_eq, Option.ne_none_iff_exists', not_not, List.mem_iff_getElem?]
  exact exists_congr fun i => h.findRamfs_eq_some hname

theorem newRow (h : NamesOk archive s names) (hname : 0 ∉ name)
    (hlen : name.length < cpioRamfsMaxFilename) (habsent : cpioGetFile archive name = none)
    (hnew : name ∉ names) (hcoat : s'.allocTable.Ok)
    (hrows : s'.ramfsFilename = blit s.ramfsFilename (cpioRamfsMaxFilename * s.ramfsCurfile)
      (strncpyBytes name cpioRamfsMaxFilename))
    (hcur : s'.ramfsCurfile = s.ramfsCurfile + 1) : NamesOk archive s' (names ++ [name]) := by
  refine ⟨hcoat, ?_, ?_, ?_, ?_, fun i name' hi => ?_⟩
  · rw [List.length_append, List.length_singleton, h.length_eq, hcur]
  · rw [← List.concat_eq_append]
    exact h.nodup.concat hnew
  · intro name' hmem
    rcases List.mem_append.1 hmem with hmem | hmem
    · exact h.short name' hmem
    · rw [List.mem_singleton.1 hmem]
      exact ⟨hname, hlen⟩
  · intro name' hmem
    rcases List.mem_append.1 hmem with hmem | hmem
    · exact h.absent name' hmem
    · rw [List.mem_singleton.1 hmem]
      exact habsent
  · rw [FileServ.HasName, hrows]
    by_cases hlt : i < names.length
    · rw [List.getElem?_append_left hlt] at hi
      exact FileServ.hasName_strncpy (h.short name' (List.mem_of_getElem? hi)).2
        (h.length_eq ▸ hlt) (h.row i name' hi) _
    · obtain rfl : i = s.ramfsCurfile := by
        have hbound := (List.getElem?_eq_some_iff.1 hi).1
        rw [List.length_append, List.length_singleton] at hbound
        have := h.length_eq
        omega
      rw [← h.length_eq, List.getElem?_concat_length] at hi
      rw [← Option.some.inj hi]
      exact strEq_strncpy hlen

/-- What `data_open` finds for the name of a row. -/
theorem findFile_row (h : NamesOk archive s names) {i : Nat} (hi : names[i]? = some name)
    (flags : OpenFlags) : ∃ file s', s.findFile archive name flags = .ok (file, s') ∧
      file.fileData = .ramfs i ∧ s'.ramfsFilename = s.ramfsFilename ∧
      s'.ramfsCurfile = s.ramfsCurfile ∧ s'.allocTable = s.allocTable := by
  have hmem := List.mem_of_getElem? hi
  have hfind := (h.findRamfs_eq_some (h.short name hmem).1).2 hi
  simp only [FileServ.findFile, h.absent name hmem, hfind]
  refine ⟨_, _, rfl, rfl, ?_⟩
  split_ifs <;> exact ⟨rfl, rfl, rfl⟩

/-- What it finds for another name, which is not in the archive either. -/
theorem findFile_other (h : NamesOk archive s names) (hname : 0 ∉ name) (hnew : name ∉ names)
    (habsent : cpioGetFile archive name = none) {flags : OpenFlags} {file : FoundFile}
    (hfound : s.findFile archive name flags = .ok (file, s')) :
    flags.creat = true ∧ s.ramfsCurfile < cpioRamfsMaxCreatedFiles ∧
      file.fileData = .ramfs s.ramfsCurfile ∧
      s'.ramfsFilename = blit s.ramfsFilename (cpioRamfsMaxFilename * s.ramfsCurfile)
        (strncpyBytes name cpioRamfsMaxFilename) ∧
      s'.ramfsCurfile = s.ramfsCurfile + 1 ∧ s'.allocTable = s.allocTable := by
  simp only [FileServ.findFile, habsent, (h.findRamfs_eq_none hname).2 hnew] at hfound
  split_ifs at hfound with hcreat hfull
  obtain ⟨rfl, rfl⟩ := Prod.mk.inj (Except.ok.inj hfound)
  exact ⟨by simpa using hcreat, Nat.not_le.1 hfull, rfl, rfl, rfl, rfl⟩

theorem opened (h : NamesOk archive s names) {flags : OpenFlags} {o : OpenOutcome}
    {file : FoundFile} (hfits : s.NameFits archive (.dataOpen name flags o))
    (hfound : s.findFile archive name flags = .ok (file, s')) {t : Coat FsDataspace} (ht : t.Ok) :
    NamesOk archive { s' with allocTable := t }
      (if s.ramfsCurfile < s'.ramfsCurfile then names ++ [name] else names) := by
  obtain ⟨hname, hlen⟩ := hfits
  cases habsent : cpioGetFile archive name with
  | some contents =>
      simp only [FileServ.findFile, habsent] at hfound
      split_ifs at hfound
      obtain ⟨_, rfl⟩ := Prod.mk.inj (Except.ok.inj hfound)
      rw [if_neg (Nat.lt_irrefl _)]
      exact h.congr ht rfl rfl
  | none =>
      by_cases hmem : name ∈ names
      · obtain ⟨i, hi⟩ := List.mem_iff_getElem?.1 hmem
        obtain ⟨file', s'', hfound', _, hrows, hcur, _⟩ := h.findFile_row hi flags
        obtain ⟨rfl, rfl⟩ := Prod.mk.inj (Except.ok.inj (hfound.symm.trans hfound'))
        rw [if_neg (by omega)]
        exact h.congr ht hrows hcur
      · obtain ⟨hcreat, hroom, _, hrows, hcur, _⟩ := h.findFile_other hname hmem habsent hfound
        rw [if_pos (by omega)]
        exact h.newRow hname (hlen hcreat habsent hroom) habsent hmem ht hrows hcur

theorem step {e : FileEvent} (h : NamesOk archive s names) (hfits : s.NameFits archive e)
    (hs' : fileStep archive s e = .ok s') : NamesOk archive s' (e.created s s' names) := by
  cases FileServ.change_of_step h.coat hs' with
  | unchanged =>
      have hsame : e.created s s names = names := by
        cases e with
        | dataOpen name flags o => exact if_neg (Nat.lt_irrefl _)
        | _ => rfl
      exact hsame.symm ▸ h
  | notOpened t found coat table => exact h.opened hfits found coat
  | opened t found alloc coat fresh table => exact h.opened hfits found coat
  | closed live => exact h.congr (h.coat.remove live).1 rfl rfl
  | wrote get live created file fits => exact h.congr (h.coat.set (by simp [live]) _) rfl rfl
  | mapped di live assoc => exact h.congr h.coat rfl rfl
  | unmapped => exact h.congr h.coat rfl rfl
  | initialised di live assoc => exact h.congr h.coat rfl rfl

theorem namesRight (h : NamesOk archive s names) : NamesRight archive s names where
  once := h.nodup
  found i name hi flags := by
    obtain ⟨file, s', hfound, hfile, _, hcur, _⟩ := h.findFile_row hi flags
    exact ⟨file, s', hfound, hfile, hcur⟩
  other name hname hnew habsent flags file s' hfound := by
    obtain ⟨hcreat, _, hfile, _, hcur, _⟩ := h.findFile_other hname hnew habsent hfound
    exact ⟨hcreat, h.length_eq ▸ hfile, hcur⟩

end NamesOk

/-- **RAM files are found under their names.** In every run of requests in which no file is created
under a name of 32 bytes or more: an `open` of a name that was created finds its file, an `open` of
another name finds none that exists, and no name is created twice. -/
theorem ram_names_found (archive : CpioArchive) (evs : List FileEvent) (s : FileServ)
    (names : List (List UInt8))
    (hrun : Run (namesStep archive) (fun x e => x.1.NameFits archive e) (fileServInit, []) evs
      (s, names)) : NamesRight archive s names := by
  have hok : NamesOk archive s names := by
    refine hrun.invariant (I := fun x => NamesOk archive x.1 x.2) (.init archive) ?_
    rintro ⟨t, l⟩ e ⟨u, l'⟩ h hfits hu
    obtain ⟨v, hv, hu⟩ := bind_eq_ok_iff.1 hu
    obtain ⟨rfl, rfl⟩ := Prod.mk.inj (Except.ok.inj hu)
    exact h.step hfits hv
  exact hok.namesRight

/-- A name of 32 bytes. -/
def longName : List UInt8 := List.replicate 32 97

/-- Two files are created and the first one is opened again. -/
theorem ram_names_found_again :
    ∃ s, Run (namesStep []) (fun x e => x.1.NameFits [] e) (fileServInit, [])
        [.dataOpen [97] ⟨false, true⟩ .granted, .dataOpen [98] ⟨false, true⟩ .granted,
          .dataOpen longName ⟨false, false⟩ .granted] (s, [[97], [98]]) ∧
      NamesRight [] s [[97], [98]] := by
  obtain ⟨⟨s, names⟩, hrun, hnames⟩ : ∃ x, Run (namesStep []) (fun x e => x.1.NameFits [] e)
      (fileServInit, [])
      [.dataOpen [97] ⟨false, true⟩ .granted, .dataOpen [98] ⟨false, true⟩ .granted,
        .dataOpen longName ⟨false, false⟩ .granted] x ∧ x.2 = [[97], [98]] := by
    apply Run.exists_of_exec
    decide +kernel
  obtain rfl := hnames
  exact ⟨s, hrun, ram_names_found [] _ s _ hrun⟩

/-- A file with a name of 32 bytes and one more file: the first one is not found any more, and it is
found under the two names together. -/
theorem long_name_lost :
    ∃ s, Run (namesStep []) (fun _ e => e.Words) (fileServInit, [])
        [.dataOpen longName ⟨false, true⟩ .granted, .dataOpen [98] ⟨false, true⟩ .granted]
        (s, [longName, [98]]) ∧
      s.findRamfs longName = none ∧ s.findRamfs (longName ++ [98]) = some 0 ∧
      ¬NamesRight [] s [longName, [98]] := by
  obtain ⟨⟨s, names⟩, hrun, hnames, hlost, hfound⟩ : ∃ x, Run (namesStep []) (fun _ e => e.Words)
      (fileServInit, [])
      [.dataOpen longName ⟨false, true⟩ .granted, .dataOpen [98] ⟨false, true⟩ .granted] x ∧
      x.2 = [longName, [98]] ∧ x.1.findRamfs longName = none ∧
        x.1.findRamfs (longName ++ [98]) = some 0 := by
    apply Run.exists_of_exec
    decide +kernel
  obtain rfl := hnames
  refine ⟨s, hrun, hlost, hfound, fun hright => ?_⟩
  obtain ⟨file, s', hfile, _⟩ := hright.found 0 longName rfl ⟨true, false⟩
  simp only [FileServ.findFile, cpioGetFile, List.find?_nil, Option.map_none] at hfile
  simp only at hlost
  rw [hlost] at hfile
  cases hfile

end PartitionSeL4.Refos
