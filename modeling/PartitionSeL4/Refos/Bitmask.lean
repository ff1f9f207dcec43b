import PartitionSeL4.Lib.BitWords
import PartitionSeL4.Refos.ContentInit

/-!
# The bitmask of a dataspace that grows

The content initialisation bitmask is an array of 32-bit words, one more than the pages fill.
`ram_dspace_expand` reallocates it when the number of words grows, and clears the new words. This is
the model of `ContentInit` with the array of words in the place of the set of bits; the accesses to
the array are checked. `growStep_returns` says that the array always has the words that it should
have, and `contentInitWords_abs` and the lemmas behind it that the functions do what those of
`ContentInit` do.

`ram_dspace_set_content_init_provided` accepts the offset that is the size of the dataspace, and
sets the bit of the page behind the last one. When the dataspace grows, this page counts as
provided. A dataspace of `2 ^ 20` pages has a size of 0 in 32 bits, and none of its pages is asked
for. `growth_iff` says that there is nothing else: over every run, an expansion keeps what is
provided, and the pages that expansions have added are asked for until they are provided, if and
only if every expansion finds the bit behind the last page clear and no such dataspace with pages
added is content initialised.
-/

namespace PartitionSeL4.Refos

open Lib

/-! ## The array -/

/-- A dataspace with its bitmask as an array of words. The bitmask of `dspace` is not used. -/
structure WordDspace where
  dspace : RamDspace
  contentInitBitmask : Option (List (BitVec 32)) := none

/-- The dataspace with the set of bits. -/
def WordDspace.abs (d : WordDspace) : RamDspace :=
  { d.dspace with contentInitBitmask := d.contentInitBitmask.map mask }

/-- `nbitmask` -/
def nbitmask (npages : Nat) : Nat := npages / 32 + 1

/-- `ram_dspace_content_init` -/
def contentInitWords (d : WordDspace) (initEP initPID : Nat) (memory : Bool) :
    Except Failure (Err × WordDspace) :=
  if d.dspace.physicalAddrEnabled then .ok (.invalid, d)
  else if d.dspace.contentInitEnabled ∧ d.dspace.contentInitEP = 0 then .error .assertion
  else
    let dspace :=
      { d.dspace with
        contentInitEP := if d.dspace.contentInitEnabled then 0 else d.dspace.contentInitEP }
    if initEP = 0 then
      .ok (.success, ⟨{ dspace with contentInitEnabled := false, contentInitPID := 0 }, none⟩)
    else if !memory then .ok (.nomem, ⟨dspace, none⟩)
    else
      .ok (.success,
        { dspace :=
            { dspace with
              contentInitWaitingList := []
              contentInitEP := initEP
              contentInitEnabled := true
              contentInitPID := initPID }
          contentInitBitmask := some (List.replicate (nbitmask d.dspace.npages) 0) })

/-- `ram_dspace_need_content_init` -/
def needContentInitWords (d : WordDspace) (offset : Nat) : Except Failure (Except Err Bool) :=
  match d.dspace.contentInitEnabled, d.contentInitBitmask with
  | true, some words =>
      if ramDspaceGetSize d.dspace < offset then .ok (.error .invalidParam)
      else if d.dspace.npages < offset / pageSize then .error .assertion
      else
        match getBit? words (offset / pageSize) with
        | some bit => .ok (.ok (!bit))
        | none => .error .fault
  | _, _ => .ok (.error .invalid)

/-- `ram_dspace_set_content_init_provided` -/
def setProvidedWords (d : WordDspace) (offset : Nat) : Except Failure WordDspace :=
  match d.dspace.contentInitEnabled, d.contentInitBitmask with
  | true, some words =>
      if ramDspaceGetSize d.dspace < offset then .ok d
      else if d.dspace.npages < offset / pageSize then .error .assertion
      else
        match setBit? words (offset / pageSize) with
        | some words => .ok { d with contentInitBitmask := some words }
        | none => .error .fault
  | _, _ => .ok d

/-- `krealloc` of the bitmask to `n` words and the `memset` of the words from `prev` on. -/
def growWords (words : List (BitVec 32)) (prev n : Nat) : List (BitVec 32) :=
  words.take prev ++ List.replicate (n - prev) 0

/-- `ram_dspace_expand` -/
def expandWords (d : WordDspace) (size : Nat) (pages bitmask : Bool) : Err × WordDspace :=
  let npages := roundUpNpages size
  if npages < d.dspace.npages then (.invalidParam, d)
  else if npages = d.dspace.npages then (.success, d)
  else if !pages then (.nomem, d)
  else
    let nbitmaskPrev := nbitmask d.dspace.npages
    if d.contentInitBitmask.isSome ∧ nbitmaskPrev < nbitmask npages then
      if !bitmask then (.nomem, { d with contentInitBitmask := none })
      else
        (.success,
          { dspace := { d.dspace with npages := npages }
            contentInitBitmask := d.contentInitBitmask.map fun words =>
              growWords words nbitmaskPrev (nbitmask npages) })
    else (.success, { d with dspace := { d.dspace with npages := npages } })

/-! ## The array has its words, and holds the set of bits -/

/-- The bitmask has the number of words that the code computes. -/
def WordDspace.Sized (d : WordDspace) : Prop :=
  ∀ words, d.contentInitBitmask = some words → words.length = nbitmask d.dspace.npages

section Words

variable {d : WordDspace}

/-- A page, or the page behind the last one, has a bit. -/
theorem lt_nbitmask {npages npage : Nat} (h : npage ≤ npages) : npage / 32 < nbitmask npages := by
  rw [nbitmask]
  omega

@[simp] theorem abs_npages (d : WordDspace) : d.abs.npages = d.dspace.npages := rfl

@[simp] theorem abs_enabled (d : WordDspace) :
    d.abs.contentInitEnabled = d.dspace.contentInitEnabled := rfl

@[simp] theorem abs_bitmask (d : WordDspace) :
    d.abs.contentInitBitmask = d.contentInitBitmask.map mask := rfl

/-- The dataspace without a content initialiser. -/
def WordDspace.removed (d : WordDspace) : WordDspace where
  dspace :=
    { d.dspace with
      contentInitEP := if d.dspace.contentInitEnabled then 0 else d.dspace.contentInitEP
      contentInitEnabled := false
      contentInitPID := 0 }

/-- The dataspace with a new content initialiser. -/
def WordDspace.registered (d : WordDspace) (initEP initPID : Nat) : WordDspace where
  dspace :=
    { d.dspace with
      contentInitWaitingList := []
      contentInitEP := initEP
      contentInitEnabled := true
      contentInitPID := initPID }
  contentInitBitmask := some (List.replicate (nbitmask d.dspace.npages) 0)

/-- `ram_dspace_content_init`, where there is an endpoint if it is enabled and the bitmask can be
allocated. -/
theorem contentInitWords_eq
    (hEP : d.dspace.contentInitEnabled = true → d.dspace.contentInitEP ≠ 0) (initEP initPID : Nat) :
    contentInitWords d initEP initPID true =
      .ok (if d.dspace.physicalAddrEnabled then (.invalid, d)
        else if initEP = 0 then (.success, d.removed)
        else (.success, d.registered initEP initPID)) := by
  have hassert : ¬(d.dspace.contentInitEnabled = true ∧ d.dspace.contentInitEP = 0) :=
    fun h => hEP h.1 h.2
  rw [contentInitWords, if_neg hassert]
  by_cases hphys : d.dspace.physicalAddrEnabled = true
  · rw [if_pos hphys, if_pos hphys]
  · rw [if_neg hphys, if_neg hphys]
    by_cases hep : initEP = 0
    · rw [if_pos hep, if_pos hep]
      rfl
    · rw [if_neg hep, if_neg hep]
      rfl

theorem contentInitWords_abs (initEP initPID : Nat) (memory : Bool) :
    (contentInitWords d initEP initPID memory).map (fun r => (r.1, r.2.abs)) =
      ramDspaceContentInit d.abs initEP initPID memory := by
  rw [contentInitWords, ramDspaceContentInit]
  by_cases hphys : d.dspace.physicalAddrEnabled = true
  · rw [if_pos hphys, if_pos (show d.abs.physicalAddrEnabled = true from hphys)]
    rfl
  · rw [if_neg hphys, if_neg (show ¬d.abs.physicalAddrEnabled = true from hphys)]
    by_cases hassert : d.dspace.contentInitEnabled = true ∧ d.dspace.contentInitEP = 0
    · rw [if_pos hassert]
      exact (if_pos hassert).symm
    · have hassert' : ¬(d.abs.contentInitEnabled = true ∧ d.abs.contentInitEP = 0) := hassert
      rw [if_neg hassert, if_neg hassert']
      by_cases hep : initEP = 0
      · simp only [hep, if_true]
        rfl
      · simp only [hep, if_false]
        cases memory with
        | false => rfl
        | true =>
            simp only [Bool.not_true, Bool.false_eq_true, if_false, Except.map,
              WordDspace.abs, Option.map_some]
            rw [show mask (List.replicate (nbitmask d.dspace.npages) 0) = fun _ => false from
              mask_zeros _]

theorem needContentInitWords_abs (hsized : d.Sized) (offset : Nat) :
    needContentInitWords d offset = ramDspaceNeedContentInit d.abs offset := by
  rw [needContentInitWords, ramDspaceNeedContentInit, abs_enabled, abs_bitmask]
  cases henabled : d.dspace.contentInitEnabled with
  | false => rfl
  | true =>
      cases hwords : d.contentInitBitmask with
      | none => rfl
      | some words =>
          have hsize : ramDspaceGetSize d.abs = ramDspaceGetSize d.dspace := rfl
          simp only [Option.map_some, hsize, abs_npages]
          by_cases hpage : d.dspace.npages < offset / pageSize
          · simp only [hpage, if_true]
          · have hlt : offset / pageSize / 32 < words.length := by
              rw [hsized words hwords]
              exact lt_nbitmask (by omega)
            simp only [hpage, if_false, getBit?_of_lt hlt]

theorem setProvidedWords_abs (hsized : d.Sized) (offset : Nat) :
    ∃ d', setProvidedWords d offset = .ok d' ∧
      ramDspaceSetContentInitProvided d.abs offset = .ok d'.abs ∧ d'.Sized ∧
      d'.dspace = d.dspace := by
  rw [setProvidedWords, ramDspaceSetContentInitProvided, abs_enabled, abs_bitmask]
  cases henabled : d.dspace.contentInitEnabled with
  | false => exact ⟨d, rfl, rfl, hsized, rfl⟩
  | true =>
      cases hwords : d.contentInitBitmask with
      | none => exact ⟨d, rfl, rfl, hsized, rfl⟩
      | some words =>
          have hsize : ramDspaceGetSize d.abs = ramDspaceGetSize d.dspace := rfl
          simp only [Option.map_some, hsize, abs_npages]
          by_cases hout : ramDspaceGetSize d.dspace < offset
          · exact ⟨d, by rw [if_pos hout], by rw [if_pos hout], hsized, rfl⟩
          · have hpage := page_le_npages (Nat.le_of_not_lt hout)
            have hlt : offset / pageSize / 32 < words.length := by
              rw [hsized words hwords]
              exact lt_nbitmask hpage
            obtain ⟨words', hset⟩ := setBit?_isSome hlt
            have hpage' : ¬d.dspace.npages < offset / pageSize := by omega
            refine ⟨{ d with contentInitBitmask := some words' }, ?_, ?_, ?_, rfl⟩
            · simp only [hout, hpage', if_false, hset]
            · simp only [hout, hpage', if_false, ← mask_setBit? (show 0 < 32 by decide) hset]
              simp [WordDspace.abs, henabled]
            · intro v hv
              obtain rfl := Option.some.inj hv
              rw [length_setBit? hset]
              exact hsized words hwords

theorem mask_growWords {words : List (BitVec 32)} {prev n : Nat} (h : words.length = prev) :
    mask (growWords words prev n) = mask words := by
  rw [growWords, List.take_of_length_le (by omega)]
  exact mask_append_zeros (n - prev)

/-- `ram_dspace_expand`, where the arrays can be reallocated. -/
theorem expandWords_abs (hsized : d.Sized) (size : Nat) :
    ∃ error d', expandWords d size true true = (error, d') ∧
      ramDspaceExpand d.abs size true true = (error, d'.abs) ∧ d'.Sized ∧
      d'.dspace = { d.dspace with npages := max d.dspace.npages (roundUpNpages size) } ∧
      d'.contentInitBitmask.map mask = d.contentInitBitmask.map mask := by
  rw [expandWords, ramDspaceExpand]
  simp only [abs_npages, abs_bitmask, Bool.not_true, Bool.false_eq_true, if_false,
    Option.isSome_map]
  by_cases hless : roundUpNpages size < d.dspace.npages
  · refine ⟨.invalidParam, d, by rw [if_pos hless], by rw [if_pos hless], hsized, ?_, rfl⟩
    rw [Nat.max_eq_left (by omega)]
  · by_cases heq : roundUpNpages size = d.dspace.npages
    · refine ⟨.success, d, ?_, ?_, hsized, ?_, rfl⟩
      · rw [if_neg hless, if_pos heq]
      · rw [if_neg hless, if_pos heq]
      · rw [heq, Nat.max_self]
    · have hmax : max d.dspace.npages (roundUpNpages size) = roundUpNpages size := by omega
      simp only [hless, heq, if_false, hmax]
      cases hwords : d.contentInitBitmask with
      | none => simp [WordDspace.abs, WordDspace.Sized, hwords]
      | some words =>
          have hlen := hsized words hwords
          by_cases hgrow : nbitmask d.dspace.npages < nbitmask (roundUpNpages size)
          · have hgrow' : d.dspace.npages / 32 + 1 < roundUpNpages size / 32 + 1 := hgrow
            have hcut : (fun npage => if npage / 32 < d.dspace.npages / 32 + 1 then mask words npage
                else false) = mask words := by
              funext npage
              split_ifs with hlt
              · rfl
              · exact (mask_of_le (by rw [hlen, nbitmask]; omega)).symm
            refine ⟨.success,
              { dspace := { d.dspace with npages := roundUpNpages size }
                contentInitBitmask := some (growWords words (nbitmask d.dspace.npages)
                  (nbitmask (roundUpNpages size))) }, ?_, ?_, ?_, rfl, ?_⟩
            · simp only [hgrow, Option.isSome_some, and_self, if_true, Option.map_some]
            · simp only [WordDspace.abs, hgrow', Option.isSome_some, and_self, if_true,
                Option.map_some, mask_growWords hlen]
              exact congrArg (fun bitmask => (Err.success,
                { d.dspace with
                  npages := roundUpNpages size
                  contentInitBitmask := some bitmask })) hcut
            · intro v hv
              obtain rfl := Option.some.inj hv
              simp only [growWords, List.length_append, List.length_take, List.length_replicate]
              omega
            · simp [mask_growWords hlen]
          · have hgrow' : ¬d.dspace.npages / 32 + 1 < roundUpNpages size / 32 + 1 := hgrow
            refine ⟨.success, { d with dspace := { d.dspace with npages := roundUpNpages size } },
              ?_, ?_, ?_, rfl, by simp [hwords]⟩
            · simp [hgrow, hwords]
            · simp [WordDspace.abs, hgrow', hwords]
            · intro v hv
              obtain rfl := Option.some.inj (hwords.symm.trans hv)
              rw [hlen]
              simp only [nbitmask] at hgrow ⊢
              omega

end Words

/-! ## Runs -/

/-- A dataspace, and the pages that expansions have added to it and that have not been provided
since. -/
structure Growing where
  dataspace : WordDspace
  pending : Nat → Bool

/-- The functions that change the bitmask. -/
inductive GrowEvent where
  | contentInit (initEP initPID : Nat)
  | setProvided (offset : Nat)
  | expand (size : Nat)

/-- The state after an expansion. -/
def Growing.added (s : Growing) (dataspace : WordDspace) : Growing where
  dataspace := dataspace
  pending i := s.pending i || (s.dataspace.dspace.npages ≤ i && i < dataspace.dspace.npages)

/-- The state after a call, where everything can be allocated. A page is provided if content
initialisation is on. -/
def growStep (s : Growing) : GrowEvent → Except Failure Growing
  | .contentInit initEP initPID => do
      return { s with dataspace := (← contentInitWords s.dataspace initEP initPID true).2 }
  | .setProvided offset => do
      let dataspace ← setProvidedWords s.dataspace offset
      return {
        dataspace := dataspace
        pending := fun i => s.pending i &&
          !(s.dataspace.dspace.contentInitEnabled && i == offset / pageSize) }
  | .expand size => .ok (s.added (expandWords s.dataspace size true true).2)

/-- The arguments are 32-bit words. -/
def GrowArgs (_ : Growing) : GrowEvent → Prop
  | .contentInit _ _ => True
  | .setProvided offset => offset < 2 ^ 32
  | .expand size => size < 2 ^ 32

instance (s : Growing) (e : GrowEvent) : Decidable (GrowArgs s e) :=
  match e with
  | .contentInit _ _ => .isTrue trivial
  | .setProvided _ => inferInstanceAs (Decidable (_ < _))
  | .expand _ => inferInstanceAs (Decidable (_ < _))

/-- A new dataspace, for a device or not. -/
def newGrowing (size : Nat) (paddr : Bool) : Growing where
  dataspace := { dspace := { ramDspaceOatCreate size with physicalAddrEnabled := paddr } }
  pending _ := false

/-- The bitmask has a bit for every page. -/
def WordDspace.HasBits (d : WordDspace) : Prop :=
  ∀ words, d.contentInitBitmask = some words →
    ∀ i < d.dspace.npages, (getBit? words i).isSome = true

/-- The page needs content initialisation, at every offset in it. -/
def WordDspace.Needs (d : WordDspace) (i : Nat) : Prop :=
  ∀ offset, offset / pageSize = i → needContentInitWords d offset = .ok (.ok true)

/-- An expansion keeps what is provided; there is a bit for every page; and while content
initialisation is on, every page that has been added and not been provided needs it. -/
def GrowsRight (s : Growing) (e : GrowEvent) (t : Growing) : Prop :=
  (∀ size, e = .expand size → ∀ i < s.dataspace.dspace.npages,
    t.dataspace.abs.provided i = s.dataspace.abs.provided i) ∧
  t.dataspace.HasBits ∧
  (t.dataspace.dspace.contentInitEnabled = true → ∀ i, t.pending i = true → t.dataspace.Needs i)

/-- When a call does this, for a dataspace created with `npages` pages. An expansion that adds pages
to a content initialised dataspace leaves less than `2 ^ 20` pages and finds the bit behind the last
page clear; a dataspace of `2 ^ 20` pages is not content initialised after pages have been added. -/
def GrowsClean (npages : Nat) (s : Growing) : GrowEvent → Prop
  | .contentInit initEP _ =>
      initEP ≠ 0 → s.dataspace.dspace.physicalAddrEnabled = false →
        s.dataspace.dspace.npages < 2 ^ 20 ∨ s.dataspace.dspace.npages = npages
  | .setProvided _ => True
  | .expand size =>
      s.dataspace.dspace.contentInitEnabled = true →
        s.dataspace.dspace.npages < roundUpNpages size →
          roundUpNpages size < 2 ^ 20 ∧
            s.dataspace.abs.provided s.dataspace.dspace.npages = false

instance (npages : Nat) (s : Growing) (e : GrowEvent) : Decidable (GrowsClean npages s e) :=
  match e with
  | .contentInit _ _ => inferInstanceAs (Decidable (_ → _ → _))
  | .setProvided _ => .isTrue trivial
  | .expand _ => inferInstanceAs (Decidable (_ → _ → _))

/-! ## Every call returns -/

/-- The bitmask has its words, and a content initialiser has an endpoint. -/
def Growing.Safe (s : Growing) : Prop :=
  s.dataspace.Sized ∧
    (s.dataspace.dspace.contentInitEnabled = true → s.dataspace.dspace.contentInitEP ≠ 0)

/-- No call reads or writes outside the bitmask, and no assertion fails. -/
theorem growStep_returns {s : Growing} (h : s.Safe) (e : GrowEvent) :
    ∃ t, growStep s e = .ok t ∧ t.Safe := by
  cases e with
  | contentInit initEP initPID =>
      rw [growStep, contentInitWords_eq h.2]
      refine ⟨_, rfl, ?_⟩
      cases hphys : s.dataspace.dspace.physicalAddrEnabled with
      | true => exact h
      | false =>
          by_cases hep : initEP = 0
          · simp only [hep, if_true, Bool.false_eq_true, if_false]
            exact ⟨(fun _ hwords => nomatch hwords), (fun henabled => nomatch henabled)⟩
          · simp only [hep, Bool.false_eq_true, if_false]
            refine ⟨fun words hwords => ?_, fun _ => hep⟩
            obtain rfl := Option.some.inj hwords
            exact List.length_replicate ..
  | setProvided offset =>
      obtain ⟨d', hset, _, hsized, hdspace⟩ := setProvidedWords_abs h.1 offset
      rw [growStep, hset]
      refine ⟨_, rfl, hsized, ?_⟩
      rw [hdspace]
      exact h.2
  | expand size =>
      obtain ⟨error, d', hexpand, _, hsized, hdspace, _⟩ := expandWords_abs h.1 size
      rw [growStep, hexpand]
      refine ⟨_, rfl, hsized, ?_⟩
      simp only [Growing.added, hdspace]
      exact h.2

/-! ## The invariant -/

/-- What holds of a dataspace that was created with `npages` pages. No bit is set behind the page
that follows the last one. -/
structure GrowInv (npages : Nat) (s : Growing) : Prop where
  sized : s.dataspace.Sized
  enabled : s.dataspace.contentInitBitmask.isSome = s.dataspace.dspace.contentInitEnabled
  hasEP : s.dataspace.dspace.contentInitEnabled = true → s.dataspace.dspace.contentInitEP ≠ 0
  le : s.dataspace.dspace.npages ≤ 2 ^ 20
  created : npages ≤ s.dataspace.dspace.npages
  behind : ∀ i, s.dataspace.dspace.npages < i → s.dataspace.abs.provided i = false
  pending : ∀ i, s.pending i = true →
    npages ≤ i ∧ i < s.dataspace.dspace.npages ∧ s.dataspace.abs.provided i = false
  full : s.dataspace.dspace.npages = 2 ^ 20 → npages < 2 ^ 20 →
    s.dataspace.dspace.contentInitEnabled = false ∧ s.pending (2 ^ 20 - 1) = true

section Invariant

variable {npages : Nat} {s t : Growing} {d : WordDspace}

theorem WordDspace.Sized.hasBits (h : d.Sized) : d.HasBits := by
  intro words hwords i hi
  have hlt : i / 32 < words.length := by
    rw [h words hwords]
    exact lt_nbitmask (Nat.le_of_lt hi)
  rw [getBit?_of_lt hlt]
  rfl

theorem provided_of_none (h : d.contentInitBitmask = none) (i : Nat) :
    d.abs.provided i = false := by
  simp [RamDspace.provided, h]

theorem needs_iff (hsized : d.Sized) (henabled : d.dspace.contentInitEnabled = true)
    (hmask : d.contentInitBitmask.isSome = true) (hle : d.dspace.npages ≤ 2 ^ 20) {i : Nat}
    (hi : i < d.dspace.npages) :
    d.Needs i ↔ d.dspace.npages < 2 ^ 20 ∧ d.abs.provided i = false := by
  obtain ⟨words, hwords⟩ := Option.isSome_iff_exists.1 hmask
  have hneed : ∀ offset, needContentInitWords d offset = .ok (.ok true) ↔
      offset ≤ ramDspaceGetSize d.dspace ∧ d.abs.provided (offset / pageSize) = false := by
    intro offset
    have hsize : ramDspaceGetSize d.abs = ramDspaceGetSize d.dspace := rfl
    rw [needContentInitWords_abs hsized, ramDspaceNeedContentInit]
    simp only [abs_enabled, abs_bitmask, henabled, hwords, Option.map_some, hsize, abs_npages,
      RamDspace.provided]
    by_cases hout : ramDspaceGetSize d.dspace < offset
    · simp [hout, Nat.not_le.2 hout]
    · have hpage : ¬d.dspace.npages < offset / pageSize :=
        Nat.not_lt.2 (page_le_npages (Nat.le_of_not_lt hout))
      simp only [hout, hpage, if_false, Nat.le_of_not_lt hout, true_and, Except.ok.injEq,
        Bool.not_eq_true']
  constructor
  · intro h
    -- an offset in the page that is not 0
    have hpage : (i * pageSize + 1) / pageSize = i := by
      simp only [pageSize]
      omega
    obtain ⟨hin, hclear⟩ := (hneed _).1 (h (i * pageSize + 1) hpage)
    rw [hpage] at hclear
    refine ⟨?_, hclear⟩
    by_contra hfull
    have heq : d.dspace.npages = 2 ^ 20 := by omega
    rw [ramDspaceGetSize, heq] at hin
    simp [u32, pageSize] at hin
  · rintro ⟨hlt, hclear⟩ offset rfl
    refine (hneed offset).2 ⟨?_, hclear⟩
    rw [ramDspaceGetSize, u32_of_lt (by simp only [pageSize]; omega)]
    simp only [pageSize] at hi ⊢
    omega

/-- While content initialisation is on, what is pending needs it. -/
theorem GrowInv.needs (h : GrowInv npages s)
    (henabled : s.dataspace.dspace.contentInitEnabled = true) {i : Nat}
    (hi : s.pending i = true) : s.dataspace.Needs i := by
  obtain ⟨hcreated, hlt, hclear⟩ := h.pending i hi
  rw [needs_iff h.sized henabled (h.enabled.trans henabled) h.le hlt]
  refine ⟨?_, hclear⟩
  by_contra hfull
  have hle := h.le
  have hoff := (h.full (by omega) (by omega)).1
  rw [henabled] at hoff
  cases hoff

theorem newGrowing_inv {size : Nat} (hsize : size < 2 ^ 32) (paddr : Bool) :
    GrowInv (roundUpNpages size) (newGrowing size paddr) where
  sized _ hwords := nomatch hwords
  enabled := rfl
  hasEP h := nomatch h
  le := roundUpNpages_le hsize
  created := Nat.le_refl _
  behind i _ := provided_of_none rfl i
  pending _ hi := nomatch hi
  full hfull hlt := absurd hfull (Nat.ne_of_lt hlt)

/-- A call that keeps the invariant and, if it is an expansion, what is provided, is right. -/
theorem GrowInv.growsRight {e : GrowEvent} (h : GrowInv npages t)
    (hkeep : ∀ size, e = .expand size → ∀ i < s.dataspace.dspace.npages,
      t.dataspace.abs.provided i = s.dataspace.abs.provided i) : GrowsRight s e t :=
  ⟨hkeep, h.sized.hasBits, fun henabled _ hi => h.needs henabled hi⟩

/-! ## Single calls -/

theorem GrowInv.removed (h : GrowInv npages s) :
    GrowInv npages { s with dataspace := s.dataspace.removed } where
  sized _ hwords := nomatch hwords
  enabled := rfl
  hasEP henabled := nomatch henabled
  le := h.le
  created := h.created
  behind i _ := provided_of_none rfl i
  pending i hi := ⟨(h.pending i hi).1, (h.pending i hi).2.1, provided_of_none rfl i⟩
  full hfull hlt := ⟨rfl, (h.full hfull hlt).2⟩

/-- After a registration, no bit is set. -/
theorem provided_registered (d : WordDspace) (initEP initPID i : Nat) :
    (d.registered initEP initPID).abs.provided i = false :=
  congrFun (mask_zeros (nbitmask d.dspace.npages)) i

theorem GrowInv.registered (h : GrowInv npages s) {initEP : Nat} (hep : initEP ≠ 0) (initPID : Nat)
    (hclean : s.dataspace.dspace.npages < 2 ^ 20 ∨ s.dataspace.dspace.npages = npages) :
    GrowInv npages { s with dataspace := s.dataspace.registered initEP initPID } where
  sized words hwords := by
    obtain rfl := Option.some.inj hwords
    exact List.length_replicate ..
  enabled := rfl
  hasEP _ := hep
  le := h.le
  created := h.created
  behind i _ := provided_registered ..
  pending i hi := ⟨(h.pending i hi).1, (h.pending i hi).2.1, provided_registered ..⟩
  full hfull hlt := by
    have hfull' : s.dataspace.dspace.npages = 2 ^ 20 := hfull
    omega

theorem growStep_contentInit (h : GrowInv npages s) {initEP initPID : Nat}
    (hstep : growStep s (.contentInit initEP initPID) = .ok t) :
    (GrowsRight s (.contentInit initEP initPID) t ↔
      GrowsClean npages s (.contentInit initEP initPID)) ∧
    (GrowsRight s (.contentInit initEP initPID) t → GrowInv npages t) := by
  rw [growStep, contentInitWords_eq h.hasEP] at hstep
  obtain rfl := Except.ok.inj hstep
  have hkeep : ∀ {t : Growing} size, GrowEvent.contentInit initEP initPID = .expand size →
      ∀ i < s.dataspace.dspace.npages,
        t.dataspace.abs.provided i = s.dataspace.abs.provided i := fun _ he => nomatch he
  simp only [GrowsClean]
  cases hphys : s.dataspace.dspace.physicalAddrEnabled with
  | true =>
      simp only [if_true]
      exact ⟨iff_of_true (h.growsRight hkeep) (fun _ hfalse => nomatch hfalse), fun _ => h⟩
  | false =>
      by_cases hep : initEP = 0
      · simp only [hep, if_true, Bool.false_eq_true, if_false]
        exact ⟨iff_of_true (h.removed.growsRight fun _ he => nomatch he) fun hne => absurd rfl hne,
          fun _ => h.removed⟩
      · simp only [hep, Bool.false_eq_true, if_false]
        have hiff : GrowsRight s (.contentInit initEP initPID)
            { s with dataspace := s.dataspace.registered initEP initPID } ↔
              s.dataspace.dspace.npages < 2 ^ 20 ∨ s.dataspace.dspace.npages = npages := by
          constructor
          · rintro ⟨_, _, hneeds⟩
            by_contra hnot
            have hle := h.le
            have hcreated := h.created
            -- the last page is pending and cannot be asked for
            have hpending := (h.full (by omega) (by omega)).2
            have hneed := hneeds rfl _ hpending
            have hsized : (s.dataspace.registered initEP initPID).Sized := by
              intro words hwords
              obtain rfl := Option.some.inj hwords
              exact List.length_replicate ..
            rw [needs_iff hsized rfl rfl h.le (h.pending _ hpending).2.1] at hneed
            exact hnot (Or.inl hneed.1)
          · exact fun hclean => (h.registered hep initPID hclean).growsRight hkeep
        refine ⟨hiff.trans ⟨fun hclean _ _ => hclean, fun hclean => hclean hep trivial⟩,
          fun hright => h.registered hep initPID (hiff.1 hright)⟩

theorem growStep_setProvided (h : GrowInv npages s) {offset : Nat}
    (hstep : growStep s (.setProvided offset) = .ok t) : GrowInv npages t := by
  obtain ⟨d', hset, habs, hsized, hdspace⟩ := setProvidedWords_abs h.sized offset
  rw [growStep, hset] at hstep
  obtain rfl := Except.ok.inj hstep
  obtain ⟨bitmask, hset', hsome, hprovided⟩ :=
    setContentInitProvided_spec ⟨s.dataspace.abs, []⟩ offset
  have hd' : d'.abs = { s.dataspace.abs with contentInitBitmask := bitmask } :=
    Except.ok.inj (habs.symm.trans hset')
  rw [← hd'] at hprovided
  have hclear : ∀ i, s.dataspace.abs.provided i = false →
      (s.dataspace.dspace.contentInitEnabled = true →
        offset ≤ ramDspaceGetSize s.dataspace.dspace → offset / pageSize ≠ i) →
      d'.abs.provided i = false := by
    intro i hi hne
    rw [Bool.eq_false_iff, ne_eq, hprovided i]
    rintro (hold | ⟨henabled, _, hin, hpage⟩)
    · rw [hi] at hold
      cases hold
    · exact hne henabled hin hpage
  have hbits : d'.contentInitBitmask.isSome = s.dataspace.contentInitBitmask.isSome := by
    have hmap := congrArg (fun d => d.contentInitBitmask.isSome) hd'
    simpa [hsome] using hmap
  refine ⟨hsized, ?_, ?_, ?_, ?_, ?_, ?_, ?_⟩
  · simp only [hdspace, hbits]
    exact h.enabled
  · simp only [hdspace]
    exact h.hasEP
  · simp only [hdspace]
    exact h.le
  · simp only [hdspace]
    exact h.created
  · simp only [hdspace]
    intro i hi
    refine hclear i (h.behind i hi) fun _ hin heq => ?_
    have hpage := page_le_npages hin
    omega
  · simp only [hdspace]
    intro i hi
    simp only [Bool.and_eq_true, Bool.not_eq_true', Bool.and_eq_false_iff,
      beq_eq_false_iff_ne] at hi
    obtain ⟨hcreated, hlt, hold⟩ := h.pending i hi.1
    refine ⟨hcreated, hlt, hclear i hold fun henabled _ heq => ?_⟩
    rcases hi.2 with hoff | hne
    · rw [henabled] at hoff
      cases hoff
    · exact hne heq.symm
  · simp only [hdspace]
    intro hfull hlt
    obtain ⟨hoff, hpending⟩ := h.full hfull hlt
    refine ⟨hoff, ?_⟩
    rw [hpending, hoff]
    rfl

/-- What an expansion does. -/
structure Expanded (d : WordDspace) (size : Nat) (d' : WordDspace) : Prop where
  sized : d'.Sized
  npages : d'.dspace.npages = max d.dspace.npages (roundUpNpages size)
  enabled : d'.dspace.contentInitEnabled = d.dspace.contentInitEnabled
  endpoint : d'.dspace.contentInitEP = d.dspace.contentInitEP
  bitmask : d'.contentInitBitmask.isSome = d.contentInitBitmask.isSome
  provided : ∀ i, d'.abs.provided i = d.abs.provided i

theorem expandWords_spec (h : d.Sized) (size : Nat) :
    Expanded d size (expandWords d size true true).2 := by
  obtain ⟨error, d', hexpand, _, hsized, hdspace, hmask⟩ := expandWords_abs h size
  rw [hexpand]
  refine ⟨hsized, by simp only [hdspace], by simp only [hdspace], by simp only [hdspace], ?_, ?_⟩
  · have hsome := congrArg Option.isSome hmask
    simpa using hsome
  · intro i
    simp only [RamDspace.provided, abs_bitmask, hmask]

theorem pending_added {d' : WordDspace} {i : Nat} :
    (s.added d').pending i = true ↔
      s.pending i = true ∨ s.dataspace.dspace.npages ≤ i ∧ i < d'.dspace.npages := by
  simp [Growing.added]

/-- Where the bit behind the last page is clear, so are those of all the pages added. -/
theorem GrowInv.added (h : GrowInv npages s) {size : Nat} (hsize : size < 2 ^ 32) {d' : WordDspace}
    (hexpand : Expanded s.dataspace size d') (hclean : GrowsClean npages s (.expand size)) :
    GrowInv npages (s.added d') := by
  have hround := roundUpNpages_le hsize
  have hle := h.le
  have hcreated := h.created
  have hmore := hexpand.npages
  refine ⟨hexpand.sized, ?_, ?_, ?_, ?_, ?_, ?_, ?_⟩
  · exact hexpand.bitmask.trans (h.enabled.trans hexpand.enabled.symm)
  · intro hon
    exact hexpand.endpoint ▸ h.hasEP (hexpand.enabled ▸ hon)
  · show d'.dspace.npages ≤ 2 ^ 20
    omega
  · show npages ≤ d'.dspace.npages
    omega
  · intro i hi
    have hi' : d'.dspace.npages < i := hi
    rw [Growing.added, hexpand.provided]
    exact h.behind i (by omega)
  · intro i hi
    rw [Growing.added, hexpand.provided]
    show npages ≤ i ∧ i < d'.dspace.npages ∧ _
    rcases pending_added.1 hi with hold | ⟨hge, hlt⟩
    · obtain ⟨h1, h2, h3⟩ := h.pending i hold
      exact ⟨h1, by omega, h3⟩
    · refine ⟨by omega, hlt, ?_⟩
      rcases Nat.lt_or_eq_of_le hge with hbehind | rfl
      · exact h.behind i hbehind
      · cases hon : s.dataspace.dspace.contentInitEnabled with
        | true => exact (hclean hon (by omega)).2
        | false =>
            refine provided_of_none (Option.isNone_iff_eq_none.1 ?_) _
            rw [← Option.not_isSome, h.enabled, hon]
            rfl
  · intro hfull hlt
    have hfull' : d'.dspace.npages = 2 ^ 20 := hfull
    show d'.dspace.contentInitEnabled = false ∧ _
    rw [pending_added, hexpand.enabled]
    by_cases hadds : s.dataspace.dspace.npages < roundUpNpages size
    · refine ⟨?_, Or.inr (by omega)⟩
      by_contra hon
      have hfew := (hclean (by simpa using hon) hadds).1
      omega
    · obtain ⟨hoff, hpending⟩ := h.full (by omega) hlt
      exact ⟨hoff, Or.inl hpending⟩

theorem growStep_expand (h : GrowInv npages s) {size : Nat} (hsize : size < 2 ^ 32)
    (hstep : growStep s (.expand size) = .ok t) :
    (GrowsRight s (.expand size) t ↔ GrowsClean npages s (.expand size)) ∧
    (GrowsRight s (.expand size) t → GrowInv npages t) := by
  obtain rfl := Except.ok.inj hstep
  have hexpand := expandWords_spec h.sized size
  have hiff : GrowsRight s (.expand size) (s.added (expandWords s.dataspace size true true).2) ↔
      GrowsClean npages s (.expand size) := by
    constructor
    · rintro ⟨_, _, hneeds⟩ hon hadds
      -- the page behind the last one is added
      have hround := roundUpNpages_le hsize
      have hmore := hexpand.npages
      have hneed := hneeds (hexpand.enabled.trans hon) _
        (pending_added.2 (Or.inr ⟨Nat.le_refl _, by omega⟩))
      rw [Growing.added, needs_iff hexpand.sized (hexpand.enabled.trans hon)
        (hexpand.bitmask.trans (h.enabled.trans hon)) (by omega) (by omega),
        hexpand.provided] at hneed
      exact ⟨by omega, hneed.2⟩
    · intro hclean
      exact (h.added hsize hexpand hclean).growsRight fun _ _ i _ => hexpand.provided i
  exact ⟨hiff, fun hright => h.added hsize hexpand (hiff.1 hright)⟩

theorem growStep_spec (h : GrowInv npages s) {e : GrowEvent} (hargs : GrowArgs s e)
    (hstep : growStep s e = .ok t) :
    (GrowsRight s e t ↔ GrowsClean npages s e) ∧ (GrowsRight s e t → GrowInv npages t) := by
  cases e with
  | contentInit initEP initPID => exact growStep_contentInit h hstep
  | setProvided offset =>
      have hinv := growStep_setProvided h hstep
      exact ⟨iff_of_true (hinv.growsRight fun _ he => nomatch he) trivial, fun _ => hinv⟩
  | expand size => exact growStep_expand h hargs hstep

end Invariant

theorem growRun_exists (size : Nat) (paddr : Bool) {evs : List GrowEvent}
    (hargs : ∀ e ∈ evs, ∀ s, GrowArgs s e) :
    ∃ s, Run growStep GrowArgs (newGrowing size paddr) evs s := by
  have hsafe : (newGrowing size paddr).Safe :=
    ⟨(fun _ hwords => nomatch hwords), (fun henabled => nomatch henabled)⟩
  obtain ⟨s, hrun, _⟩ := Run.exists_of_progress hsafe (fun t e _ he => hargs e he t)
    fun t e hI _ => growStep_returns hI e
  exact ⟨s, hrun⟩

/-- **Growing a content initialised dataspace.** Every sequence of registrations, provisions and
expansions on a new dataspace, whatever its size, has a run; and there, every expansion keeps what
is provided, every page has a bit, and the pages that have been added are asked for until they are
provided, if and only if every call meets the condition. -/
theorem growth_iff {size : Nat} (hsize : size < 2 ^ 32) (paddr : Bool) {evs : List GrowEvent}
    (hargs : ∀ e ∈ evs, ∀ s, GrowArgs s e) :
    (∃ s, Run growStep GrowArgs (newGrowing size paddr) evs s) ∧
      (Steps growStep GrowsRight evs (newGrowing size paddr) ↔
        Steps growStep (fun s e _ => GrowsClean (roundUpNpages size) s e) evs
          (newGrowing size paddr)) := by
  obtain ⟨s, hrun⟩ := growRun_exists size paddr hargs
  refine ⟨⟨s, hrun⟩, hrun.steps_congr (newGrowing_inv hsize paddr) ?_ ?_⟩
  · exact fun t e u hI hargs hu hright => (growStep_spec hI hargs hu).2 hright
  · exact fun t e u hI hargs hu => (growStep_spec hI hargs hu).1

/-- One page is provided, and the dataspace grows by another word of the bitmask. -/
theorem growth_iff_word :
    Steps growStep GrowsRight [.contentInit 3 5, .setProvided 4095, .expand 0x20000]
      (newGrowing 4096 false) := by
  obtain ⟨s, hrun, _⟩ : ∃ s, Run growStep (fun s e => GrowArgs s e ∧ GrowsClean 1 s e)
      (newGrowing 4096 false) [.contentInit 3 5, .setProvided 4095, .expand 0x20000] s ∧
      s.pending 31 = true := by
    apply Run.exists_of_exec
    decide +kernel
  refine (growth_iff (by decide) false ?_).2.2 (hrun.steps fun _ _ _ h _ => h.2)
  intro e he s
  simp only [List.mem_cons, List.not_mem_nil, or_false] at he
  rcases he with rfl | rfl | rfl
  · trivial
  · show 4095 < 2 ^ 32
    decide
  · show 0x20000 < 2 ^ 32
    decide

/-- The offset behind the only page is provided, and the dataspace grows: the new page counts as
provided. -/
theorem added_page_provided :
    ¬Steps growStep GrowsRight [.contentInit 3 5, .setProvided 4096, .expand 8192]
      (newGrowing 4096 false) := by
  intro hsteps
  obtain ⟨t, hrun, hclean⟩ : ∃ t, Run growStep (fun s e => GrowArgs s e ∧ GrowsClean 1 s e)
      (newGrowing 4096 false) [.contentInit 3 5, .setProvided 4096] t ∧
      ¬GrowsClean 1 t (.expand 8192) := by
    apply Run.exists_of_exec
    decide +kernel
  have hinit : GrowInv 1 (newGrowing 4096 false) :=
    newGrowing_inv (show 4096 < 2 ^ 32 by decide) false
  have hinv : GrowInv 1 t := hrun.invariant hinit fun t e u hI hok hu =>
    (growStep_spec hI hok.1 hu).2 ((growStep_spec hI hok.1 hu).1.2 hok.2)
  have hright : GrowsRight t (.expand 8192) _ := hrun.last_step hsteps rfl
  exact hclean ((growStep_expand hinv (by decide) rfl).1.1 hright)

end PartitionSeL4.Refos
