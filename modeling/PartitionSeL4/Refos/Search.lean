import PartitionSeL4.Refos.Window

/-!
# What the searches of `window.c` find

On a list of disjoint windows that is in order, or is not taken for sorted:

* `w_associate_find` finds the window that holds an address;
* `w_associate_check` accepts the ranges that no window meets. The searches for the first and the
  last address of such a range end at one place (`check_of_clear`): a window between two places
  would lie inside the range;
* `w_associate_find_range` finds the window that holds a whole range.

`findIndexLoop` is the loop of `w_associate_find_index` with its `int` indices, its assertions and
its result. It ends, no assertion fails, and it computes what `wAssociateFindIndex` says
(`findIndexLoop_eq`), on every list.
-/

namespace PartitionSeL4.Refos

open Lib

/-! ## The loop -/

/-- The loop of `w_associate_find_index`, from the two indices on. `none` if the loop is not over
when the fuel is used up. -/
def findIndexLoop (l : List AssociatedWindow) (addr : Nat) :
    Nat → Int → Int → Option (Except Failure Int)
  | 0, _, _ => none
  | fuel + 1, startIndex, endIndex =>
      let currentIndex := (startIndex + endIndex).tdiv 2
      if endIndex ≤ startIndex then some (.ok (-1 - currentIndex))
      else if ¬(0 ≤ currentIndex ∧ currentIndex < l.length) then some (.error .assertion)
      else
        match l[currentIndex.toNat]? with
        | none => some (.error .fault)
        | some w =>
            if w.contains addr then some (.ok currentIndex)
            else if w.offset ≤ addr then findIndexLoop l addr fuel (currentIndex + 1) endIndex
            else findIndexLoop l addr fuel startIndex currentIndex

/-- The `int` that stands for the end of a search: `found ? currentIndex : (-1 - currentIndex)`. -/
def findResult : Bisected → Int
  | .found i => i
  | .missing i => -1 - i

/-- The loop ends within as many turns as there are indices between the two, and one more. -/
theorem findIndexLoop_eq (l : List AssociatedWindow) (addr : Nat) {fuel lo hi : Nat}
    (hhi : hi ≤ l.length) (hfuel : hi - lo < fuel) :
    findIndexLoop l addr fuel lo hi =
      some (.ok (findResult (bisect (probeWindow l addr) fuel lo hi))) := by
  induction fuel generalizing lo hi with
  | zero => omega
  | succ fuel ih =>
      have hmid : ((lo : Int) + (hi : Int)).tdiv 2 = (((lo + hi) / 2 : Nat) : Int) := by
        rw [Int.tdiv_eq_ediv_of_nonneg (by omega)]
        omega
      rw [findIndexLoop, bisect, hmid]
      by_cases hle : hi ≤ lo
      · have hle' : (hi : Int) ≤ (lo : Int) := by omega
        simp only [hle, hle', if_true, findResult]
      · have hle' : ¬(hi : Int) ≤ (lo : Int) := by omega
        have hlt : (lo + hi) / 2 < l.length := by omega
        have hguess : ¬¬(0 ≤ (((lo + hi) / 2 : Nat) : Int) ∧
            (((lo + hi) / 2 : Nat) : Int) < (l.length : Int)) := by omega
        have hw := List.getElem?_eq_getElem hlt
        rw [if_neg hle', if_neg hguess, if_neg hle, Int.toNat_natCast, probeWindow, hw]
        by_cases hcontains : l[(lo + hi) / 2].contains addr = true
        · simp only [hcontains, if_true, findResult]
        · by_cases hoffset : l[(lo + hi) / 2].offset ≤ addr
          · have hnext := @ih ((lo + hi) / 2 + 1) hi hhi (by omega)
            rw [Int.natCast_add, Int.natCast_one] at hnext
            simp only [hcontains, hoffset, if_true]
            exact hnext
          · simp only [hcontains, hoffset]
            exact ih (by omega) (by omega)

/-! ## Ranges -/

section Ranges

variable {aw : AssociatedWindowlist} {w : AssociatedWindow} {offset size : Nat}

/-- The window holds no address of the range. -/
def AssociatedWindow.Clear (w : AssociatedWindow) (offset size : Nat) : Prop :=
  ∀ addr, offset ≤ addr → addr < offset + size → ¬w.Holds addr

/-- The window holds every address of the range. -/
def AssociatedWindow.HoldsRange (w : AssociatedWindow) (offset size : Nat) : Prop :=
  ∀ addr, offset ≤ addr → addr < offset + size → w.Holds addr

theorem clear_iff_apart (hw : 0 < w.size) (hpos : 0 < size) (winID : Nat) :
    w.Clear offset size ↔ Apart w ⟨winID, offset, size⟩ := by
  simp only [AssociatedWindow.Clear, AssociatedWindow.Holds, Apart]
  constructor
  · intro h
    have hfirst := h offset (by omega) (by omega)
    by_cases hin : offset ≤ w.offset
    · by_cases hend : w.offset < offset + size
      · have hmeet := h w.offset hin hend
        omega
      · omega
    · omega
  · intro h addr hle hlt
    omega

theorem holdsRange_iff (hpos : 0 < size) :
    w.HoldsRange offset size ↔ w.Holds offset ∧ w.Holds (offset + size - 1) := by
  constructor
  · intro h
    exact ⟨h offset (by omega) (by omega), h (offset + size - 1) (by omega) (by omega)⟩
  · rintro ⟨hfirst, hlast⟩ addr hle hlt
    simp only [AssociatedWindow.Holds] at hfirst hlast ⊢
    omega

theorem lastAddress_eq (hpos : 0 < size) (hle : offset + size ≤ 2 ^ 32) :
    u32 (offset + size + 2 ^ 32 - 1) = offset + size - 1 := by
  rw [u32]
  omega

/-- The searches for the ends of a range that no window meets end at one place. -/
theorem check_of_clear (hfits : Fits aw.associated) (hapart : aw.associated.Pairwise Apart)
    (h : InOrderOrStale aw) (hpos : 0 < size) (hle : offset + size ≤ 2 ^ 32)
    (hclear : ∀ w ∈ aw.associated, w.Clear offset size) :
    wAssociateCheck aw offset size = true := by
  have hperm := update_perm aw
  have hfits' := hfits.perm hperm.symm
  have hapart' := apart_of_perm hperm.symm hapart
  have horder := update_inOrder hfits hapart h
  have hclear' : ∀ (k : Nat) (w : AssociatedWindow),
      (wAssociateUpdate aw).associated[k]? = some w → w.Clear offset size :=
    fun _ w hw => hclear w (hperm.mem_iff.1 (List.mem_of_getElem? hw))
  have hmissing : ∀ addr, offset ≤ addr → addr < offset + size →
      ∃ i, wAssociateFindIndex aw addr = .missing i := by
    intro addr hfirst hlast
    cases hindex : wAssociateFindIndex aw addr with
    | missing i => exact ⟨i, rfl⟩
    | found i =>
        obtain ⟨w, hw, hholds⟩ := (search_found_iff hfits' hapart' horder).1 hindex
        exact absurd hholds (hclear' i w hw addr hfirst hlast)
  obtain ⟨i, hi⟩ := hmissing offset (by omega) (by omega)
  obtain ⟨j, hj⟩ := hmissing (offset + size - 1) (by omega) (by omega)
  have hilen := (bisect_missing (cut_of_inOrder hfits' hapart' horder _) hi).1
  have hjlen := (bisect_missing (cut_of_inOrder hfits' hapart' horder _) hj).1
  have hij : i = j := by
    rcases Nat.lt_trichotomy i j with hlt | heq | hlt
    · -- the window at `i` lies between the ends
      have hk : i < (wAssociateUpdate aw).associated.length := by omega
      have hw := List.getElem?_eq_getElem hk
      have habove := (search_missing hfits' hapart' horder hi hw).2 (Nat.le_refl i)
      have hbelow := (search_missing hfits' hapart' horder hj hw).1 hlt
      have hsize := (hfits' _ (List.mem_of_getElem? hw)).1
      exact absurd (hfits'.holds_offset (List.mem_of_getElem? hw))
        (hclear' i _ hw _ (by omega) (by omega))
    · exact heq
    · -- the window at `j` would be below the first address and above the last
      have hk : j < (wAssociateUpdate aw).associated.length := by omega
      have hw := List.getElem?_eq_getElem hk
      have hbelow := (search_missing hfits' hapart' horder hi hw).1 hlt
      have habove := (search_missing hfits' hapart' horder hj hw).2 (Nat.le_refl j)
      omega
  rw [wAssociateCheck, lastAddress_eq hpos hle, hi, hj]
  exact decide_eq_true hij

end Ranges

/-! ## The searches -/

section Results

variable {aw : AssociatedWindowlist} {w : AssociatedWindow}

theorem inOrderOrStale_of_sorted (hfits : Fits aw.associated)
    (hapart : aw.associated.Pairwise Apart)
    (h : aw.updated = false ∨ aw.associated.Pairwise offsetLe) : InOrderOrStale aw := by
  intro hupdated
  rcases h with hstale | hsorted
  · rw [hstale] at hupdated
    cases hupdated
  · exact inOrder_of_sorted hfits hapart hsorted

theorem find_eq_some_iff (hfits : Fits aw.associated) (hapart : aw.associated.Pairwise Apart)
    (h : InOrderOrStale aw) {addr : Nat} :
    wAssociateFind aw addr = some w ↔ w ∈ aw.associated ∧ w.Holds addr := by
  constructor
  · intro hfind
    obtain ⟨hw, hcontains⟩ := find_some hfind
    exact ⟨hw, (contains_holds hcontains).1⟩
  · rintro ⟨hw, hholds⟩
    exact find_of_holds hfits hapart h hw hholds

theorem find_eq_none_iff (hfits : Fits aw.associated) (hapart : aw.associated.Pairwise Apart)
    (h : InOrderOrStale aw) {addr : Nat} :
    wAssociateFind aw addr = none ↔ ∀ w ∈ aw.associated, ¬w.Holds addr := by
  rw [Option.eq_none_iff_forall_not_mem]
  constructor
  · intro hnone w hw hholds
    exact hnone w ((find_eq_some_iff hfits hapart h).2 ⟨hw, hholds⟩)
  · intro hnone w hfind
    obtain ⟨hw, hholds⟩ := (find_eq_some_iff hfits hapart h).1 hfind
    exact hnone w hw hholds

theorem check_iff (hfits : Fits aw.associated) (hapart : aw.associated.Pairwise Apart)
    (h : InOrderOrStale aw) {offset size : Nat} (hpos : 0 < size) (hle : offset + size ≤ 2 ^ 32) :
    wAssociateCheck aw offset size = true ↔ ∀ w ∈ aw.associated, w.Clear offset size := by
  constructor
  · intro hcheck w hw
    rw [clear_iff_apart (hfits w hw).1 hpos 0]
    exact apart_of_check hfits hapart h hpos hle hcheck 0 hw
  · exact check_of_clear hfits hapart h hpos hle

theorem findRange_eq_some_iff (hfits : Fits aw.associated)
    (hapart : aw.associated.Pairwise Apart) (h : InOrderOrStale aw) {offset size : Nat}
    (hpos : 0 < size) (hle : offset + size ≤ 2 ^ 32) :
    wAssociateFindRange aw offset size = some w ↔
      w ∈ aw.associated ∧ w.HoldsRange offset size := by
  rw [holdsRange_iff hpos]
  constructor
  · intro hfind
    obtain ⟨hw, hfirst, hlast⟩ := findRange_some hfind
    rw [lastAddress_eq hpos hle] at hlast
    exact ⟨hw, hfirst, hlast⟩
  · rintro ⟨hw, hfirst, hlast⟩
    refine findRange_of_holds hfits hapart h hw hfirst ?_
    rw [lastAddress_eq hpos hle]
    exact hlast

/-- **What the searches find**, on a list of disjoint windows that is sorted or not taken for
sorted. -/
theorem window_search (aw : AssociatedWindowlist) (hfits : Fits aw.associated)
    (hapart : aw.associated.Pairwise Apart)
    (hsorted : aw.updated = false ∨ aw.associated.Pairwise offsetLe) :
    (∀ addr w, wAssociateFind aw addr = some w ↔ w ∈ aw.associated ∧ w.Holds addr) ∧
      (∀ addr, wAssociateFind aw addr = none ↔ ∀ w ∈ aw.associated, ¬w.Holds addr) ∧
      (∀ offset size, 0 < size → offset + size ≤ 2 ^ 32 →
        (wAssociateCheck aw offset size = true ↔ ∀ w ∈ aw.associated, w.Clear offset size) ∧
        ∀ w, wAssociateFindRange aw offset size = some w ↔
          w ∈ aw.associated ∧ w.HoldsRange offset size) ∧
      ∀ addr fuel, aw.associated.length < fuel →
        findIndexLoop (wAssociateUpdate aw).associated addr fuel 0
            (wAssociateUpdate aw).associated.length =
          some (.ok (findResult (wAssociateFindIndex aw addr))) := by
  have horder := inOrderOrStale_of_sorted hfits hapart hsorted
  refine ⟨fun addr w => find_eq_some_iff hfits hapart horder,
    fun addr => find_eq_none_iff hfits hapart horder, fun offset size hpos hle => ?_,
    fun addr fuel hfuel => ?_⟩
  · exact ⟨check_iff hfits hapart horder hpos hle,
      fun w => findRange_eq_some_iff hfits hapart horder hpos hle⟩
  · rw [← (update_perm aw).length_eq] at hfuel
    have hsearch : bisect (probeWindow (wAssociateUpdate aw).associated addr) fuel 0
        (wAssociateUpdate aw).associated.length = wAssociateFindIndex aw addr :=
      bisect_fuel (by omega) (by omega)
    rw [← hsearch]
    exact findIndexLoop_eq _ addr (Nat.le_refl _) (by omega)

/-- Two windows, not sorted: the gap between them is free, and each address is found. -/
theorem window_search_unsorted :
    wAssociateCheck ⟨[⟨2, 0x2000, 0x1000⟩, ⟨1, 0x1000, 0x800⟩], false⟩ 0x1800 0x800 = true ∧
      wAssociateFind ⟨[⟨2, 0x2000, 0x1000⟩, ⟨1, 0x1000, 0x800⟩], false⟩ 0x2fff =
        some ⟨2, 0x2000, 0x1000⟩ := by
  have hfits : Fits [⟨2, 0x2000, 0x1000⟩, ⟨1, 0x1000, 0x800⟩] := by
    simp [Fits]
  obtain ⟨hfind, _, hrange, _⟩ :=
    window_search ⟨[⟨2, 0x2000, 0x1000⟩, ⟨1, 0x1000, 0x800⟩], false⟩ hfits (by decide)
      (Or.inl rfl)
  refine ⟨(hrange 0x1800 0x800 (by decide) (by decide)).1.2 ?_, (hfind 0x2fff _).2 ?_⟩
  · intro w hw addr hle hlt
    simp only [List.mem_cons, List.not_mem_nil, or_false] at hw
    rcases hw with rfl | rfl
    · simp only [AssociatedWindow.Holds]
      omega
    · simp only [AssociatedWindow.Holds]
      omega
  · simp [AssociatedWindow.Holds]

end Results

end PartitionSeL4.Refos
