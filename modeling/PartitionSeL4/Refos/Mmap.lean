import PartitionSeL4.Refos.DataStruct
import PartitionSeL4.Refos.Dataspace
import PartitionSeL4.Lib.Run
import Mathlib.Algebra.Ring.Nat

/-!
# Anonymous `mmap`

A process keeps a bitmap of the pages of its `mmap` region, page 0 being the topmost one, and a
bitmap of the segments of 128 pages for which there is a window. `refosio_mmap_anon` takes the
lowest-numbered free pages and makes sure that their segments have windows; the address it returns
is that of its last page. `refosio_munmap_anon` computes the number of a page from this address, and
comes out one mapping too far: it frees the pages *behind* the mapping, and may then delete the
window of the segment.

`mmap_regions` says when things are right: as long as nothing is unmapped, and the last page of the
region is not reached. Then the pages are used from the top, one mapping after the other
(`MMap.Stacked`). Every call of `refosio_munmap_anon` for a mapping is wrong, and so is taking the
last page, which seems to be in a segment that does not exist.

Calls to the process server succeed here.
-/

namespace PartitionSeL4.Refos

open Lib

/-! ## The region -/

/-- `PROCESS_MMAP_TOP` -/
def processMmapTop : Nat := 0xBF000000

/-- `PROCESS_MMAP_LIMIT_SIZE` -/
def processMmapLimitSize : Nat := 2 ^ 31

/-- `PROCESS_MMAP_BOT` -/
def processMmapBot : Nat := processMmapTop - processMmapLimitSize

/-- `PROCESS_MMAP_LIMIT_SIZE_NPAGES` -/
def processMmapLimitSizeNpages : Nat := processMmapLimitSize / pageSize

/-- `PROCESS_MMAP_SEGMENT_SIZE_NPAGES` -/
def processMmapSegmentSizeNpages : Nat := 128

/-- `PROCESS_MMAP_SEGMENTS` -/
def processMmapSegments : Nat := processMmapLimitSizeNpages / processMmapSegmentSizeNpages

/-- The size of a segment in bytes. -/
def segmentSize : Nat := processMmapSegmentSizeNpages * pageSize

/-- `refos_io_mmap_segment_state_t`, with the windows that the process server has for this process,
by their base addresses, and with the mappings that were made and not unmapped: address and number
of pages. -/
structure MMap where
  pageStatus : Cbpool
  segmentStatus : Cbpool
  windows : List Nat
  live : List (Nat × Nat)

/-- `refosio_mmap_init` -/
def mmapInit : MMap where
  pageStatus := .init processMmapLimitSizeNpages
  segmentStatus := .init processMmapSegments
  windows := []
  live := []

/-- The address `n` pages below the top. -/
def pageVaddr (n : Nat) : Nat := u32 (processMmapTop + 2 ^ 32 - u32 (n * pageSize))

/-! ## The functions -/

/-- `refosio_mmap_segment_fill` -/
def segmentFill (s : MMap) (vaddr : Nat) : Except Failure MMap := do
  let segmentID := (processMmapTop - vaddr) / segmentSize
  if vaddr < processMmapBot ∨ processMmapTop ≤ vaddr then .error .assertion
  else if processMmapSegments ≤ segmentID then .error .assertion
  else if ← s.segmentStatus.checkSingle segmentID then .ok s
  else
    let base := processMmapTop - (segmentID + 1) * segmentSize
    if base < processMmapBot ∨ processMmapTop ≤ base then .error .assertion
    else
      let segmentStatus ← s.segmentStatus.setSingle segmentID true
      .ok { s with segmentStatus := segmentStatus, windows := base :: s.windows }

/-- The loop of `refosio_mmap_segment_release`: whether `n` pages from `page` on are free. -/
def pagesReleased (p : Cbpool) : Nat → Nat → Except Failure Bool
  | _, 0 => .ok true
  | page, n + 1 => do
      if ← p.checkSingle page then .ok false
      else pagesReleased p (page + 1) n

/-- `proc_get_mem_window`: the window at an address. -/
def procGetMemWindow (s : MMap) (vaddr : Nat) : Option Nat :=
  s.windows.find? fun base => base ≤ vaddr ∧ vaddr < base + segmentSize

/-- `refosio_mmap_segment_release` -/
def segmentRelease (s : MMap) (vaddr : Nat) : Except Failure (Err × MMap) := do
  let segmentID := (processMmapTop - vaddr) / segmentSize
  if vaddr < processMmapBot ∨ processMmapTop ≤ vaddr then .error .assertion
  else if processMmapSegments ≤ segmentID then .error .assertion
  else if (← s.segmentStatus.checkSingle segmentID) = false then .ok (.success, s)
  else if (← pagesReleased s.pageStatus ((processMmapTop - vaddr) / pageSize)
      processMmapSegmentSizeNpages) = false then .ok (.unmapFirst, s)
  else
    match procGetMemWindow s vaddr with
    | none => .ok (.success, s)
    | some base =>
        let segmentStatus ← s.segmentStatus.setSingle segmentID false
        .ok (.success, { s with segmentStatus := segmentStatus, windows := s.windows.erase base })

/-- The loop of `refosio_mmap_anon`, over `n` pages from `page` on -/
def fillLoop : MMap → Nat → Nat → Except Failure MMap
  | s, _, 0 => .ok s
  | s, page, n + 1 => do
      let s ← segmentFill s (pageVaddr (page + 1))
      fillLoop s (page + 1) n

/-- `refosio_mmap_anon`: the error, and `vaddrDest` if it is set -/
def mmapAnon (s : MMap) (npages : Nat) : Except Failure (Err × Option Nat × MMap) :=
  if npages = 0 then .ok (.success, none, s)
  else
    match s.pageStatus.alloc npages with
    | (none, _) => .ok (.nomem, none, s)
    | (some vaddrOffsetPage, pageStatus) => do
        let s ← fillLoop { s with pageStatus := pageStatus } vaddrOffsetPage npages
        .ok (.success, some (pageVaddr (vaddrOffsetPage + npages)), s)

/-- The loop of `refosio_munmap_anon`, over `n` pages from `page` on. What a release answers is
ignored. -/
def releaseLoop : MMap → Nat → Nat → Except Failure MMap
  | s, _, 0 => .ok s
  | s, page, n + 1 => do
      let (_, s) ← segmentRelease s (pageVaddr (page + 1))
      releaseLoop s (page + 1) n

/-- `refosio_munmap_anon` -/
def munmapAnon (s : MMap) (vaddr npages : Nat) : Except Failure (Err × MMap) :=
  if npages = 0 then .ok (.success, s)
  else if processMmapTop ≤ vaddr then .ok (.invalidParam, s)
  else if vaddr < processMmapBot then .ok (.invalidParam, s)
  else
    let vaddrOffsetPage := (processMmapTop - vaddr) / pageSize
    if processMmapLimitSizeNpages ≤ vaddrOffsetPage then .error .assertion
    else do
      let pageStatus := s.pageStatus.free vaddrOffsetPage npages
      let s ← releaseLoop { s with pageStatus := pageStatus } vaddrOffsetPage npages
      .ok (.success, s)

/-- A call. -/
inductive MmapEvent where
  | mmap (npages : Nat)
  | munmap (vaddr npages : Nat)
  deriving DecidableEq, Repr

/-- A call, with the mappings that there are then. -/
def mmapStep (s : MMap) : MmapEvent → Except Failure MMap
  | .mmap npages => (mmapAnon s npages).map fun (_, vaddrDest, s') =>
      { s' with live := s'.live ++ vaddrDest.toList.map fun vaddr => (vaddr, npages) }
  | .munmap vaddr npages => (munmapAnon s vaddr npages).map fun (_, s') =>
      { s' with live := s'.live.erase (vaddr, npages) }

/-! ## The property and the condition -/

/-- The page with this number belongs to the mapping. -/
def Covers (m : Nat × Nat) (page : Nat) : Prop :=
  m.1 ≤ pageVaddr (page + 1) ∧ pageVaddr (page + 1) < m.1 + m.2 * pageSize

/-- The mappings lie apart from each other in the region, the bitmap is that of their pages, and
each of these is in a segment with a window. -/
structure MMap.Right (s : MMap) : Prop where
  inside : ∀ m ∈ s.live, processMmapBot ≤ m.1 ∧ m.1 + m.2 * pageSize ≤ processMmapTop
  disjoint : s.live.Pairwise fun m m' =>
    m.1 + m.2 * pageSize ≤ m'.1 ∨ m'.1 + m'.2 * pageSize ≤ m.1
  bitmap : ∀ page < processMmapLimitSizeNpages,
    s.pageStatus.bitmap page = true ↔ ∃ m ∈ s.live, Covers m page
  backed : ∀ m ∈ s.live, ∀ page < processMmapLimitSizeNpages, Covers m page →
    ∃ base ∈ s.windows, base ≤ pageVaddr (page + 1) ∧
      pageVaddr (page + 1) + pageSize ≤ base + segmentSize

/-- The calls considered: there are pages for a mapping, and a mapping that is unmapped is there. -/
def MMap.Allowed (s : MMap) : MmapEvent → Prop
  | .mmap npages => npages = 0 ∨ (s.pageStatus.alloc npages).1.isSome
  | .munmap vaddr npages => (vaddr, npages) ∈ s.live

instance (s : MMap) : (e : MmapEvent) → Decidable (s.Allowed e)
  | .mmap _ => inferInstanceAs (Decidable (_ ∨ _))
  | .munmap _ _ => inferInstanceAs (Decidable (_ ∈ _))

/-- The condition: nothing is unmapped, and the region has more pages than the mappings. -/
def MMap.Fine (s : MMap) : MmapEvent → Prop
  | .mmap npages => (s.live.map Prod.snd).sum + npages < processMmapLimitSizeNpages
  | .munmap _ _ => False

instance (s : MMap) : (e : MmapEvent) → Decidable (s.Fine e)
  | .mmap _ => inferInstanceAs (Decidable (_ < _))
  | .munmap _ _ => inferInstanceAs (Decidable False)

/-- A call returns, everything is right then, and unmapping has freed the pages of the mapping and
no others. -/
def MMap.HandledRight (s : MMap) (e : MmapEvent) : Prop :=
  ∃ s', mmapStep s e = .ok s' ∧ s'.Right ∧
    ∀ vaddr npages, e = .munmap vaddr npages → ∀ page < processMmapLimitSizeNpages,
      (s'.pageStatus.bitmap page = true ↔
        s.pageStatus.bitmap page = true ∧ ¬Covers (vaddr, npages) page)

/-! ## Addresses -/

theorem pageVaddr_eq {n : Nat} (h : n ≤ processMmapLimitSizeNpages) :
    pageVaddr n = processMmapTop - n * pageSize := by
  have hle : n * pageSize ≤ processMmapLimitSize := by
    simp only [processMmapLimitSizeNpages, processMmapLimitSize, pageSize] at h ⊢
    omega
  simp only [processMmapLimitSize] at hle
  have hword : u32 (n * pageSize) = n * pageSize := u32_of_lt (by omega)
  have htop : 2 ^ 31 ≤ processMmapTop := by decide
  rw [pageVaddr, hword]
  exact u32_sub (by omega) (by decide)

/-- The mapping of `n` pages behind the first `k` has the pages with the numbers from `k` on. -/
theorem covers_iff {k n page : Nat} (hkn : k + n ≤ processMmapLimitSizeNpages)
    (hpage : page < processMmapLimitSizeNpages) :
    Covers (pageVaddr (k + n), n) page ↔ k ≤ page ∧ page < k + n := by
  rw [Covers, pageVaddr_eq hkn, pageVaddr_eq hpage]
  simp only [processMmapLimitSizeNpages, processMmapLimitSize, processMmapTop, pageSize] at *
  omega

/-! ## Filling segments -/

/-- The segments of the first `k` pages have their windows, and so has the next one, if it begins
with page `k`. -/
structure MMap.Filled (k : Nat) (s : MMap) : Prop where
  size : s.segmentStatus.size = processMmapSegments
  status : ∀ j, s.segmentStatus.bitmap j = true ↔ 0 < k ∧ j ≤ k / processMmapSegmentSizeNpages
  window : ∀ j, s.segmentStatus.bitmap j = true →
    processMmapTop - (j + 1) * segmentSize ∈ s.windows

theorem segmentID_eq {k : Nat} (h : k + 1 ≤ processMmapLimitSizeNpages) :
    (processMmapTop - pageVaddr (k + 1)) / segmentSize =
      (k + 1) / processMmapSegmentSizeNpages := by
  rw [pageVaddr_eq h]
  simp only [processMmapLimitSizeNpages, processMmapLimitSize, processMmapTop, pageSize,
    segmentSize, processMmapSegmentSizeNpages] at *
  omega

theorem pageVaddr_mem {k : Nat} (h : k + 1 ≤ processMmapLimitSizeNpages) :
    ¬(pageVaddr (k + 1) < processMmapBot ∨ processMmapTop ≤ pageVaddr (k + 1)) := by
  rw [pageVaddr_eq h]
  simp only [processMmapLimitSizeNpages, processMmapLimitSize, processMmapTop, pageSize,
    processMmapBot] at *
  omega

section Fill

variable {s : MMap} {k : Nat}

theorem segmentFill_eq {vaddr j : Nat} (hsize : s.segmentStatus.size = processMmapSegments)
    (hvaddr : ¬(vaddr < processMmapBot ∨ processMmapTop ≤ vaddr))
    (hID : (processMmapTop - vaddr) / segmentSize = j) (hj : j < processMmapSegments) :
    segmentFill s vaddr =
      if s.segmentStatus.bitmap j = true then .ok s
      else .ok { s with
        segmentStatus := { s.segmentStatus with
          bitmap := Function.update s.segmentStatus.bitmap j true }
        windows := (processMmapTop - (j + 1) * segmentSize) :: s.windows } := by
  have htile : j / 32 < s.segmentStatus.sizeNtiles := by
    rw [Cbpool.sizeNtiles, hsize]
    omega
  have hbase : ¬(processMmapTop - (j + 1) * segmentSize < processMmapBot ∨
      processMmapTop ≤ processMmapTop - (j + 1) * segmentSize) := by
    simp only [processMmapSegments, processMmapLimitSizeNpages, processMmapLimitSize, pageSize,
      processMmapSegmentSizeNpages, segmentSize, processMmapBot, processMmapTop] at *
    omega
  simp only [segmentFill, hID, if_neg hvaddr, if_neg (Nat.not_le.2 hj), Cbpool.checkSingle,
    if_pos htile, if_neg hbase, Cbpool.setSingle]
  rfl

theorem MMap.Filled.fill (h : s.Filled k) (hk : k + 1 < processMmapLimitSizeNpages) :
    ∃ s', segmentFill s (pageVaddr (k + 1)) = .ok s' ∧ s'.Filled (k + 1) ∧
      s'.pageStatus = s.pageStatus ∧ s'.live = s.live := by
  have hj : (k + 1) / processMmapSegmentSizeNpages < processMmapSegments := by
    simp only [processMmapLimitSizeNpages, processMmapLimitSize, pageSize,
      processMmapSegmentSizeNpages, processMmapSegments] at *
    omega
  rw [segmentFill_eq h.size (pageVaddr_mem (Nat.le_of_lt hk)) (segmentID_eq (Nat.le_of_lt hk)) hj]
  by_cases hset : s.segmentStatus.bitmap ((k + 1) / processMmapSegmentSizeNpages) = true
  · rw [if_pos hset]
    refine ⟨s, rfl, ⟨h.size, fun j => ?_, h.window⟩, rfl, rfl⟩
    have := (h.status _).1 hset
    have := h.status j
    simp only [processMmapSegmentSizeNpages] at *
    rw [this]
    omega
  · rw [if_neg hset]
    refine ⟨_, rfl, ⟨h.size, fun j => ?_, fun j hj => ?_⟩, rfl, rfl⟩
    · have hnot := mt (h.status _).2 hset
      have := h.status j
      simp only [processMmapSegmentSizeNpages, Function.update_apply] at *
      split_ifs with heq
      · simp [heq]
      · rw [this]
        omega
    · simp only [Function.update_apply] at hj
      split_ifs at hj with heq
      · rw [heq]
        exact List.mem_cons_self
      · exact List.mem_cons_of_mem _ (h.window j hj)

/-- The pages of a mapping that ends before the last page of the region. -/
theorem MMap.Filled.fillLoop {n : Nat} (h : s.Filled k) (hkn : k + n < processMmapLimitSizeNpages) :
    ∃ s', Refos.fillLoop s k n = .ok s' ∧ s'.Filled (k + n) ∧ s'.pageStatus = s.pageStatus ∧
      s'.live = s.live := by
  induction n generalizing s k with
  | zero => exact ⟨s, rfl, h, rfl, rfl⟩
  | succ n ih =>
      obtain ⟨s₁, hs₁, h₁, hpage, hlive⟩ := h.fill (by omega)
      obtain ⟨s', hs', h', hpage', hlive'⟩ := ih h₁ (by omega)
      refine ⟨s', bind_eq_ok_iff.2 ⟨s₁, hs₁, hs'⟩, ?_, hpage'.trans hpage, hlive'.trans hlive⟩
      rw [Nat.add_assoc, Nat.add_comm 1] at h'
      exact h'

/-- The last page of the region is not filled. -/
theorem segmentFill_last : segmentFill s (pageVaddr processMmapLimitSizeNpages) =
    .error .assertion := by
  have hlast : processMmapLimitSizeNpages = processMmapLimitSizeNpages - 1 + 1 := rfl
  rw [hlast]
  have hID : processMmapSegments ≤ (processMmapTop -
      pageVaddr (processMmapLimitSizeNpages - 1 + 1)) / segmentSize := by
    rw [segmentID_eq (by decide)]
    decide
  simp only [segmentFill, if_neg (pageVaddr_mem (k := processMmapLimitSizeNpages - 1) (by decide)),
    if_pos hID]

theorem MMap.Filled.fillLoop_last {n : Nat} (h : s.Filled k) (hn : 0 < n)
    (hkn : k + n = processMmapLimitSizeNpages) : Refos.fillLoop s k n = .error .assertion := by
  induction n generalizing s k with
  | zero => cases hn
  | succ n ih =>
      rw [Refos.fillLoop]
      cases n with
      | zero =>
          have hlast : k + 1 = processMmapLimitSizeNpages := hkn
          rw [hlast, segmentFill_last]
          rfl
      | succ n =>
          obtain ⟨s₁, hs₁, h₁, _⟩ := h.fill (by omega)
          rw [hs₁]
          exact ih h₁ (by omega) (by omega)

end Fill

/-! ## The invariant -/

/-- The first `k` pages are in use, one mapping after the other. -/
structure MMap.Stacked (k : Nat) (s : MMap) : Prop where
  filled : s.Filled k
  lt : k < processMmapLimitSizeNpages
  size : s.pageStatus.size = processMmapLimitSizeNpages
  pages : ∀ page, s.pageStatus.bitmap page = true ↔ page < k
  total : (s.live.map Prod.snd).sum = k
  place : ∀ m ∈ s.live, 0 < m.2 ∧ ∃ a, m.1 = pageVaddr (a + m.2) ∧ a + m.2 ≤ k
  disjoint : s.live.Pairwise fun m m' =>
    m.1 + m.2 * pageSize ≤ m'.1 ∨ m'.1 + m'.2 * pageSize ≤ m.1
  covered : ∀ page < k, ∃ m ∈ s.live, Covers m page

namespace MMap

variable {s s' : MMap} {k n : Nat}

theorem Stacked.init : mmapInit.Stacked 0 where
  filled := ⟨rfl, fun j => by simp [mmapInit, Cbpool.init], fun j hj => by cases hj⟩
  lt := by decide
  size := rfl
  pages page := by simp [mmapInit, Cbpool.init]
  total := rfl
  place m hm := absurd hm List.not_mem_nil
  disjoint := List.Pairwise.nil
  covered page hpage := absurd hpage (Nat.not_lt_zero page)

theorem Filled.backed (h : s.Filled k) (hk : k < processMmapLimitSizeNpages) {page : Nat}
    (hpage : page < k) : ∃ base ∈ s.windows, base ≤ pageVaddr (page + 1) ∧
      pageVaddr (page + 1) + pageSize ≤ base + segmentSize := by
  have hset : s.segmentStatus.bitmap (page / processMmapSegmentSizeNpages) = true :=
    (h.status _).2 ⟨by omega, Nat.div_le_div_right (Nat.le_of_lt hpage)⟩
  refine ⟨_, h.window _ hset, ?_⟩
  rw [pageVaddr_eq (by omega)]
  simp only [processMmapLimitSizeNpages, processMmapLimitSize, processMmapTop, pageSize,
    segmentSize, processMmapSegmentSizeNpages] at *
  omega

theorem Stacked.covers_lt (h : s.Stacked k) {m : Nat × Nat} (hm : m ∈ s.live) {page : Nat}
    (hpage : page < processMmapLimitSizeNpages) (hcovers : Covers m page) : page < k := by
  obtain ⟨_, a, ha, hle⟩ := h.place m hm
  have hk := h.lt
  have hcovers' : Covers (pageVaddr (a + m.2), m.2) page := by
    rw [← ha]
    exact hcovers
  have := (covers_iff (by omega) hpage).1 hcovers'
  omega

theorem Stacked.right (h : s.Stacked k) : s.Right where
  inside m hm := by
    obtain ⟨_, a, ha, hle⟩ := h.place m hm
    have hk := h.lt
    rw [ha, pageVaddr_eq (by omega)]
    simp only [processMmapLimitSizeNpages, processMmapLimitSize, processMmapTop, pageSize,
      processMmapBot] at *
    omega
  disjoint := h.disjoint
  bitmap page hpage := by
    rw [h.pages]
    refine ⟨h.covered page, ?_⟩
    rintro ⟨m, hm, hcovers⟩
    exact h.covers_lt hm hpage hcovers
  backed m hm page hpage hcovers := h.filled.backed h.lt (h.covers_lt hm hpage hcovers)

theorem Stacked.alloc {sta : Nat} {p : Cbpool} (h : s.Stacked k)
    (halloc : s.pageStatus.alloc n = (some sta, p)) :
    sta = k ∧ 0 < n ∧ k + n ≤ processMmapLimitSizeNpages ∧
      p = s.pageStatus.setRange k (k + n) true := by
  obtain ⟨hn, hfree, hle, hbefore, rfl⟩ := Cbpool.alloc_spec halloc
  have hge : ¬sta < k := by
    rw [← h.pages, hfree sta (Nat.le_refl _) (by omega)]
    exact Bool.false_ne_true
  have hsta : sta = k := by
    obtain rfl | hset := hbefore
    · omega
    · have := (h.pages _).1 hset
      omega
  subst hsta
  exact ⟨rfl, hn, h.size ▸ hle, rfl⟩

theorem Stacked.mmap (h : s.Stacked k) (hn : 0 < n) (hkn : k + n < processMmapLimitSizeNpages)
    (halloc : s.pageStatus.alloc n = (some k, s.pageStatus.setRange k (k + n) true)) :
    ∃ s', mmapStep s (.mmap n) = .ok s' ∧ s'.Stacked (k + n) := by
  have hfilled : MMap.Filled k { s with pageStatus := s.pageStatus.setRange k (k + n) true } :=
    ⟨h.filled.size, h.filled.status, h.filled.window⟩
  obtain ⟨s₁, hfill, hfilled₁, hpage, hlive⟩ := hfilled.fillLoop hkn
  refine ⟨{ s₁ with live := s₁.live ++ [(pageVaddr (k + n), n)] }, ?_, ?_⟩
  · simp only [mmapStep, mmapAnon, if_neg (Nat.ne_of_gt hn), halloc, hfill]
    rfl
  rw [hlive]
  have hpages : ∀ page, s₁.pageStatus.bitmap page = true ↔ page < k + n := by
    intro page
    rw [hpage]
    simp only [Cbpool.setRange]
    have := h.pages page
    split_ifs with hin
    · simp [hin.2]
    · rw [this]
      omega
  refine ⟨⟨hfilled₁.size, hfilled₁.status, hfilled₁.window⟩, hkn, ?_, hpages, ?_, ?_, ?_, ?_⟩
  · rw [hpage]
    exact h.size
  · simp [h.total]
  · intro m hm
    obtain hm | hm := List.mem_append.1 hm
    · obtain ⟨hpos, a, ha, hle⟩ := h.place m hm
      exact ⟨hpos, a, ha, by omega⟩
    · rw [List.mem_singleton.1 hm]
      exact ⟨hn, k, rfl, Nat.le_refl _⟩
  · -- the new mapping is below the others
    refine List.pairwise_append.2 ⟨h.disjoint, List.pairwise_singleton _ _, ?_⟩
    intro m hm m' hm'
    obtain ⟨_, a, ha, hle⟩ := h.place m hm
    rw [List.mem_singleton.1 hm', ha, pageVaddr_eq (Nat.le_of_lt hkn), pageVaddr_eq (by omega)]
    right
    simp only [processMmapLimitSizeNpages, processMmapLimitSize, processMmapTop, pageSize] at *
    omega
  · intro page hlt
    by_cases hold : page < k
    · obtain ⟨m, hm, hcovers⟩ := h.covered page hold
      exact ⟨m, List.mem_append_left _ hm, hcovers⟩
    · refine ⟨_, List.mem_append_right _ List.mem_cons_self, ?_⟩
      exact (covers_iff (Nat.le_of_lt hkn) (by omega)).2 ⟨Nat.le_of_not_lt hold, hlt⟩

/-! ## Unmapping -/

/-- Releasing segments leaves the pages alone. -/
theorem pageStatus_of_release {vaddr : Nat} {e : Err} (hs' : segmentRelease s vaddr = .ok (e, s')) :
    s'.pageStatus = s.pageStatus := by
  simp only [segmentRelease] at hs'
  split at hs'
  · cases hs'
  split at hs'
  · cases hs'
  obtain ⟨filled, _, hs'⟩ := bind_eq_ok_iff.1 hs'
  split at hs'
  · rw [← (Prod.mk.inj (Except.ok.inj hs')).2]
  obtain ⟨released, _, hs'⟩ := bind_eq_ok_iff.1 hs'
  split at hs'
  · rw [← (Prod.mk.inj (Except.ok.inj hs')).2]
  split at hs'
  · rw [← (Prod.mk.inj (Except.ok.inj hs')).2]
  · obtain ⟨status, _, hs'⟩ := bind_eq_ok_iff.1 hs'
    rw [← (Prod.mk.inj (Except.ok.inj hs')).2]

theorem pageStatus_of_releaseLoop {page : Nat} (hs' : releaseLoop s page n = .ok s') :
    s'.pageStatus = s.pageStatus := by
  induction n generalizing s page with
  | zero => rw [← Except.ok.inj hs']
  | succ n ih =>
      obtain ⟨⟨e, s₁⟩, hs₁, hs'⟩ := bind_eq_ok_iff.1 hs'
      exact (ih hs').trans (pageStatus_of_release hs₁)

/-- Unmapping a mapping of `n` pages behind the first `a` frees pages from `a + n` on. -/
theorem pageStatus_of_munmap {a : Nat} (hn : 0 < n) (han : a + n < processMmapLimitSizeNpages)
    (hs' : mmapStep s (.munmap (pageVaddr (a + n)) n) = .ok s') :
    s'.pageStatus = s.pageStatus.free (a + n) n := by
  have hvaddr := pageVaddr_eq (Nat.le_of_lt han)
  have htop : ¬processMmapTop ≤ pageVaddr (a + n) := by
    rw [hvaddr]
    simp only [processMmapLimitSizeNpages, processMmapLimitSize, processMmapTop, pageSize] at *
    omega
  have hbot : ¬pageVaddr (a + n) < processMmapBot := by
    rw [hvaddr]
    simp only [processMmapLimitSizeNpages, processMmapLimitSize, processMmapTop, pageSize,
      processMmapBot] at *
    omega
  have hoffset : (processMmapTop - pageVaddr (a + n)) / pageSize = a + n := by
    rw [hvaddr]
    simp only [processMmapLimitSizeNpages, processMmapLimitSize, processMmapTop, pageSize] at *
    omega
  simp only [mmapStep, munmapAnon, if_neg (Nat.ne_of_gt hn), if_neg htop, if_neg hbot, hoffset,
    if_neg (Nat.not_le.2 han)] at hs'
  cases hloop : releaseLoop { s with pageStatus := s.pageStatus.free (a + n) n } (a + n) n with
  | error f =>
      rw [hloop] at hs'
      cases hs'
  | ok s₁ =>
      rw [hloop] at hs'
      rw [← Except.ok.inj hs']
      exact pageStatus_of_releaseLoop hloop

/-- No mapping is unmapped rightly: its first page stays in use. -/
theorem Stacked.not_handledRight_munmap (h : s.Stacked k) {vaddr : Nat}
    (hlive : (vaddr, n) ∈ s.live) : ¬s.HandledRight (.munmap vaddr n) := by
  rintro ⟨s', hs', _, hfreed⟩
  obtain ⟨hn, a, ha, hle⟩ := h.place _ hlive
  simp only at hn ha hle
  have hk := h.lt
  subst ha
  have hset : s.pageStatus.bitmap a = true := (h.pages a).2 (by omega)
  have hkept : s'.pageStatus.bitmap a = true := by
    rw [pageStatus_of_munmap hn (by omega) hs', Cbpool.free, if_neg (Nat.ne_of_gt hn)]
    simp only [Cbpool.setRange]
    rw [if_neg fun hin => absurd hin.1 (by omega)]
    exact hset
  have hown : Covers (pageVaddr (a + n), n) a := (covers_iff (by omega) (by omega)).2 (by omega)
  exact ((hfreed _ _ rfl a (by omega)).1 hkept).2 hown

/-- The last page of the region cannot be mapped. -/
theorem Stacked.not_handledRight_last (h : s.Stacked k) (hn : 0 < n)
    (hkn : k + n = processMmapLimitSizeNpages)
    (halloc : s.pageStatus.alloc n = (some k, s.pageStatus.setRange k (k + n) true)) :
    ¬s.HandledRight (.mmap n) := by
  rintro ⟨s', hs', _⟩
  have hfilled : MMap.Filled k { s with pageStatus := s.pageStatus.setRange k (k + n) true } :=
    ⟨h.filled.size, h.filled.status, h.filled.window⟩
  simp only [mmapStep, mmapAnon, if_neg (Nat.ne_of_gt hn), halloc,
    hfilled.fillLoop_last hn hkn] at hs'
  cases hs'

/-- In a state in which the first pages are in use, a call is handled rightly if and only if it is
fine, and keeps the state like that. -/
theorem Stacked.call {e : MmapEvent} (h : s.Stacked k) (hallowed : s.Allowed e) :
    (s.HandledRight e ↔ s.Fine e) ∧
      (s.Fine e → ∀ s', mmapStep s e = .ok s' → ∃ k', s'.Stacked k') := by
  cases e with
  | munmap vaddr n => exact ⟨iff_of_false (h.not_handledRight_munmap hallowed) id, False.elim⟩
  | mmap n =>
      have hk := h.lt
      rw [Fine, h.total]
      obtain rfl | hn := Nat.eq_zero_or_pos n
      · -- nothing happens
        have hstep : mmapStep s (.mmap 0) = .ok s := by
          simp [mmapStep, mmapAnon, Except.map]
        refine ⟨iff_of_true ⟨s, hstep, h.right, ?_⟩ hk, fun _ s' hs' => ⟨k, ?_⟩⟩
        · intro vaddr npages heq
          cases heq
        · rw [hstep] at hs'
          exact Except.ok.inj hs' ▸ h
      · obtain ⟨sta, hsta⟩ := Option.isSome_iff_exists.1 (hallowed.resolve_left (Nat.ne_of_gt hn))
        obtain ⟨rfl, _, hle, hp⟩ := h.alloc (Prod.ext hsta rfl)
        have halloc : s.pageStatus.alloc n =
            (some sta, s.pageStatus.setRange sta (sta + n) true) := Prod.ext hsta hp
        obtain hkn | hkn := Nat.lt_or_eq_of_le hle
        · obtain ⟨s', hs', h'⟩ := h.mmap hn hkn halloc
          refine ⟨iff_of_true ⟨s', hs', h'.right, ?_⟩ hkn, fun _ s'' hs'' => ⟨sta + n, ?_⟩⟩
          · intro vaddr npages heq
            cases heq
          · rw [hs'] at hs''
            exact Except.ok.inj hs'' ▸ h'
        · refine ⟨iff_of_false (h.not_handledRight_last hn hkn halloc) (by omega), fun hlt => ?_⟩
          omega

end MMap

/-- **Anonymous mappings.** In every state that a run of calls leads to, none of which unmaps
anything or fills the region, the mappings lie apart from each other in the region, the bitmap is
that of their pages, and each page is in a segment with a window. And a further call is handled
rightly if and only if it is not a `munmap` and leaves a page of the region free. -/
theorem mmap_regions (evs : List MmapEvent) (s : MMap)
    (hrun : Run mmapStep (fun t e => t.Allowed e ∧ t.Fine e) mmapInit evs s) :
    s.Right ∧ ∀ e, s.Allowed e → (s.HandledRight e ↔ s.Fine e) := by
  have hstacked : ∃ k, s.Stacked k := by
    refine hrun.invariant (I := fun t => ∃ k, t.Stacked k) ⟨0, .init⟩ ?_
    rintro t e u ⟨k, h⟩ ⟨hallowed, hfine⟩ hu
    exact (h.call hallowed).2 hfine u hu
  obtain ⟨k, h⟩ := hstacked
  exact ⟨h.right, fun e hallowed => (h.call hallowed).1⟩

/-- Two mappings, of one page and of 200. -/
theorem mmap_regions_two :
    ∃ s, Run mmapStep (fun t e => t.Allowed e ∧ t.Fine e) mmapInit [.mmap 1, .mmap 200] s ∧
      s.live = [(pageVaddr 1, 1), (pageVaddr 201, 200)] ∧ s.Right := by
  obtain ⟨s, hrun, hlive⟩ : ∃ s, Run mmapStep (fun t e => t.Allowed e ∧ t.Fine e) mmapInit
      [.mmap 1, .mmap 200] s ∧ s.live = [(pageVaddr 1, 1), (pageVaddr 201, 200)] := by
    apply Run.exists_of_exec
    decide +kernel
  exact ⟨s, hrun, hlive, (mmap_regions _ s hrun).1⟩

/-- Two mappings of one page each, of which the first is unmapped: its page stays in use, that of
the second mapping is freed, and the window with it is deleted. -/
theorem munmap_frees_another :
    ∃ s, Run mmapStep (fun t e => t.Allowed e) mmapInit
        [.mmap 1, .mmap 1, .munmap (pageVaddr 1) 1] s ∧
      s.live = [(pageVaddr 2, 1)] ∧ s.pageStatus.bitmap 0 = true ∧
      s.pageStatus.bitmap 1 = false ∧ s.windows = [] ∧ ¬s.Right := by
  obtain ⟨s, hrun, hlive, hfirst, hsecond, hwindows⟩ : ∃ s,
      Run mmapStep (fun t e => t.Allowed e) mmapInit
        [.mmap 1, .mmap 1, .munmap (pageVaddr 1) 1] s ∧
      s.live = [(pageVaddr 2, 1)] ∧ s.pageStatus.bitmap 0 = true ∧
      s.pageStatus.bitmap 1 = false ∧ s.windows = [] := by
    apply Run.exists_of_exec
    decide +kernel
  refine ⟨s, hrun, hlive, hfirst, hsecond, hwindows, fun hright => ?_⟩
  have hcovers : Covers (pageVaddr (1 + 1), 1) 1 :=
    (covers_iff (by decide) (by decide)).2 (by decide)
  have hmem : (pageVaddr (1 + 1), 1) ∈ s.live := by
    rw [hlive]
    exact List.mem_cons_self
  have hset := (hright.bitmap 1 (by decide)).2 ⟨_, hmem, hcovers⟩
  rw [hsecond] at hset
  cases hset

end PartitionSeL4.Refos
