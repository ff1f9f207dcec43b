import PartitionSeL4.Refos.DataStruct
import PartitionSeL4.Lib.Run

/-!
# Ranges of a bitmap

`cbpool_alloc` and `cbpool_free` hand out and take back ranges of positions. Where a range ends at
the end of the bitmap, `cbpool_free` moves its end to the last position and frees what comes before
it: that position stays allocated. The callers of `walloc_free` and `munmap` lose their last page
this way.

`ranges_right_iff`: in every run, the allocator does what it should from the first call to the last
if and only if no range is freed that ends at the end of the bitmap. A range that was freed before
may be freed again, unless it meets a range that has been allocated since. A bitmap of `2^31`
positions or more, whose size is negative as an `int`, has nothing to hand out.

A run is paired with the ranges allocated and not freed, and with all that were ever returned.
-/

namespace PartitionSeL4.Refos

open Lib

/-! ## Calls and ranges -/

/-- A position of the range of `r.2` positions from `r.1` on. -/
def Spans (r : Nat × Nat) (j : Nat) : Prop := r.1 ≤ j ∧ j < r.1 + r.2

instance (r : Nat × Nat) (j : Nat) : Decidable (Spans r j) := inferInstanceAs (Decidable (_ ∧ _))

/-- A bitmap, the ranges allocated and the ranges returned so far. -/
structure RangePool where
  pool : Cbpool
  held : List (Nat × Nat)
  returned : List (Nat × Nat)

inductive RangeEvent where
  | alloc (size : Nat)
  | free (obj size : Nat)
  deriving DecidableEq, Repr

/-- `cbpool_init` -/
def rangeInit (size : Nat) : RangePool where
  pool := .init size
  held := []
  returned := []

/-- One call. -/
def rangeStep (x : RangePool) : RangeEvent → Except Failure RangePool
  | .alloc size =>
      match x.pool.alloc size with
      | (none, pool) => .ok { x with pool := pool }
      | (some sta, pool) => .ok
          { pool := pool, held := (sta, size) :: x.held, returned := (sta, size) :: x.returned }
  | .free obj size => .ok
      { x with pool := x.pool.free obj size, held := x.held.erase (obj, size) }

/-- Sizes are words, and only ranges are freed that have been returned. -/
def RangePool.Admits (x : RangePool) : RangeEvent → Prop
  | .alloc size => size < 2 ^ 32
  | .free obj size => (obj, size) ∈ x.returned

instance (x : RangePool) : (e : RangeEvent) → Decidable (x.Admits e)
  | .alloc size => inferInstanceAs (Decidable (size < 2 ^ 32))
  | .free obj size => inferInstanceAs (Decidable ((obj, size) ∈ x.returned))

/-! ## The property and the condition -/

/-- Positions of the bitmap none of which is allocated. -/
def RangePool.Free (x : RangePool) (sta size : Nat) : Prop :=
  sta + size ≤ x.pool.size ∧ ∀ j, Spans (sta, size) j → ∀ r ∈ x.held, ¬Spans r j

/-- The ranges allocated do not meet, they lie in the bitmap, and its bits are theirs. -/
structure RangesRight (x : RangePool) : Prop where
  once : x.held.Nodup
  disjoint : ∀ r ∈ x.held, ∀ r' ∈ x.held, ∀ j, Spans r j → Spans r' j → r = r'
  inside : ∀ r ∈ x.held, r.1 + r.2 ≤ x.pool.size
  bitmap : ∀ j, x.pool.bitmap j = true ↔ ∃ r ∈ x.held, Spans r j

/-- An allocation returns the lowest start of so many free positions, and fails where there is none;
the positions that are freed are free afterwards. -/
def RangePool.CallRight (x y : RangePool) : RangeEvent → Prop
  | .alloc size => 0 < size →
      match (x.pool.alloc size).1 with
      | some sta => x.Free sta size ∧ ∀ a < sta, ¬x.Free a size
      | none => ∀ a, ¬x.Free a size
  | .free obj size => ∀ j, Spans (obj, size) j → y.pool.bitmap j = false

/-- A range that is allocated is not freed if it ends at the end of the bitmap, and one that is not
allocated any more is not freed if it meets one that is; and the size of the bitmap is not negative
as an `int`, or the request is longer than the bitmap. -/
def RangePool.SparesLast (x : RangePool) : RangeEvent → Prop
  | .alloc size => x.pool.size < 2 ^ 31 ∨ size = 0 ∨ x.pool.size < size
  | .free obj size =>
      if (obj, size) ∈ x.held then obj + size < x.pool.size
      else ∀ r ∈ x.held, ∀ j, Spans (obj, size) j → ¬Spans r j

/-! ## The invariant -/

/-- What the calls keep as long as all is right. -/
structure RangesOk (x : RangePool) : Prop where
  right : RangesRight x
  size_lt : x.pool.size < 2 ^ 32
  returned : ∀ r ∈ x.returned, 0 < r.2 ∧ r.1 + r.2 ≤ x.pool.size ∧
    (r ∈ x.held ∨ r.1 + r.2 < x.pool.size)
  large : 2 ^ 31 ≤ x.pool.size → x.held = []

namespace RangesOk

variable {x y : RangePool} {obj size : Nat}

theorem init (h : size < 2 ^ 32) : RangesOk (rangeInit size) where
  right := ⟨List.nodup_nil, by simp [rangeInit], by simp [rangeInit],
    by simp [rangeInit, Cbpool.init]⟩
  size_lt := h
  returned r hr := by cases hr
  large _ := rfl

/-- A run of the bitmap that is interrupted is not free. -/
theorem not_free_of_interrupted (h : RangesOk x) {a : Nat} (ha : x.pool.Interrupted size a) :
    ¬x.Free a size := by
  rintro ⟨_, hfree⟩
  obtain ⟨j, hle, hlt, hset⟩ := ha
  obtain ⟨r, hr, hcovers⟩ := (h.right.bitmap j).1 hset
  exact hfree j ⟨hle, hlt⟩ r hr hcovers

theorem push (h : RangesOk x) (hsmall : x.pool.size < 2 ^ 31) (hpos : 0 < size)
    (hfree : x.Free obj size) :
    RangesOk { pool := x.pool.setRange obj (obj + size) true
               held := (obj, size) :: x.held
               returned := (obj, size) :: x.returned } := by
  obtain ⟨hle, hfree⟩ := hfree
  have hfirst : Spans (obj, size) obj := ⟨Nat.le_refl _, Nat.lt_add_of_pos_right hpos⟩
  refine ⟨⟨?_, ?_, ?_, fun j => ?_⟩, h.size_lt, ?_, fun hlarge => ?_⟩
  · exact List.nodup_cons.2 ⟨fun hmem => hfree obj hfirst _ hmem hfirst, h.right.once⟩
  · intro r hr r' hr' j hj hj'
    rcases List.mem_cons.1 hr with rfl | hr <;> rcases List.mem_cons.1 hr' with rfl | hr'
    · rfl
    · exact absurd hj' (hfree j hj r' hr')
    · exact absurd hj (hfree j hj' r hr)
    · exact h.right.disjoint r hr r' hr' j hj hj'
  · intro r hr
    rcases List.mem_cons.1 hr with rfl | hr
    · exact hle
    · exact h.right.inside r hr
  · show (if Spans (obj, size) j then true else x.pool.bitmap j) = true ↔ _
    rw [List.exists_mem_cons_iff, ← h.right.bitmap]
    by_cases hj : Spans (obj, size) j <;> simp [hj]
  · intro r hr
    rcases List.mem_cons.1 hr with rfl | hr
    · exact ⟨hpos, hle, Or.inl (by simp)⟩
    · obtain ⟨hrpos, hrle, hor⟩ := h.returned r hr
      exact ⟨hrpos, hrle, hor.imp_left fun hmem => List.mem_cons_of_mem _ hmem⟩
  · exact absurd hsmall (Nat.not_lt.2 hlarge)

theorem alloc (h : RangesOk x) (hsmall : x.pool.size < 2 ^ 31)
    (hy : rangeStep x (.alloc size) = .ok y) : x.CallRight y (.alloc size) ∧ RangesOk y := by
  have hstop : x.pool.searchStop = x.pool.size := if_pos hsmall
  rw [rangeStep] at hy
  simp only [RangePool.CallRight]
  cases halloc : x.pool.alloc size with
  | mk new pool =>
      rw [halloc] at hy
      cases new with
      | none =>
          obtain rfl := Except.ok.inj hy
          obtain ⟨rfl, hnone⟩ := Cbpool.alloc_none halloc
          refine ⟨fun hpos a hfree => ?_, h⟩
          exact h.not_free_of_interrupted (hnone hpos a (hstop ▸ hfree.1)) hfree
      | some sta =>
          obtain rfl := Except.ok.inj hy
          obtain ⟨hpos, hclear, hle, _, rfl⟩ := Cbpool.alloc_spec halloc
          have hfree : x.Free sta size := by
            refine ⟨hle, fun j hj r hr hcovers => ?_⟩
            have hset := (h.right.bitmap j).2 ⟨r, hr, hcovers⟩
            rw [hclear j hj.1 hj.2] at hset
            cases hset
          exact ⟨fun _ => ⟨hfree, fun a ha =>
            h.not_free_of_interrupted (Cbpool.alloc_least halloc a ha)⟩, h.push hsmall hpos hfree⟩

/-- A bitmap whose size is negative as an `int` hands out nothing. -/
theorem alloc_large (h : RangesOk x) (hlarge : 2 ^ 31 ≤ x.pool.size)
    (hy : rangeStep x (.alloc size) = .ok y) :
    (x.CallRight y (.alloc size) ↔ size = 0 ∨ x.pool.size < size) ∧ RangesOk y := by
  have halloc : x.pool.alloc size = (none, x.pool) := by
    rw [Cbpool.alloc, Cbpool.searchStop, if_neg (Nat.not_lt.2 hlarge)]
    split_ifs <;> rfl
  rw [rangeStep, halloc] at hy
  obtain rfl := Except.ok.inj hy
  refine ⟨?_, h⟩
  simp only [RangePool.CallRight, halloc, RangePool.Free, h.large hlarge]
  constructor
  · intro hright
    by_contra hcond
    exact hright (by omega) 0 ⟨by omega, by simp⟩
  · rintro (hzero | hlt) hpos a ⟨hle, _⟩
    · omega
    · omega

theorem free_bitmap (h : RangesOk x) (hpos : 0 < size) (hle : obj + size ≤ x.pool.size) (j : Nat) :
    (x.pool.free obj size).bitmap j =
      if Spans (obj, size) j ∧ j ≠ x.pool.size - 1 then false else x.pool.bitmap j := by
  have hsize := h.size_lt
  rw [Cbpool.free, if_neg (Nat.ne_of_gt hpos), u32_of_lt (by omega)]
  simp only [Cbpool.setRange, Spans]
  congr 1
  simp only [eq_iff_iff]
  split_ifs <;> omega

/-- Freeing a range in front of the last position that meets no other. -/
theorem free (h : RangesOk x) (hreturned : (obj, size) ∈ x.returned)
    (hlt : obj + size < x.pool.size)
    (hothers : ∀ r ∈ x.held, r ≠ (obj, size) → ∀ j, Spans (obj, size) j → ¬Spans r j)
    (hy : rangeStep x (.free obj size) = .ok y) :
    x.CallRight y (.free obj size) ∧ RangesOk y := by
  obtain ⟨hpos, hle, _⟩ := h.returned _ hreturned
  obtain rfl := Except.ok.inj hy
  have hbitmap : ∀ j, (x.pool.free obj size).bitmap j =
      if Spans (obj, size) j then false else x.pool.bitmap j := by
    intro j
    rw [h.free_bitmap hpos hle]
    congr 1
    exact propext (and_iff_left_of_imp fun hj => by have := hj.2; omega)
  have hmem : ∀ r, r ∈ x.held.erase (obj, size) ↔ r ≠ (obj, size) ∧ r ∈ x.held :=
    fun r => h.right.once.mem_erase_iff
  refine ⟨fun j hj => ?_, ⟨h.right.once.erase _, ?_, ?_, fun j => ?_⟩, ?_, ?_, ?_⟩
  · rw [hbitmap, if_pos hj]
  · intro r hr r' hr'
    exact h.right.disjoint r ((hmem r).1 hr).2 r' ((hmem r').1 hr').2
  · intro r hr
    rw [Cbpool.free_size]
    exact h.right.inside r ((hmem r).1 hr).2
  · rw [hbitmap]
    split_ifs with hj
    · refine iff_of_false (by simp) ?_
      rintro ⟨r, hr, hcovers⟩
      exact hothers r ((hmem r).1 hr).2 ((hmem r).1 hr).1 j hj hcovers
    · rw [h.right.bitmap]
      refine exists_congr fun r => ?_
      rw [hmem]
      constructor
      · rintro ⟨hr, hcovers⟩
        exact ⟨⟨fun heq => hj (heq ▸ hcovers), hr⟩, hcovers⟩
      · rintro ⟨⟨_, hr⟩, hcovers⟩
        exact ⟨hr, hcovers⟩
  · rw [Cbpool.free_size]
    exact h.size_lt
  · intro r hr
    obtain ⟨hrpos, hrle, hor⟩ := h.returned r hr
    rw [Cbpool.free_size]
    refine ⟨hrpos, hrle, ?_⟩
    by_cases heq : r = (obj, size)
    · exact Or.inr (heq ▸ hlt)
    · exact hor.imp_left fun hheld => (hmem r).2 ⟨heq, hheld⟩
  · intro hlarge
    rw [Cbpool.free_size] at hlarge
    show x.held.erase (obj, size) = []
    rw [h.large hlarge]
    rfl

theorem free_held (h : RangesOk x) (hmem : (obj, size) ∈ x.held)
    (hreturned : (obj, size) ∈ x.returned) (hy : rangeStep x (.free obj size) = .ok y)
    (hright : x.CallRight y (.free obj size)) : obj + size < x.pool.size := by
  obtain ⟨hpos, hle, _⟩ := h.returned _ hreturned
  obtain rfl := Except.ok.inj hy
  by_contra hend
  -- the last position is set before and after
  have hlast : Spans (obj, size) (x.pool.size - 1) := ⟨by omega, by omega⟩
  have hclear := hright _ hlast
  simp only [h.free_bitmap hpos hle, ne_eq, not_true_eq_false, and_false, if_false] at hclear
  rw [(h.right.bitmap _).2 ⟨_, hmem, hlast⟩] at hclear
  cases hclear

/-- Freeing a range that is not allocated any more. -/
theorem free_stale (hnot : (obj, size) ∉ x.held) (hy : rangeStep x (.free obj size) = .ok y)
    (hright : x.CallRight y (.free obj size)) (hy' : RangesRight y) :
    ∀ r ∈ x.held, ∀ j, Spans (obj, size) j → ¬Spans r j := by
  obtain rfl := Except.ok.inj hy
  intro r hr j hj hcovers
  have hclear := hright j hj
  have hset := (hy'.bitmap j).2 ⟨r, by rwa [List.erase_of_not_mem hnot], hcovers⟩
  rw [hclear] at hset
  cases hset

theorem step (h : RangesOk x) {e : RangeEvent} (hadmits : x.Admits e)
    (hy : rangeStep x e = .ok y) :
    (x.CallRight y e ∧ RangesRight y ↔ x.SparesLast e) ∧ (x.SparesLast e → RangesOk y) := by
  cases e with
  | alloc size =>
      by_cases hsmall : x.pool.size < 2 ^ 31
      · obtain ⟨hright, hok⟩ := h.alloc hsmall hy
        exact ⟨iff_of_true ⟨hright, hok.right⟩ (Or.inl hsmall), fun _ => hok⟩
      · obtain ⟨hiff, hok⟩ := h.alloc_large (Nat.not_lt.1 hsmall) hy
        rw [RangePool.SparesLast, hiff, or_iff_right hsmall]
        exact ⟨and_iff_left hok.right, fun _ => hok⟩
  | free obj size =>
      rw [RangePool.SparesLast]
      split_ifs with hmem
      · have hall : obj + size < x.pool.size → _ := fun hlt =>
          h.free hadmits hlt (fun r hr hne j hj hcovers =>
            hne (h.right.disjoint r hr _ hmem j hcovers hj)) hy
        exact ⟨⟨fun hboth => h.free_held hmem hadmits hy hboth.1, fun hlt =>
          ⟨(hall hlt).1, (hall hlt).2.right⟩⟩, fun hlt => (hall hlt).2⟩
      · have hlt := (h.returned _ hadmits).2.2.resolve_left hmem
        have hall : (∀ r ∈ x.held, ∀ j, Spans (obj, size) j → ¬Spans r j) → _ := fun hothers =>
          h.free hadmits hlt (fun r hr _ => hothers r hr) hy
        exact ⟨⟨fun hboth => free_stale hmem hy hboth.1 hboth.2, fun hothers =>
          ⟨(hall hothers).1, (hall hothers).2.right⟩⟩, fun hothers => (hall hothers).2⟩

end RangesOk

/-! ## Every run -/

/-- **When a bitmap hands out ranges as it should.** In every run of allocations and frees of
ranges that were returned, in a bitmap of any size: allocations return the lowest range that is free
and fail where there is none, freed positions are free, and the bits are those of the ranges
allocated, which do not meet, from the first call to the last, if and only if no call frees a range
up to the end of the bitmap, nor frees again what has been allocated since, nor asks for positions
of a bitmap whose size is negative as an `int`. -/
theorem ranges_right_iff {size : Nat} (hsize : size < 2 ^ 32) (evs : List RangeEvent)
    (y : RangePool) (hrun : Run rangeStep RangePool.Admits (rangeInit size) evs y) :
    Steps rangeStep (fun x e z => x.CallRight z e ∧ RangesRight z) evs (rangeInit size) ↔
      Steps rangeStep (fun x e _ => x.SparesLast e) evs (rangeInit size) := by
  refine hrun.steps_congr (I := RangesOk) (.init hsize) (fun x e z h hadmits hz hright => ?_)
    fun x e z h hadmits hz => (h.step hadmits hz).1
  obtain ⟨hiff, hok⟩ := h.step hadmits hz
  exact hok (hiff.1 hright)

/-- Two ranges in a bitmap of 40 positions; the first one is freed and allocated again. -/
theorem ranges_right_iff_twice :
    ∃ y, Run rangeStep RangePool.Admits (rangeInit 40)
        [.alloc 30, .alloc 5, .free 0 30, .free 0 30, .alloc 20] y ∧
      y.held = [(0, 20), (30, 5)] ∧
      (Steps rangeStep (fun x e z => x.CallRight z e ∧ RangesRight z)
          [.alloc 30, .alloc 5, .free 0 30, .free 0 30, .alloc 20] (rangeInit 40) ↔
        Steps rangeStep (fun x e _ => x.SparesLast e)
          [.alloc 30, .alloc 5, .free 0 30, .free 0 30, .alloc 20] (rangeInit 40)) := by
  obtain ⟨y, hrun, hheld⟩ : ∃ y, Run rangeStep RangePool.Admits (rangeInit 40)
      [.alloc 30, .alloc 5, .free 0 30, .free 0 30, .alloc 20] y ∧
        y.held = [(0, 20), (30, 5)] := by
    apply Run.exists_of_exec
    decide +kernel
  exact ⟨y, hrun, hheld, ranges_right_iff (by decide) _ y hrun⟩

/-- All three positions are allocated and freed: the last one is still set, and no more than two
positions can be allocated. -/
theorem last_position_kept :
    ∃ y, Run rangeStep RangePool.Admits (rangeInit 3) [.alloc 3, .free 0 3] y ∧
      y.held = [] ∧ y.pool.bitmap 2 = true ∧ (y.pool.alloc 3).1 = none ∧ ¬RangesRight y := by
  obtain ⟨y, hrun, hheld, hset, halloc⟩ :
      ∃ y, Run rangeStep RangePool.Admits (rangeInit 3) [.alloc 3, .free 0 3] y ∧
        y.held = [] ∧ y.pool.bitmap 2 = true ∧ (y.pool.alloc 3).1 = none := by
    apply Run.exists_of_exec
    decide +kernel
  refine ⟨y, hrun, hheld, hset, halloc, fun hright => ?_⟩
  obtain ⟨r, hr, _⟩ := (hright.bitmap 2).1 hset
  rw [hheld] at hr
  cases hr

end PartitionSeL4.Refos
