import Mathlib.Data.List.Pairwise
import Mathlib.Order.CompletePartialOrder
import Mathlib.Order.Interval.Set.Disjoint

/-!
# Arenas with two ends

A region of an ordered address space is used from both ends: an area at its bottom grows and shrinks
up to a mark `low`, and blocks are cut off its top, down to a mark `high`. As long as `low` stays
below `high`, neither runs into the other (`Arena.Ok`): a block is cut off between the two marks, so
that it lies below all the blocks there were and above the area at the bottom.
-/

namespace Lib

/-- The marks, and the blocks in the order in which they were cut off: where each begins and where
it ends. -/
structure Arena (α : Type*) where
  low : α
  high : α
  blocks : List (α × α)

namespace Arena

variable {α : Type*} [LinearOrder α]

/-- The marks are in order in the region from `start` to `stop`, and the blocks are above them, each
below those before it. -/
structure Ok (start stop : α) (a : Arena α) : Prop where
  start_le : start ≤ a.low
  low_le : a.low ≤ a.high
  le_stop : a.high ≤ stop
  above : ∀ b ∈ a.blocks, a.high ≤ b.1 ∧ b.2 ≤ stop
  order : a.blocks.Pairwise fun b c => c.2 ≤ b.1

namespace Ok

variable {start stop x : α} {a : Arena α}

theorem init (h : start ≤ stop) : (⟨start, stop, []⟩ : Arena α).Ok start stop where
  start_le := le_refl start
  low_le := h
  le_stop := le_refl stop
  above _ hb := nomatch hb
  order := .nil

theorem setLow (h : a.Ok start stop) (hstart : start ≤ x) (hhigh : x ≤ a.high) :
    ({ a with low := x } : Arena α).Ok start stop :=
  ⟨hstart, hhigh, h.le_stop, h.above, h.order⟩

theorem carve (h : a.Ok start stop) (hlow : a.low ≤ x) (hhigh : x ≤ a.high) :
    (⟨a.low, x, a.blocks ++ [(x, a.high)]⟩ : Arena α).Ok start stop := by
  refine ⟨h.start_le, hlow, hhigh.trans h.le_stop, fun b hb => ?_, ?_⟩
  · rcases List.mem_append.1 hb with hb | hb
    · exact ⟨hhigh.trans (h.above b hb).1, (h.above b hb).2⟩
    · obtain rfl := List.mem_singleton.1 hb
      exact ⟨le_refl x, h.le_stop⟩
  · rw [List.pairwise_append]
    refine ⟨h.order, List.pairwise_singleton _ _, fun b hb c hc => ?_⟩
    obtain rfl := List.mem_singleton.1 hc
    exact (h.above b hb).1

theorem inside (h : a.Ok start stop) {b : α × α} (hb : b ∈ a.blocks) :
    start ≤ b.1 ∧ b.2 ≤ stop :=
  ⟨h.start_le.trans (h.low_le.trans (h.above b hb).1), (h.above b hb).2⟩

theorem disjoint (h : a.Ok start stop) :
    a.blocks.Pairwise fun b c => Disjoint (Set.Ico b.1 b.2) (Set.Ico c.1 c.2) := by
  refine h.order.imp fun hle => ?_
  rw [Set.Ico_disjoint_Ico]
  exact (min_le_right _ _).trans (hle.trans (le_max_left _ _))

theorem disjoint_low (h : a.Ok start stop) {b : α × α} (hb : b ∈ a.blocks) :
    Disjoint (Set.Ico start a.low) (Set.Ico b.1 b.2) := by
  have hle := h.low_le.trans (h.above b hb).1
  rw [Set.Ico_disjoint_Ico]
  exact (min_le_left _ _).trans (hle.trans (le_max_right _ _))

end Ok

end Arena

end Lib
