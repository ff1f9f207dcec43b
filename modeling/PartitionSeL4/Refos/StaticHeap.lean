import PartitionSeL4.Refos.Dataspace
import PartitionSeL4.Lib.Arena
import PartitionSeL4.Lib.Run

/-!
# The static heap

Servers that have no heap of their own yet give `refosio_setup_morecore_override` a region. In this
mode `sys_brk` moves the break at its bottom, and `sys_mmap2` takes blocks from its top: the region
is an arena (`Arena.Ok`), as long as the new top is computed without a wrap. `sys_mmap2` compares it
with the break only, and a difference that has wrapped around is above the break. So a length above
the top, which cannot be had, is always had.

`static_heap_iff` says that this is all that can go wrong. An assertion that fails is a refusal
here: nothing changes.
-/

namespace PartitionSeL4.Refos

open Lib

/-! ## `morecore.c` and `sys_morecore.c` -/

/-- The fields of `refosIOState` for the static heap. -/
structure StaticMoreCore where
  staticMoreCoreOverride : Nat
  staticMoreCoreOverrideBase : Nat
  staticMoreCoreOverrideTop : Nat
  deriving DecidableEq, Repr

/-- `refosio_setup_morecore_override` -/
def refosioSetupMorecoreOverride (mcRegion mcRegionSize : Nat) : StaticMoreCore :=
  if mcRegion = 0 then ⟨0, 0, 0⟩ else ⟨mcRegion, mcRegion, u32 (mcRegion + mcRegionSize)⟩

/-- `sys_brk` with a static heap: what it returns, or the assertion. -/
def sysBrk (s : StaticMoreCore) (newbrk : Nat) : Option (Nat × StaticMoreCore) :=
  if newbrk = 0 then some (s.staticMoreCoreOverrideBase, s)
  else if newbrk < s.staticMoreCoreOverrideTop ∧ s.staticMoreCoreOverride < newbrk then
    some (newbrk, { s with staticMoreCoreOverrideBase := newbrk })
  else none

/-- `sys_mmap2` with a static heap; `anonymous` is `flags & MAP_ANONYMOUS`. -/
def sysMmap2 (s : StaticMoreCore) (length : Nat) (anonymous : Bool) :
    Option (Nat × StaticMoreCore) :=
  if anonymous then
    let base := u32 (s.staticMoreCoreOverrideTop + 2 ^ 32 - length)
    if base < s.staticMoreCoreOverrideBase then none
    else some (base, { s with staticMoreCoreOverrideTop := base })
  else none

/-! ## Runs -/

/-- The static heap and the blocks that `sys_mmap2` has returned: where each begins, and where it
ends for the caller. -/
structure StaticHeap where
  io : StaticMoreCore
  blocks : List (Nat × Nat)
  deriving DecidableEq, Repr

inductive HeapEvent where
  | brk (newbrk : Nat)
  | mmap2 (length : Nat) (anonymous : Bool)
  deriving DecidableEq, Repr

/-- One call; one that is refused changes nothing. -/
def heapStep (x : StaticHeap) : HeapEvent → Except Failure StaticHeap
  | .brk newbrk =>
      match sysBrk x.io newbrk with
      | none => .ok x
      | some (_, io) => .ok { x with io := io }
  | .mmap2 length anonymous =>
      match sysMmap2 x.io length anonymous with
      | none => .ok x
      | some (base, io) => .ok ⟨io, x.blocks ++ [(base, base + length)]⟩

/-- The arguments are machine words. -/
def HeapEvent.Word (_ : StaticHeap) : HeapEvent → Prop
  | .brk newbrk => newbrk < 2 ^ 32
  | .mmap2 length _ => length < 2 ^ 32

instance (x : StaticHeap) : (e : HeapEvent) → Decidable (e.Word x)
  | .brk newbrk => inferInstanceAs (Decidable (newbrk < 2 ^ 32))
  | .mmap2 length _ => inferInstanceAs (Decidable (length < 2 ^ 32))

/-- The static heap after `refosio_setup_morecore_override`. -/
def staticHeap (mcRegion mcRegionSize : Nat) : StaticHeap :=
  ⟨refosioSetupMorecoreOverride mcRegion mcRegionSize, []⟩

/-! ## The property and the condition -/

/-- The break and the top are in order in the region, the blocks lie in the region and do not
overlap each other or what is below the break. -/
structure StaticHeap.Right (start stop : Nat) (x : StaticHeap) : Prop where
  bounds : start ≤ x.io.staticMoreCoreOverrideBase ∧
    x.io.staticMoreCoreOverrideBase ≤ x.io.staticMoreCoreOverrideTop ∧
    x.io.staticMoreCoreOverrideTop ≤ stop
  inside : ∀ b ∈ x.blocks, start ≤ b.1 ∧ b.2 ≤ stop
  apart : x.blocks.Pairwise fun b c => Disjoint (Set.Ico b.1 b.2) (Set.Ico c.1 c.2)
  free : ∀ b ∈ x.blocks,
    Disjoint (Set.Ico start x.io.staticMoreCoreOverrideBase) (Set.Ico b.1 b.2)

/-- A block that is asked for is not longer than the top is high. -/
def HeapEvent.Fits (x : StaticHeap) : HeapEvent → Prop
  | .brk _ => True
  | .mmap2 length anonymous => anonymous = true → length ≤ x.io.staticMoreCoreOverrideTop

/-! ## The heap as an arena -/

/-- The arena of a static heap. -/
def StaticHeap.arena (x : StaticHeap) : Arena Nat :=
  ⟨x.io.staticMoreCoreOverrideBase, x.io.staticMoreCoreOverrideTop, x.blocks⟩

/-- The region is the one that was given, and it is an arena. -/
structure StaticHeap.Ok (start stop : Nat) (x : StaticHeap) : Prop where
  override : x.io.staticMoreCoreOverride = start
  arena : x.arena.Ok start stop

namespace StaticHeap.Ok

variable {start stop : Nat} {x y : StaticHeap}

theorem init {mcRegion mcRegionSize : Nat} (hstart : 0 < mcRegion)
    (hstop : mcRegion + mcRegionSize < 2 ^ 32) :
    (staticHeap mcRegion mcRegionSize).Ok mcRegion (mcRegion + mcRegionSize) := by
  have heq : staticHeap mcRegion mcRegionSize =
      ⟨⟨mcRegion, mcRegion, mcRegion + mcRegionSize⟩, []⟩ := by
    rw [staticHeap, refosioSetupMorecoreOverride, if_neg (Nat.ne_of_gt hstart), u32_of_lt hstop]
  rw [heq]
  exact ⟨rfl, .init (Nat.le_add_right _ _)⟩

theorem right (h : x.Ok start stop) : x.Right start stop where
  bounds := ⟨h.arena.start_le, h.arena.low_le, h.arena.le_stop⟩
  inside _ hb := h.arena.inside hb
  apart := h.arena.disjoint
  free _ hb := h.arena.disjoint_low hb

theorem brk (h : x.Ok start stop) {newbrk : Nat} (hstep : heapStep x (.brk newbrk) = .ok y) :
    y.Ok start stop := by
  rw [heapStep, sysBrk] at hstep
  split_ifs at hstep with hzero hrange
  · exact Except.ok.inj hstep ▸ h
  · obtain rfl := Except.ok.inj hstep
    rw [h.override] at hrange
    exact ⟨h.override, h.arena.setLow (Nat.le_of_lt hrange.2) (Nat.le_of_lt hrange.1)⟩
  · exact Except.ok.inj hstep ▸ h

/-- A block that is not longer than the top is high is cut off the top, or refused. -/
theorem mmap2 (h : x.Ok start stop) (hstop : stop < 2 ^ 32) {length : Nat} {anonymous : Bool}
    (hfits : anonymous = true → length ≤ x.io.staticMoreCoreOverrideTop)
    (hstep : heapStep x (.mmap2 length anonymous) = .ok y) : y.Ok start stop := by
  have htop : x.io.staticMoreCoreOverrideTop < 2 ^ 32 :=
    Nat.lt_of_le_of_lt h.arena.le_stop hstop
  rw [heapStep, sysMmap2] at hstep
  cases anonymous with
  | false => exact Except.ok.inj hstep ▸ h
  | true =>
      have hle := hfits rfl
      rw [if_pos rfl, u32_sub hle htop] at hstep
      dsimp only at hstep
      split_ifs at hstep with hlow
      · exact Except.ok.inj hstep ▸ h
      · obtain rfl := Except.ok.inj hstep
        rw [Nat.sub_add_cancel hle]
        exact ⟨h.override, h.arena.carve (Nat.le_of_not_lt hlow) (Nat.sub_le _ _)⟩

/-- A longer one is had, and ends outside the region. -/
theorem mmap2_wrapped (h : x.Ok start stop) (hstop : stop < 2 ^ 32) {length : Nat}
    (hword : length < 2 ^ 32) (hlt : x.io.staticMoreCoreOverrideTop < length)
    (hstep : heapStep x (.mmap2 length true) = .ok y) : ¬y.Right start stop := by
  have hle : x.io.staticMoreCoreOverrideBase ≤ x.io.staticMoreCoreOverrideTop := h.arena.low_le
  obtain ⟨base, hbase⟩ : ∃ base, u32 (x.io.staticMoreCoreOverrideTop + 2 ^ 32 - length) = base :=
    ⟨_, rfl⟩
  have hend : base + length = x.io.staticMoreCoreOverrideTop + 2 ^ 32 := by
    rw [u32_of_lt (by omega)] at hbase
    omega
  rw [heapStep, sysMmap2, if_pos rfl, hbase] at hstep
  dsimp only at hstep
  rw [if_neg (by omega)] at hstep
  obtain rfl := Except.ok.inj hstep
  intro hright
  have hinside : base + length ≤ stop :=
    (hright.inside _ (List.mem_append_right _ (List.mem_singleton_self _))).2
  omega

/-- A call keeps the property if and only if it fits, and then the heap is an arena as before. -/
theorem step (h : x.Ok start stop) (hstop : stop < 2 ^ 32) {e : HeapEvent} (hword : e.Word x)
    (hstep : heapStep x e = .ok y) :
    (y.Right start stop ↔ e.Fits x) ∧ (y.Right start stop → y.Ok start stop) := by
  cases e with
  | brk newbrk =>
      have hok := h.brk hstep
      exact ⟨iff_of_true hok.right trivial, fun _ => hok⟩
  | mmap2 length anonymous =>
      by_cases hfits : anonymous = true → length ≤ x.io.staticMoreCoreOverrideTop
      · have hok := h.mmap2 hstop hfits hstep
        exact ⟨iff_of_true hok.right hfits, fun _ => hok⟩
      · have hnot : ¬y.Right start stop := by
          push Not at hfits
          obtain ⟨rfl, hlt⟩ := hfits
          exact h.mmap2_wrapped hstop hword hlt hstep
        exact ⟨iff_of_false hnot hfits, fun hright => absurd hright hnot⟩

end StaticHeap.Ok

/-- **The static heap.** For every region, and every run of `sys_brk` and `sys_mmap2` on it: in all
states break and top are in order, and the blocks lie in the region, apart from each other and from
what is below the break, if and only if no block is ever asked for that is longer than the top is
high. -/
theorem static_heap_iff (mcRegion mcRegionSize : Nat) (evs : List HeapEvent) (x : StaticHeap)
    (hstart : 0 < mcRegion) (hstop : mcRegion + mcRegionSize < 2 ^ 32)
    (hrun : Run heapStep (fun x e => e.Word x) (staticHeap mcRegion mcRegionSize) evs x) :
    ((staticHeap mcRegion mcRegionSize).Right mcRegion (mcRegion + mcRegionSize) ∧
      Steps heapStep (fun _ _ y => y.Right mcRegion (mcRegion + mcRegionSize)) evs
        (staticHeap mcRegion mcRegionSize)) ↔
      Steps heapStep (fun x e _ => e.Fits x) evs (staticHeap mcRegion mcRegionSize) := by
  have hinit := StaticHeap.Ok.init hstart hstop
  rw [and_iff_right hinit.right]
  refine hrun.steps_congr hinit (fun x e y h hword hy hright => ?_) fun x e y h hword hy => ?_
  · exact (h.step hstop hword hy).2 hright
  · exact (h.step hstop hword hy).1

/-- A region of a page, in which the break is moved to and fro and three blocks are taken, one of
them too long; in the end the break is refused to go where the blocks are. -/
theorem static_heap_iff_page :
    ∃ x, Run heapStep (fun x e => e.Word x) (staticHeap 65536 4096)
        [.brk 0, .brk 66000, .mmap2 1000 true, .mmap2 60000 true, .brk 65600, .mmap2 500 true,
          .brk 69000] x ∧
      x.blocks = [(68632, 69632), (68132, 68632)] ∧
      (((staticHeap 65536 4096).Right 65536 (65536 + 4096) ∧
        Steps heapStep (fun _ _ y => y.Right 65536 (65536 + 4096))
          [.brk 0, .brk 66000, .mmap2 1000 true, .mmap2 60000 true, .brk 65600, .mmap2 500 true,
            .brk 69000] (staticHeap 65536 4096)) ↔
        Steps heapStep (fun x e _ => e.Fits x)
          [.brk 0, .brk 66000, .mmap2 1000 true, .mmap2 60000 true, .brk 65600, .mmap2 500 true,
            .brk 69000] (staticHeap 65536 4096)) := by
  obtain ⟨x, hrun, hblocks⟩ : ∃ x, Run heapStep (fun x e => e.Word x) (staticHeap 65536 4096)
      [.brk 0, .brk 66000, .mmap2 1000 true, .mmap2 60000 true, .brk 65600, .mmap2 500 true,
        .brk 69000] x ∧ x.blocks = [(68632, 69632), (68132, 68632)] := by
    apply Run.exists_of_exec
    decide +kernel
  exact ⟨x, hrun, hblocks, static_heap_iff 65536 4096 _ x (by decide) (by decide) hrun⟩

/-- The longest block there is, from a region of a page: it begins behind the region, and so does
the top from then on. -/
theorem mmap2_wraps :
    heapStep (staticHeap 65536 4096) (.mmap2 (2 ^ 32 - 1) true) =
        .ok ⟨⟨65536, 65536, 69633⟩, [(69633, 69633 + (2 ^ 32 - 1))]⟩ ∧
      ¬(⟨⟨65536, 65536, 69633⟩, [(69633, 69633 + (2 ^ 32 - 1))]⟩ : StaticHeap).Right 65536
        (65536 + 4096) := by
  refine ⟨by decide +kernel, fun hright => ?_⟩
  have htop := hright.bounds.2.2
  revert htop
  decide

end PartitionSeL4.Refos
