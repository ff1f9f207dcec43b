import PartitionSeL4.Refos.DataStruct
import PartitionSeL4.Refos.Dataspace
import PartitionSeL4.Lib.Run

/-!
# The frame block of the file server's pager

The file server keeps the frames that it maps for its clients in one window: `pager_init` opens an
anonymous dataspace, reserves a window with `walloc` and maps the one into the other, and
`pager_alloc_frame` and `pager_free_frame` hand out and take back the pages of the window, through
an id pool.

`frames_right`: whatever is freed, no page is handed out twice. A free is guarded three times: the
page number lies between 1 and the number of pages, the pool does not have it on its free list
(`cpool_check`), and it was handed out before (`cpool_free`). The second guard alone is wrong for
the id that is next, which the third one catches. The page numbers 0 and `frameBlockNumPages` are
never returned.

A run is paired with the calls so far. The invariant `FramesOk` ties the addresses that are out to
the live ids of the pool.
-/

namespace PartitionSeL4.Refos

open Lib

/-! ## `walloc.c` -/

/-- `walloc_state_t`, once initialised. The windows are kept by their first page. -/
structure WallocState where
  startAddr : Nat
  endAddr : Nat
  npages : Nat
  pool : Cbpool
  windowCptrMap : Nat → Option Nat

/-- `PROCESS_WALLOC_START` -/
def processWallocStart : Nat := 0xC0001000

/-- `PROCESS_WALLOC_END` -/
def processWallocEnd : Nat := 0xD0000000

/-- `walloc_list_init` -/
def wallocListInit (startAddr endAddr : Nat) : Except Failure WallocState :=
  let sz := u32 (endAddr + 2 ^ 32 - startAddr)
  if startAddr % pageSize ≠ 0 then .error .assertion
  else if sz % pageSize ≠ 0 then .error .assertion
  else .ok
    { startAddr := startAddr
      endAddr := endAddr
      npages := sz / pageSize
      pool := .init (sz / pageSize)
      windowCptrMap := fun _ => none }

/-- `walloc_list_ext`, with the window that `proc_create_mem_window_ext` returns, 0 if it fails: the
address of the region, the window, and the allocator. -/
def wallocListExt (ws : WallocState) (npages windowCap : Nat) :
    Except Failure (Nat × Nat × WallocState) :=
  if npages = 0 then .ok (0, 0, ws)
  else
    match ws.pool.alloc npages with
    | (none, _) => .ok (0, 0, ws)
    | (some startPage, pool) =>
        if ws.npages ≤ startPage then .error .assertion
        else
          let regionAddr := u32 (ws.startAddr + startPage * pageSize)
          if regionAddr % pageSize ≠ 0 then .error .assertion
          else if windowCap = 0 then .error .assertion
          else .ok (regionAddr, windowCap,
            { ws with
              pool := pool
              windowCptrMap := Function.update ws.windowCptrMap startPage (some windowCap) })

/-- `walloc_list_get_start_page` -/
def wallocListGetStartPage (ws : WallocState) (vaddr : Nat) : Except Failure Nat :=
  if vaddr < ws.startAddr ∨ ws.endAddr < vaddr then .error .assertion
  else
    let startPage := (vaddr - ws.startAddr) / pageSize
    if ws.npages ≤ startPage then .error .assertion else .ok startPage

/-- `walloc_list_free` -/
def wallocListFree (ws : WallocState) (addr npages : Nat) : Except Failure WallocState :=
  if npages = 0 then .ok ws
  else do
    let startPage ← wallocListGetStartPage ws addr
    let ws := { ws with pool := ws.pool.free startPage npages }
    if (ws.windowCptrMap startPage).isSome then
      return { ws with windowCptrMap := Function.update ws.windowCptrMap startPage none }
    return ws

inductive WallocEvent where
  | alloc (npages windowCap : Nat)
  | free (addr npages : Nat)
  deriving DecidableEq, Repr

/-- One call. -/
def wallocStep (ws : WallocState) : WallocEvent → Except Failure WallocState
  | .alloc npages windowCap => do
      let (_, _, ws) ← wallocListExt ws npages windowCap
      return ws
  | .free addr npages => wallocListFree ws addr npages

namespace WallocState

/-- The region is page aligned, starts at an address that is not null and ends in the address space,
and its bitmap has a bit for every page. -/
structure Ok (ws : WallocState) : Prop where
  aligned : ws.startAddr % pageSize = 0
  start_pos : 0 < ws.startAddr
  end_le : ws.startAddr + ws.npages * pageSize ≤ 2 ^ 32
  size_eq : ws.pool.size = ws.npages

variable {ws ws' : WallocState} {addr npages windowCap window : Nat}

/-- The calls keep the region. -/
structure SameRegion (ws ws' : WallocState) : Prop where
  start_eq : ws'.startAddr = ws.startAddr
  npages_eq : ws'.npages = ws.npages
  size_eq : ws'.pool.size = ws.pool.size

theorem Ok.of_same (h : ws.Ok) (hsame : ws.SameRegion ws') : ws'.Ok where
  aligned := hsame.start_eq ▸ h.aligned
  start_pos := hsame.start_eq ▸ h.start_pos
  end_le := by
    rw [hsame.start_eq, hsame.npages_eq]
    exact h.end_le
  size_eq := by rw [hsame.size_eq, hsame.npages_eq, h.size_eq]

theorem Ok.init (hinit : wallocListInit processWallocStart processWallocEnd = .ok ws) : ws.Ok := by
  have hws : ws = _ := (Except.ok.inj hinit).symm
  subst hws
  exact ⟨by decide, by decide, by decide, rfl⟩

/-- A region that is handed out: whole pages of the allocator's region. -/
theorem Ok.alloc (h : ws.Ok)
    (halloc : wallocListExt ws npages windowCap = .ok (addr, window, ws')) :
    ws.SameRegion ws' ∧
      (addr ≠ 0 → addr % pageSize = 0 ∧ addr + npages * pageSize ≤ 2 ^ 32) := by
  rw [wallocListExt] at halloc
  by_cases hzero : npages = 0
  · rw [if_pos hzero] at halloc
    obtain ⟨rfl, _, rfl⟩ := Except.ok.inj halloc
    exact ⟨⟨rfl, rfl, rfl⟩, fun hne => absurd rfl hne⟩
  rw [if_neg hzero] at halloc
  cases hpool : ws.pool.alloc npages with
  | mk sta pool =>
      cases sta with
      | none =>
          simp only [hpool] at halloc
          obtain ⟨rfl, _, rfl⟩ := Except.ok.inj halloc
          exact ⟨⟨rfl, rfl, rfl⟩, fun hne => absurd rfl hne⟩
      | some startPage =>
          simp only [hpool] at halloc
          split_ifs at halloc with hpage halign hcap
          obtain ⟨rfl, _, rfl⟩ := Except.ok.inj halloc
          obtain ⟨_, _, hle, _, rfl⟩ := Cbpool.alloc_spec hpool
          refine ⟨⟨rfl, rfl, rfl⟩, fun _ => ⟨not_not.1 halign, ?_⟩⟩
          have hend := h.end_le
          rw [h.size_eq] at hle
          have hpages : (startPage + npages) * pageSize ≤ ws.npages * pageSize :=
            Nat.mul_le_mul_right _ hle
          rw [Nat.add_mul] at hpages
          have hmod : u32 (ws.startAddr + startPage * pageSize) ≤
              ws.startAddr + startPage * pageSize := Nat.mod_le _ _
          omega

theorem same_of_free (hfree : wallocListFree ws addr npages = .ok ws') : ws.SameRegion ws' := by
  rw [wallocListFree] at hfree
  split_ifs at hfree with hzero
  · obtain rfl := Except.ok.inj hfree
    exact ⟨rfl, rfl, rfl⟩
  · obtain ⟨startPage, _, hrest⟩ := bind_eq_ok_iff.1 hfree
    dsimp only at hrest
    split_ifs at hrest
    all_goals
      obtain rfl := Except.ok.inj hrest
      exact ⟨rfl, rfl, Cbpool.free_size startPage⟩

theorem Ok.run {evs : List WallocEvent} (h : ws.Ok)
    (hrun : Run wallocStep (fun _ _ => True) ws evs ws') : ws'.Ok := by
  refine hrun.invariant h fun t e u ht _ hu => ?_
  cases e with
  | alloc npages windowCap =>
      obtain ⟨⟨addr, window, u'⟩, halloc, hret⟩ := bind_eq_ok_iff.1 hu
      obtain rfl := Except.ok.inj hret
      exact ht.of_same (ht.alloc halloc).1
  | free addr npages => exact ht.of_same (same_of_free hu)

end WallocState

/-! ## `pager.c` -/

/-- `struct fs_frame_block` -/
structure FsFrameBlock where
  initialised : Bool
  framePool : Cpool
  dataspace : Nat
  window : Nat
  frameBlockVAddr : Nat
  frameBlockNumPages : Nat

/-- What the process server answers while the block is set up: the dataspace and the error of
`data_open`, the window made for `walloc`, and the error of `data_datamap`. -/
structure PagerAnswers where
  dataspace : Nat
  openError : Int
  windowCap : Nat
  mapError : Int

/-- `pager_init` -/
def pagerInit (framesSize : Nat) (ws : WallocState) (ans : PagerAnswers) :
    Except Failure (FsFrameBlock × WallocState) :=
  if framesSize % pageSize ≠ 0 then .error .assertion
  else
    let numPages := framesSize / pageSize
    if ans.openError ≠ 0 ∨ ans.dataspace = 0 then .error .assertion
    else
      match wallocListExt ws numPages ans.windowCap with
      | .error e => .error e
      | .ok (vaddr, window, ws) =>
          if vaddr = 0 ∨ window = 0 then .error .assertion
          else if ans.mapError ≠ 0 then .error .assertion
          else .ok (
            { initialised := true
              framePool := .init 1 numPages
              dataspace := ans.dataspace
              window := window
              frameBlockVAddr := vaddr
              frameBlockNumPages := numPages }, ws)

/-- `pager_alloc_frame` -/
def pagerAllocFrame (fb : FsFrameBlock) : Except Failure (Nat × FsFrameBlock) :=
  if fb.initialised = false then .error .assertion
  else
    match fb.framePool.alloc with
    | none => .ok (0, fb)
    | some (pagen, pool) =>
        let fb := { fb with framePool := pool }
        if pagen = 0 ∨ fb.frameBlockNumPages ≤ pagen then .ok (0, fb)
        else .ok (u32 (fb.frameBlockVAddr + pagen * pageSize), fb)

/-- `pager_free_frame` -/
def pagerFreeFrame (fb : FsFrameBlock) (frame : Nat) : Except Failure FsFrameBlock :=
  if fb.initialised = false then .error .assertion
  else if frame < fb.frameBlockVAddr then .ok fb
  else
    let pagen := (frame - fb.frameBlockVAddr) / pageSize
    if pagen = 0 ∨ fb.frameBlockNumPages ≤ pagen then .ok fb
    else if fb.framePool.check pagen then .ok fb
    else .ok { fb with framePool := fb.framePool.free pagen }

/-! ## Calls and what they returned -/

/-- A call: an allocation and the address it returned, or a free. -/
inductive PagerCall where
  | alloc (ret : Nat)
  | free (frame : Nat)
  deriving DecidableEq, Repr

inductive PagerEvent where
  | alloc
  | free (frame : Nat)
  deriving DecidableEq, Repr

/-- A frame block and the calls so far. -/
structure PagerRun where
  fb : FsFrameBlock
  calls : List PagerCall

/-- One call. -/
def pagerStep (x : PagerRun) : PagerEvent → Except Failure PagerRun
  | .alloc => do
      let (ret, fb) ← pagerAllocFrame x.fb
      return { fb := fb, calls := x.calls ++ [.alloc ret] }
  | .free frame => do
      let fb ← pagerFreeFrame x.fb frame
      return { fb := fb, calls := x.calls ++ [.free frame] }

/-- An address was returned, and since then no address in its page has been freed. -/
def FrameOut (calls : List PagerCall) (a : Nat) : Prop :=
  ∃ pre mid, calls = pre ++ .alloc a :: mid ∧
    ∀ frame, .free frame ∈ mid → frame / pageSize ≠ a / pageSize

/-- Every address that was returned is that of a whole page of the block from `vaddr` on, and it was
not out. -/
def FramesRight (vaddr framesSize : Nat) (calls : List PagerCall) : Prop :=
  ∀ pre post a, calls = pre ++ .alloc a :: post → a ≠ 0 →
    a % pageSize = 0 ∧ vaddr ≤ a ∧ a + pageSize ≤ vaddr + framesSize ∧ ¬FrameOut pre a

/-- A list with one more at its end, split at an element: the element is that one, or it comes
before. -/
theorem snoc_eq_append_cons {α : Type*} {l pre mid : List α} {c x : α}
    (h : l ++ [c] = pre ++ x :: mid) :
    l = pre ∧ c = x ∨ ∃ rest, mid = rest ++ [c] ∧ l = pre ++ x :: rest := by
  rcases List.eq_nil_or_concat mid with rfl | ⟨rest, last, rfl⟩
  · obtain ⟨hl, hc⟩ := List.append_inj' h rfl
    exact Or.inl ⟨hl, (List.cons.inj hc).1⟩
  · rw [List.concat_eq_append, ← List.cons_append, ← List.append_assoc] at h
    obtain ⟨hl, hc⟩ := List.append_inj' h rfl
    exact Or.inr ⟨rest, by rw [List.concat_eq_append, hc], hl⟩

/-- An address is out after one more call if it was just returned, or was out before and is not
freed. -/
theorem FrameOut.of_snoc {calls : List PagerCall} {c : PagerCall} {a : Nat}
    (h : FrameOut (calls ++ [c]) a) :
    c = .alloc a ∨
      FrameOut calls a ∧ ∀ frame, c = .free frame → frame / pageSize ≠ a / pageSize := by
  obtain ⟨pre, mid, heq, hmid⟩ := h
  obtain ⟨_, rfl⟩ | ⟨rest, rfl, rfl⟩ := snoc_eq_append_cons heq
  · exact Or.inl rfl
  · refine Or.inr ⟨⟨pre, rest, rfl, fun frame hframe => ?_⟩, fun frame hc => ?_⟩
    · exact hmid frame (List.mem_append_left _ hframe)
    · exact hmid frame (hc ▸ List.mem_append_right _ (List.mem_singleton_self _))

theorem FramesRight.snoc {vaddr framesSize : Nat} {calls : List PagerCall} {c : PagerCall}
    (h : FramesRight vaddr framesSize calls)
    (hc : ∀ a, c = .alloc a → a ≠ 0 → a % pageSize = 0 ∧ vaddr ≤ a ∧
      a + pageSize ≤ vaddr + framesSize ∧ ¬FrameOut calls a) :
    FramesRight vaddr framesSize (calls ++ [c]) := by
  intro pre post a heq hne
  obtain ⟨rfl, rfl⟩ | ⟨rest, _, rfl⟩ := snoc_eq_append_cons heq
  · exact hc a rfl hne
  · exact h pre rest a rfl hne

/-! ## The invariant -/

/-- A frame block: its pages lie in the address space, and what is out are live ids of the pool. -/
structure FramesOk (vaddr framesSize : Nat) (x : PagerRun) : Prop where
  initialised : x.fb.initialised = true
  vaddr_eq : x.fb.frameBlockVAddr = vaddr
  size_eq : framesSize = x.fb.frameBlockNumPages * pageSize
  aligned : vaddr % pageSize = 0
  end_le : vaddr + framesSize ≤ 2 ^ 32
  pool : x.fb.framePool.Ok
  out : ∀ a, a ≠ 0 → FrameOut x.calls a → ∃ pagen, x.fb.framePool.Live pagen ∧
    pagen < x.fb.frameBlockNumPages ∧ a = vaddr + pagen * pageSize
  right : FramesRight vaddr framesSize x.calls

namespace FramesOk

variable {vaddr framesSize : Nat} {x : PagerRun}

theorem init {ws ws' : WallocState} {ans : PagerAnswers} {fb : FsFrameBlock} (hws : ws.Ok)
    (hinit : pagerInit framesSize ws ans = .ok (fb, ws')) :
    FramesOk fb.frameBlockVAddr framesSize ⟨fb, []⟩ := by
  rw [pagerInit] at hinit
  by_cases hmod : framesSize % pageSize ≠ 0
  · rw [if_pos hmod] at hinit
    cases hinit
  rw [if_neg hmod] at hinit
  by_cases hopen : ans.openError ≠ 0 ∨ ans.dataspace = 0
  · simp only [if_pos hopen] at hinit
    cases hinit
  simp only [if_neg hopen] at hinit
  cases hregion : wallocListExt ws (framesSize / pageSize) ans.windowCap with
  | error e =>
      simp only [hregion] at hinit
      cases hinit
  | ok region =>
      obtain ⟨vaddr, window, wsRegion⟩ := region
      simp only [hregion] at hinit
      split_ifs at hinit with hzero
      obtain ⟨rfl, _⟩ := Prod.mk.inj (Except.ok.inj hinit)
      obtain ⟨halign, hle⟩ := (hws.alloc hregion).2 fun h => hzero (Or.inl h)
      have hsize : framesSize = framesSize / pageSize * pageSize :=
        (Nat.div_mul_cancel (Nat.dvd_of_mod_eq_zero (not_not.1 hmod))).symm
      refine ⟨rfl, rfl, hsize, halign, hsize ▸ hle, .init Nat.one_pos (Nat.le_add_left 1 _), ?_, ?_⟩
      · rintro a _ ⟨pre, mid, heq, _⟩
        exact absurd heq.symm (by simp)
      · intro pre post a heq
        exact absurd heq.symm (by simp)

/-- An id that `cpool_check` does not report free is live, or `cpool_free` leaves the pool as it is.
The latter is the case of the id that is next, which is free and not reported so. -/
theorem live_or_free_eq {p : Cpool} {id : Nat} (hcheck : p.check id = false) :
    p.Live id ∨ p.free id = p := by
  rw [Cpool.free]
  by_cases hrange : id < p.start ∨ p.stop < id ∨ p.mx ≤ id
  · exact Or.inr (if_pos hrange)
  · rw [Cpool.check, if_neg (by omega), if_neg (by omega)] at hcheck
    exact Or.inl ⟨by omega, by omega, by simpa using hcheck⟩

theorem page_of_aligned {vaddr frame : Nat} (halign : vaddr % pageSize = 0) (hle : vaddr ≤ frame) :
    frame / pageSize = vaddr / pageSize + (frame - vaddr) / pageSize := by
  simp only [pageSize] at *
  omega

theorem page_of_number {vaddr : Nat} (halign : vaddr % pageSize = 0) (pagen : Nat) :
    (vaddr + pagen * pageSize) / pageSize = vaddr / pageSize + pagen := by
  rw [page_of_aligned halign (Nat.le_add_right _ _), Nat.add_sub_cancel_left,
    Nat.mul_div_cancel _ (by decide)]

theorem grow (h : FramesOk vaddr framesSize x) {pool : Cpool} (hpool : pool.Ok)
    (hlive : ∀ i, x.fb.framePool.Live i → pool.Live i) :
    FramesOk vaddr framesSize ⟨{ x.fb with framePool := pool }, x.calls ++ [.alloc 0]⟩ := by
  refine ⟨h.initialised, h.vaddr_eq, h.size_eq, h.aligned, h.end_le, hpool,
    fun a hne hout => ?_, ?_⟩
  · obtain heq | ⟨hout, _⟩ := hout.of_snoc
    · exact absurd (PagerCall.alloc.inj heq).symm hne
    · obtain ⟨pagen, hpagen, hrest⟩ := h.out a hne hout
      exact ⟨pagen, hlive pagen hpagen, hrest⟩
  · refine FramesRight.snoc h.right fun a heq hne => ?_
    exact absurd (PagerCall.alloc.inj heq).symm hne

/-- A page that is handed out was not out, since its number was not live. -/
theorem push (h : FramesOk vaddr framesSize x) {pool : Cpool} {pagen : Nat} (hpool : pool.Ok)
    (hnot : ¬x.fb.framePool.Live pagen) (hlt : pagen < x.fb.frameBlockNumPages)
    (hlive : ∀ i, pool.Live i ↔ i = pagen ∨ x.fb.framePool.Live i) :
    FramesOk vaddr framesSize ⟨{ x.fb with framePool := pool },
      x.calls ++ [.alloc (vaddr + pagen * pageSize)]⟩ := by
  refine ⟨h.initialised, h.vaddr_eq, h.size_eq, h.aligned, h.end_le, hpool,
    fun a hne hout => ?_, ?_⟩
  · obtain heq | ⟨hout, _⟩ := hout.of_snoc
    · exact ⟨pagen, (hlive pagen).2 (Or.inl rfl), hlt, (PagerCall.alloc.inj heq).symm⟩
    · obtain ⟨i, hi, hrest⟩ := h.out a hne hout
      exact ⟨i, (hlive i).2 (Or.inr hi), hrest⟩
  · refine FramesRight.snoc h.right fun a heq hne => ?_
    obtain rfl := PagerCall.alloc.inj heq
    refine ⟨?_, Nat.le_add_right _ _, ?_, fun hout => ?_⟩
    · rw [Nat.add_mul_mod_self_right]
      exact h.aligned
    · have hpages : (pagen + 1) * pageSize ≤ x.fb.frameBlockNumPages * pageSize :=
        Nat.mul_le_mul_right _ hlt
      rw [← h.size_eq, Nat.add_one_mul] at hpages
      omega
    · obtain ⟨i, hi, _, heq⟩ := h.out _ hne hout
      obtain rfl := Nat.mul_right_cancel (by decide) (Nat.add_left_cancel heq)
      exact hnot hi

theorem alloc (h : FramesOk vaddr framesSize x) :
    ∃ ret fb, pagerAllocFrame x.fb = .ok (ret, fb) ∧
      FramesOk vaddr framesSize ⟨fb, x.calls ++ [.alloc ret]⟩ := by
  obtain rfl := h.vaddr_eq
  rw [pagerAllocFrame, if_neg (by simp [h.initialised])]
  cases halloc : x.fb.framePool.alloc with
  | none => exact ⟨0, x.fb, rfl, h.grow h.pool fun _ hi => hi⟩
  | some new =>
      obtain ⟨pagen, pool⟩ := new
      obtain ⟨hpool, _, _, hnot, _, hlive⟩ := h.pool.alloc halloc
      dsimp only
      by_cases hrange : pagen = 0 ∨ x.fb.frameBlockNumPages ≤ pagen
      · refine ⟨0, { x.fb with framePool := pool }, if_pos hrange, ?_⟩
        exact h.grow hpool fun i hi => (hlive i).2 (Or.inr hi)
      · have hlt : pagen < x.fb.frameBlockNumPages := by omega
        refine ⟨_, _, if_neg hrange, ?_⟩
        have hword : x.fb.frameBlockVAddr + pagen * pageSize < 2 ^ 32 := by
          have hpages : pagen * pageSize < x.fb.frameBlockNumPages * pageSize :=
            Nat.mul_lt_mul_of_pos_right hlt (by decide)
          have hend := h.end_le
          rw [h.size_eq] at hend
          omega
        rw [u32_of_lt hword]
        exact h.push hpool hnot hlt hlive

theorem keep (h : FramesOk vaddr framesSize x) (frame : Nat) :
    FramesOk vaddr framesSize ⟨x.fb, x.calls ++ [.free frame]⟩ := by
  refine ⟨h.initialised, h.vaddr_eq, h.size_eq, h.aligned, h.end_le, h.pool,
    fun a hne hout => ?_, ?_⟩
  · obtain heq | ⟨hout, _⟩ := hout.of_snoc
    · cases heq
    · exact h.out a hne hout
  · refine FramesRight.snoc h.right fun a heq _ => ?_
    cases heq

/-- `pager_free_frame`: what is freed is live, and its page is not out any more. -/
theorem free (h : FramesOk vaddr framesSize x) (frame : Nat) :
    ∃ fb, pagerFreeFrame x.fb frame = .ok fb ∧
      FramesOk vaddr framesSize ⟨fb, x.calls ++ [.free frame]⟩ := by
  obtain rfl := h.vaddr_eq
  rw [pagerFreeFrame, if_neg (by simp [h.initialised])]
  by_cases hbelow : frame < x.fb.frameBlockVAddr
  · exact ⟨x.fb, if_pos hbelow, h.keep frame⟩
  rw [if_neg hbelow]
  dsimp only
  set pagen := (frame - x.fb.frameBlockVAddr) / pageSize with hpagen
  by_cases hrange : pagen = 0 ∨ x.fb.frameBlockNumPages ≤ pagen
  · exact ⟨x.fb, if_pos hrange, h.keep frame⟩
  rw [if_neg hrange]
  by_cases hcheck : x.fb.framePool.check pagen = true
  · exact ⟨x.fb, if_pos hcheck, h.keep frame⟩
  refine ⟨_, if_neg hcheck, ?_⟩
  obtain hlive | hsame := live_or_free_eq (Bool.eq_false_iff.2 hcheck)
  · obtain ⟨hpool, _, _, hiff⟩ := h.pool.free hlive
    refine ⟨h.initialised, h.vaddr_eq, h.size_eq, h.aligned, h.end_le, hpool,
    fun a hne hout => ?_, ?_⟩
    · obtain heq | ⟨hout, hother⟩ := hout.of_snoc
      · cases heq
      · obtain ⟨i, hi, hlt, rfl⟩ := h.out a hne hout
        have hpage := hother frame rfl
        rw [page_of_aligned h.aligned (Nat.le_of_not_lt hbelow), ← hpagen,
          page_of_number h.aligned] at hpage
        have hdiff : i ≠ pagen := by
          rintro rfl
          exact hpage rfl
        exact ⟨i, (hiff i).2 ⟨hdiff, hi⟩, hlt, rfl⟩
    · refine FramesRight.snoc h.right fun a heq _ => ?_
      cases heq
  · rw [hsame]
    exact h.keep frame

theorem step (h : FramesOk vaddr framesSize x) (e : PagerEvent) :
    ∃ y, pagerStep x e = .ok y ∧ FramesOk vaddr framesSize y := by
  cases e with
  | alloc =>
      obtain ⟨ret, fb, halloc, hok⟩ := h.alloc
      refine ⟨_, ?_, hok⟩
      rw [pagerStep, halloc]
      rfl
  | free frame =>
      obtain ⟨fb, hfree, hok⟩ := h.free frame
      refine ⟨_, ?_, hok⟩
      rw [pagerStep, hfree]
      rfl

end FramesOk

/-! ## Every run -/

/-- **No page is handed out twice.** For a block set up by `pager_init` with a window of `walloc`,
every sequence of allocations and frees has a run, and in it every address returned is that of a
whole page of the block, and was not returned before, unless its page has been freed since. -/
theorem frames_right {ws₀ ws ws' : WallocState} {reserved : List WallocEvent} {framesSize : Nat}
    {ans : PagerAnswers} {fb : FsFrameBlock}
    (hwalloc : wallocListInit processWallocStart processWallocEnd = .ok ws₀)
    (hreserved : Run wallocStep (fun _ _ => True) ws₀ reserved ws)
    (hinit : pagerInit framesSize ws ans = .ok (fb, ws')) (evs : List PagerEvent) :
    ∃ x, Run pagerStep (fun _ _ => True) ⟨fb, []⟩ evs x ∧
      FramesRight fb.frameBlockVAddr framesSize x.calls := by
  have hws := (WallocState.Ok.init hwalloc).run hreserved
  obtain ⟨x, hrun, hok⟩ := Run.exists_of_progress (FramesOk.init hws hinit)
    (fun _ _ _ _ => trivial) fun y e hy _ => hy.step e
  exact ⟨x, hrun, hok.right⟩

/-- A block of three pages, set up by a process that has freed a region before. -/
theorem frames_right_three :
    ∃ ws₀ ws fb ws', wallocListInit processWallocStart processWallocEnd = .ok ws₀ ∧
      Run wallocStep (fun _ _ => True) ws₀ [.alloc 2 9, .free processWallocStart 2] ws ∧
      pagerInit (3 * pageSize) ws ⟨5, 0, 7, 0⟩ = .ok (fb, ws') ∧
      ∃ x, Run pagerStep (fun _ _ => True) ⟨fb, []⟩
          [.alloc, .free 3, .alloc, .free (processWallocStart + pageSize + 1), .alloc] x ∧
        FramesRight fb.frameBlockVAddr (3 * pageSize) x.calls := by
  have hwalloc : wallocListInit processWallocStart processWallocEnd =
      .ok ⟨processWallocStart, processWallocEnd, 0xFFFF, .init 0xFFFF, fun _ => none⟩ := rfl
  obtain ⟨ws, hreserved, hopen⟩ : ∃ ws, Run wallocStep (fun _ _ => True)
      ⟨processWallocStart, processWallocEnd, 0xFFFF, .init 0xFFFF, fun _ => none⟩
      [.alloc 2 9, .free processWallocStart 2] ws ∧
        (pagerInit (3 * pageSize) ws ⟨5, 0, 7, 0⟩).toOption.isSome := by
    apply Run.exists_of_exec
    decide
  obtain ⟨⟨fb, ws'⟩, hinit⟩ := Option.isSome_iff_exists.1 hopen
  have hok := eq_ok_of_toOption hinit
  exact ⟨_, ws, fb, ws', hwalloc, hreserved, hok, frames_right hwalloc hreserved hok _⟩

end PartitionSeL4.Refos
