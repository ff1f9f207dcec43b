import PartitionSeL4.Refos.DataStruct
import PartitionSeL4.Lib.Run
import Mathlib.Data.Finset.Card

/-!
# The page directory pool

The process server allocates `PD_MAX` page directories with their root CNodes when it starts, and
hands them out through a pool of ids from `1` to `1 + PD_MAX`. That is one id too many: when all
directories are assigned, `pd_assign` reads behind its arrays instead of failing.

`pd_free` looks a directory up and asks `cpool_check` whether it is free already. The answer is no
for the id that the pool would hand out next for the first time. So a directory that was never
assigned is revoked and gets a new CNode. Where the new CNode cannot be allocated, an assigned
directory is not given back.

`pd_right_iff`: a run of calls and one more call are right if and only if they avoid these three
cases. A run is paired with what its callers have been given and have not freed.
-/

namespace PartitionSeL4.Refos

open Lib

/-! ## `pagedir.c` -/

/-- `struct pd_list`; of the kernel objects, their capability pointers. -/
structure PdList where
  /-- `PD_MAX` -/
  pdMax : Nat
  /-- `PDpool` -/
  pdPool : Cpool
  pd : Nat → Nat
  cnode : Nat → Nat

/-- `struct pd_info` -/
structure PdInfo where
  kpdObject : Nat
  kcnodeObject : Nat
  deriving DecidableEq, Repr

/-- `PD_ID_BASE` -/
def pdIdBase : Nat := 1

/-- `pd_init`, with the capability pointers of the objects it allocates. -/
def pdInit (pdMax : Nat) (pd cnode : Nat → Nat) : Except Failure PdList :=
  if ∀ i < pdMax, pd i ≠ 0 ∧ cnode i ≠ 0 then
    .ok { pdMax := pdMax, pdPool := .init pdIdBase (pdIdBase + pdMax), pd := pd, cnode := cnode }
  else .error .assertion

/-- `pd_assign`. Behind the arrays there is nothing to read. -/
def pdAssign (p : PdList) : Except Failure (PdInfo × PdList) :=
  match p.pdPool.alloc with
  | none => .ok (⟨0, 0⟩, p)
  | some (pdID, pool) =>
      if pdID - 1 < p.pdMax then
        .ok (⟨p.pd (pdID - 1), p.cnode (pdID - 1)⟩, { p with pdPool := pool })
      else .error .fault

/-- The entry with a capability pointer. -/
def pdIndex (p : PdList) (pdPtr : Nat) : Option Nat :=
  (List.range p.pdMax).find? fun i => p.pd i = pdPtr

/-- `pd_free`: the entry whose directory is revoked and whose CNode is deleted, if any, and the
list. `error` and `cnode` are what the allocation of the new CNode returns and leaves in the
entry. -/
def pdFree (p : PdList) (pdPtr : Nat) (error : Bool) (cnode : Nat) : Option Nat × PdList :=
  match pdIndex p pdPtr with
  | none => (none, p)
  | some idx =>
      if p.pdPool.check (idx + 1) then (none, p)
      else
        let p := { p with cnode := Function.update p.cnode idx cnode }
        if error then (some idx, p)
        else (some idx, { p with pdPool := p.pdPool.free (idx + 1) })

/-! ## Runs -/

/-- The list and what is assigned. -/
structure PdTable where
  list : PdList
  assigned : List PdInfo

inductive PdEvent where
  | assign
  | free (pdPtr : Nat) (error : Bool) (cnode : Nat)
  deriving DecidableEq, Repr

/-- One call. -/
def pdStep (x : PdTable) : PdEvent → Except Failure PdTable
  | .assign => do
      let (info, list) ← pdAssign x.list
      return { list := list
               assigned := if info.kpdObject = 0 then x.assigned else x.assigned ++ [info] }
  | .free pdPtr error cnode => .ok
      { list := (pdFree x.list pdPtr error cnode).2
        assigned := x.assigned.filter fun info => info.kpdObject ≠ pdPtr }

namespace PdTable

/-- The directories assigned. -/
def pds (x : PdTable) : List Nat := x.assigned.map PdInfo.kpdObject

/-- An assignment returns an entry that is not assigned while there are fewer than `PD_MAX`, and
null pointers otherwise. What is freed is an entry that is assigned, which the next assignment can
return; and otherwise nothing is done. -/
def Right (x : PdTable) : PdEvent → Prop
  | .assign =>
      if x.assigned.length < x.list.pdMax then
        ∃ i < x.list.pdMax, ∃ list, pdAssign x.list = .ok (⟨x.list.pd i, x.list.cnode i⟩, list) ∧
          x.list.pd i ≠ 0 ∧ x.list.pd i ∉ x.pds
      else ∃ list, pdAssign x.list = .ok (⟨0, 0⟩, list)
  | .free pdPtr error cnode =>
      if pdPtr ∈ x.pds then
        ∃ i < x.list.pdMax, x.list.pd i = pdPtr ∧ ∃ list, pdFree x.list pdPtr error cnode =
          (some i, list) ∧ ∃ list', pdAssign list = .ok (⟨pdPtr, cnode⟩, list')
      else pdFree x.list pdPtr error cnode = (none, x.list)

/-- A directory is left to assign; a new CNode can be allocated for a directory that is freed; and
the directory that would be assigned next for the first time is not freed. -/
def Spares (x : PdTable) : PdEvent → Prop
  | .assign => x.assigned.length < x.list.pdMax
  | .free pdPtr error _ =>
      if pdPtr ∈ x.pds then error = false
      else ∀ i < x.list.pdMax, x.list.pd i = pdPtr → i + 1 ≠ x.list.pdPool.mx

/-! ## The invariant -/

/-- The pointers to the directories are distinct and not null; the directories assigned are those
whose ids the pool has handed out, and it has not yet handed out the last one, which has no
directory. -/
structure Ok (x : PdTable) : Prop where
  distinct : ∀ i < x.list.pdMax, ∀ j < x.list.pdMax, x.list.pd i = x.list.pd j → i = j
  nonzero : ∀ i < x.list.pdMax, x.list.pd i ≠ 0
  pool : x.list.pdPool.Ok
  start_eq : x.list.pdPool.start = 1
  stop_eq : x.list.pdPool.stop = x.list.pdMax + 1
  mx_le : x.list.pdPool.mx ≤ x.list.pdMax + 1
  once : x.pds.Nodup
  entry : ∀ ptr ∈ x.pds, ∃ i < x.list.pdMax, x.list.pd i = ptr
  live : ∀ i < x.list.pdMax, (x.list.pdPool.Live (i + 1) ↔ x.list.pd i ∈ x.pds)

namespace Ok

variable {x : PdTable} {ptr i : Nat}

theorem init {pdMax : Nat} {pd cnode : Nat → Nat} {list : PdList}
    (hinit : pdInit pdMax pd cnode = .ok list)
    (hdistinct : ∀ i < pdMax, ∀ j < pdMax, pd i = pd j → i = j) : (⟨list, []⟩ : PdTable).Ok := by
  rw [pdInit] at hinit
  split_ifs at hinit with hnonzero
  obtain rfl := Except.ok.inj hinit
  refine ⟨hdistinct, fun i hi => (hnonzero i hi).1, .init (by decide) (by omega), rfl,
    Nat.add_comm _ _, ?_, List.nodup_nil, ?_, fun i _ => ?_⟩
  · simp [Cpool.init, pdIdBase]
  · simp [pds]
  · simp [Cpool.Live, Cpool.init, pdIdBase, pds]

/-- As long as there are fewer than `PD_MAX`, there is an entry that is not assigned. -/
theorem length_lt_iff (h : x.Ok) :
    x.assigned.length < x.list.pdMax ↔ ∃ i < x.list.pdMax, x.list.pd i ∉ x.pds := by
  have hcard : x.pds.toFinset.card = x.assigned.length := by
    rw [List.toFinset_card_of_nodup h.once, pds, List.length_map]
  have hall : ((Finset.range x.list.pdMax).image x.list.pd).card = x.list.pdMax := by
    rw [Finset.card_image_of_injOn, Finset.card_range]
    intro i hi j hj heq
    exact h.distinct i (Finset.mem_range.1 hi) j (Finset.mem_range.1 hj) heq
  have hsub : x.pds.toFinset ⊆ (Finset.range x.list.pdMax).image x.list.pd := by
    intro ptr hptr
    obtain ⟨i, hi, rfl⟩ := h.entry ptr (List.mem_toFinset.1 hptr)
    exact Finset.mem_image_of_mem _ (Finset.mem_range.2 hi)
  constructor
  · intro hlt
    by_contra hnone
    push Not at hnone
    have hle : (Finset.range x.list.pdMax).image x.list.pd ⊆ x.pds.toFinset := by
      intro ptr hptr
      obtain ⟨i, hi, rfl⟩ := Finset.mem_image.1 hptr
      exact List.mem_toFinset.2 (hnone i (Finset.mem_range.1 hi))
    have := Finset.card_le_card hle
    omega
  · rintro ⟨i, hi, hnot⟩
    by_contra hge
    rw [← hcard, ← hall] at hge
    refine hnot (List.mem_toFinset.1 ?_)
    rw [Finset.eq_of_subset_of_card_le hsub (Nat.not_lt.1 hge)]
    exact Finset.mem_image_of_mem _ (Finset.mem_range.2 hi)

/-- The pool hands out the id of an entry that is not assigned, or the last id where all are. -/
theorem alloc (h : x.Ok) : ∃ id pool, x.list.pdPool.alloc = some (id, pool) ∧
    (id = x.list.pdMax + 1 ↔ ¬x.assigned.length < x.list.pdMax) ∧
    (x.assigned.length < x.list.pdMax → ∃ i < x.list.pdMax, id = i + 1 ∧ x.list.pd i ∉ x.pds) := by
  have hstart := h.start_eq
  have hstop := h.stop_eq
  have hmx := h.mx_le
  cases halloc : x.list.pdPool.alloc with
  | none =>
      -- the last id is still there
      have hlive := Cpool.live_of_alloc_none halloc (i := x.list.pdMax + 1) (by omega) (by omega)
      exact absurd hlive.2.1 (by omega)
  | some new =>
      obtain ⟨id, pool⟩ := new
      obtain ⟨_, _, _, hnot, hrange, _⟩ := h.pool.alloc halloc
      have hend : x.list.pdPool.EndLast := by
        intro hmem
        have := (h.pool.used _ hmem).2
        omega
      have hlast : id = x.list.pdMax + 1 ↔ ¬x.assigned.length < x.list.pdMax := by
        rw [h.length_lt_iff]
        constructor
        · rintro heq ⟨i, hi, hfree⟩
          rw [heq, ← hstop] at halloc
          have hlive := (h.pool.alloc_end hend halloc).2 (i + 1) (by omega) (by omega)
          exact hfree ((h.live i hi).1 hlive)
        · intro hfull
          by_contra hne
          refine hfull ⟨id - 1, by omega, fun hmem => hnot ?_⟩
          have hlive := (h.live (id - 1) (by omega)).2 hmem
          rwa [show id - 1 + 1 = id by omega] at hlive
      refine ⟨id, pool, rfl, hlast, fun hlt => ?_⟩
      have hne := mt hlast.1 (not_not.2 hlt)
      refine ⟨id - 1, by omega, by omega, fun hmem => hnot ?_⟩
      have hlive := (h.live (id - 1) (by omega)).2 hmem
      rwa [show id - 1 + 1 = id by omega] at hlive

theorem assign_right_iff (h : x.Ok) : x.Right .assign ↔ x.Spares .assign := by
  obtain ⟨id, pool, halloc, hlast, hentry⟩ := h.alloc
  rw [Right, Spares]
  split_ifs with hlt
  · obtain ⟨i, hi, rfl, hnot⟩ := hentry hlt
    refine iff_of_true ⟨i, hi, { x.list with pdPool := pool }, ?_, h.nonzero i hi, hnot⟩ hlt
    rw [pdAssign, halloc]
    exact if_pos hi
  · refine iff_of_false ?_ hlt
    rintro ⟨list, hassign⟩
    rw [pdAssign, halloc, hlast.2 hlt] at hassign
    simp at hassign

theorem assign (h : x.Ok) {y : PdTable} (hspares : x.Spares .assign)
    (hy : pdStep x .assign = .ok y) : y.Ok := by
  obtain ⟨id, pool, halloc, _, hentry⟩ := h.alloc
  obtain ⟨i, hi, rfl, hnot⟩ := hentry hspares
  obtain ⟨hpool, hstart, hstop, _, _, hlive⟩ := h.pool.alloc halloc
  have hassign : pdAssign x.list =
      .ok (⟨x.list.pd i, x.list.cnode i⟩, { x.list with pdPool := pool }) := by
    rw [pdAssign, halloc]
    exact if_pos hi
  simp only [pdStep, hassign, bind, Except.bind, h.nonzero i hi, if_false] at hy
  obtain rfl := Except.ok.inj hy
  have hpds : (⟨{ x.list with pdPool := pool }, x.assigned ++ [⟨x.list.pd i, x.list.cnode i⟩]⟩ :
      PdTable).pds = x.pds ++ [x.list.pd i] := by
    simp [pds]
  refine ⟨h.distinct, h.nonzero, hpool, hstart.trans h.start_eq, hstop.trans h.stop_eq, ?_, ?_,
    ?_, fun j hj => ?_⟩
  · have hmx := h.mx_le
    show pool.mx ≤ x.list.pdMax + 1
    rcases Cpool.mx_of_alloc halloc with heq | ⟨hid, heq⟩ <;> omega
  · rw [hpds, ← List.concat_eq_append]
    exact h.once.concat hnot
  · intro ptr hptr
    rw [hpds, List.mem_append, List.mem_singleton] at hptr
    rcases hptr with hptr | rfl
    · exact h.entry ptr hptr
    · exact ⟨i, hi, rfl⟩
  · show pool.Live (j + 1) ↔ x.list.pd j ∈ _
    rw [hpds, hlive, h.live j hj, List.mem_append, List.mem_singleton, or_comm]
    refine or_congr_right ⟨fun heq => ?_, fun heq => ?_⟩
    · rw [Nat.succ.inj heq]
    · rw [h.distinct j hj i hi heq]

theorem pdIndex_eq (h : x.Ok) (hi : i < x.list.pdMax) : pdIndex x.list (x.list.pd i) = some i := by
  rw [pdIndex]
  cases hfind : (List.range x.list.pdMax).find? fun j => x.list.pd j = x.list.pd i with
  | none =>
      have hnone := List.find?_eq_none.1 hfind i (List.mem_range.2 hi)
      simp at hnone
  | some j =>
      have hj := List.mem_range.1 (List.mem_of_find?_eq_some hfind)
      have heq := List.find?_some hfind
      rw [h.distinct j hj i hi (by simpa using heq)]

theorem pdIndex_none (hnot : ∀ i < x.list.pdMax, x.list.pd i ≠ ptr) :
    pdIndex x.list ptr = none := by
  refine List.find?_eq_none.2 fun i hi => ?_
  simpa using hnot i (List.mem_range.1 hi)

/-- An entry that is not assigned is reported free, unless it is the next one of the pool. -/
theorem check_iff (h : x.Ok) (hi : i < x.list.pdMax) (hnot : x.list.pd i ∉ x.pds) :
    x.list.pdPool.check (i + 1) = true ↔ i + 1 ≠ x.list.pdPool.mx := by
  have hstart := h.start_eq
  have hstop := h.stop_eq
  have hdead := mt (h.live i hi).1 hnot
  rw [Cpool.check, if_neg (by omega)]
  split_ifs with hmx
  · exact iff_of_true rfl (by omega)
  · rw [List.contains_iff_mem]
    constructor
    · intro hmem
      exact Nat.ne_of_lt (h.pool.used _ hmem).2
    · intro hne
      by_contra hmem
      exact hdead ⟨by omega, by omega, hmem⟩

theorem pdFree_assigned (h : x.Ok) (hi : i < x.list.pdMax) (hmem : x.list.pd i ∈ x.pds)
    (error : Bool) (cnode : Nat) :
    pdFree x.list (x.list.pd i) error cnode = (some i,
      { x.list with
        pdPool := if error then x.list.pdPool else x.list.pdPool.free (i + 1)
        cnode := Function.update x.list.cnode i cnode }) := by
  rw [pdFree, h.pdIndex_eq hi]
  simp only [((h.live i hi).2 hmem).check_eq_false, Bool.false_eq_true, if_false]
  cases error <;> rfl

/-- An entry that is freed can be assigned again if it has its CNode. -/
theorem assign_freed_iff (h : x.Ok) (hi : i < x.list.pdMax) (hmem : x.list.pd i ∈ x.pds)
    (error : Bool) (cnode : Nat) :
    (∃ list, pdAssign (pdFree x.list (x.list.pd i) error cnode).2 =
      .ok (⟨x.list.pd i, cnode⟩, list)) ↔ error = false := by
  rw [h.pdFree_assigned hi hmem, pdAssign]
  cases error with
  | false =>
      refine iff_of_true ⟨{ x.list with cnode := Function.update x.list.cnode i cnode }, ?_⟩ rfl
      simp only [Bool.false_eq_true, if_false, h.pool.alloc_free ((h.live i hi).2 hmem)]
      rw [if_pos (by omega), Nat.add_sub_cancel, Function.update_self]
  | true =>
      refine iff_of_false ?_ (by simp)
      rintro ⟨list, hassign⟩
      obtain ⟨id, pool, halloc, hlast, hentry⟩ := h.alloc
      simp only [if_true, halloc] at hassign
      by_cases hlt : x.assigned.length < x.list.pdMax
      · obtain ⟨j, hj, rfl, hnot⟩ := hentry hlt
        rw [if_pos (by omega)] at hassign
        have heq : x.list.pd j = x.list.pd i :=
          congrArg PdInfo.kpdObject (Prod.mk.inj (Except.ok.inj hassign)).1
        exact hnot (heq ▸ hmem)
      · rw [hlast.2 hlt] at hassign
        simp at hassign

theorem free_right_iff (h : x.Ok) (error : Bool) (cnode : Nat) :
    x.Right (.free ptr error cnode) ↔ x.Spares (.free ptr error cnode) := by
  rw [Right, Spares]
  split_ifs with hmem
  · obtain ⟨i, hi, rfl⟩ := h.entry ptr hmem
    rw [← h.assign_freed_iff hi hmem error cnode]
    constructor
    · rintro ⟨j, _, _, list, hfree, hassign⟩
      rwa [hfree]
    · intro hassign
      exact ⟨i, hi, rfl, _, h.pdFree_assigned hi hmem error cnode,
        by rwa [h.pdFree_assigned hi hmem] at hassign⟩
  · by_cases hentry : ∃ i < x.list.pdMax, x.list.pd i = ptr
    · obtain ⟨i, hi, rfl⟩ := hentry
      have hnext : (∀ j < x.list.pdMax, x.list.pd j = x.list.pd i → j + 1 ≠ x.list.pdPool.mx) ↔
          x.list.pdPool.check (i + 1) = true := by
        rw [h.check_iff hi hmem]
        exact ⟨fun hall => hall i hi rfl, fun hne j hj heq => h.distinct j hj i hi heq ▸ hne⟩
      rw [hnext, pdFree, h.pdIndex_eq hi]
      cases hcheck : x.list.pdPool.check (i + 1) with
      | true => simp [hcheck]
      | false => cases error <;> simp [hcheck]
    · have hnone : ∀ i < x.list.pdMax, x.list.pd i ≠ ptr := fun i hi heq => hentry ⟨i, hi, heq⟩
      refine iff_of_true ?_ fun i hi heq => absurd heq (hnone i hi)
      rw [pdFree, pdIndex_none hnone]

theorem free (h : x.Ok) {error : Bool} {cnode : Nat} {y : PdTable}
    (hspares : x.Spares (.free ptr error cnode)) (hy : pdStep x (.free ptr error cnode) = .ok y) :
    y.Ok := by
  obtain rfl := Except.ok.inj hy
  by_cases hmem : ptr ∈ x.pds
  · obtain ⟨i, hi, rfl⟩ := h.entry ptr hmem
    rw [Spares, if_pos hmem] at hspares
    obtain ⟨hpool, hstart, hstop, hlive⟩ := h.pool.free ((h.live i hi).2 hmem)
    rw [h.pdFree_assigned hi hmem, hspares]
    have hpds : (x.assigned.filter fun info => info.kpdObject ≠ x.list.pd i).map
        PdInfo.kpdObject = x.pds.filter (· ≠ x.list.pd i) := by
      rw [pds, List.filter_map]
      rfl
    refine ⟨h.distinct, h.nonzero, hpool, hstart.trans h.start_eq, hstop.trans h.stop_eq, ?_, ?_,
      ?_, fun j hj => ?_⟩
    · exact Nat.le_trans (Nat.le_of_eq (Cpool.free_mx _ _)) h.mx_le
    · rw [pds, hpds]
      exact h.once.filter _
    · intro p hp
      rw [pds, hpds] at hp
      exact h.entry p (List.mem_filter.1 hp).1
    · show (x.list.pdPool.free (i + 1)).Live (j + 1) ↔ x.list.pd j ∈ List.map _ _
      rw [hpds, hlive, h.live j hj, List.mem_filter, decide_eq_true_eq, and_comm]
      refine and_congr_right fun _ => not_congr ⟨fun heq => ?_, fun heq => ?_⟩
      · rw [Nat.succ.inj heq]
      · rw [h.distinct j hj i hi heq]
  · have hright := (h.free_right_iff error cnode).2 hspares
    rw [Right, if_neg hmem] at hright
    have hsame : (x.assigned.filter fun info => info.kpdObject ≠ ptr) = x.assigned := by
      refine List.filter_eq_self.2 fun info hinfo => decide_eq_true fun heq => hmem ?_
      exact heq ▸ List.mem_map_of_mem hinfo
    rw [hright, hsame]
    exact h

end Ok

end PdTable

/-! ## Every run -/

/-- **The page directory pool.** Its directories have distinct capability pointers, as allocated.
Whatever calls have been made, and whatever the next one is: all of them are right if and only if
each assigns a directory while one is left, frees an assigned directory and gets a new CNode for it,
or frees one that is not assigned and is not the next one of the pool. -/
theorem pd_right_iff {pdMax : Nat} {pd cnode : Nat → Nat} {list : PdList}
    (hinit : pdInit pdMax pd cnode = .ok list)
    (hdistinct : ∀ i < pdMax, ∀ j < pdMax, pd i = pd j → i = j) (evs : List PdEvent) (x : PdTable)
    (hrun : Run pdStep (fun _ _ => True) ⟨list, []⟩ evs x) (e : PdEvent) :
    (Steps pdStep (fun y e _ => y.Right e) evs ⟨list, []⟩ ∧ x.Right e) ↔
      (Steps pdStep (fun y e _ => y.Spares e) evs ⟨list, []⟩ ∧ x.Spares e) := by
  have hok := PdTable.Ok.init hinit hdistinct
  have hstep : ∀ t e u, t.Ok → pdStep t e = .ok u → t.Spares e → u.Ok := by
    intro t e u ht hu hspares
    cases e with
    | assign => exact ht.assign hspares hu
    | free ptr error cnode => exact ht.free hspares hu
  have hiff : ∀ t e, PdTable.Ok t → (t.Right e ↔ t.Spares e) := by
    intro t e ht
    cases e with
    | assign => exact ht.assign_right_iff
    | free ptr error cnode => exact ht.free_right_iff error cnode
  have hsteps : Steps pdStep (fun y e _ => y.Right e) evs ⟨list, []⟩ ↔
      Steps pdStep (fun y e _ => y.Spares e) evs ⟨list, []⟩ :=
    hrun.steps_congr hok (fun t e u ht _ hu hright => hstep t e u ht hu ((hiff t e ht).1 hright))
      fun t e _ ht _ _ => hiff t e ht
  rw [hsteps]
  refine and_congr_right fun hspares => hiff x e ?_
  exact hrun.invariant_of_steps hspares hok fun t e u ht _ hu => hstep t e u ht hu

/-- A list of page directories with the capability pointers from 10 on. -/
def pdExample (pdMax : Nat) : PdList where
  pdMax := pdMax
  pdPool := .init pdIdBase (pdIdBase + pdMax)
  pd i := 10 + i
  cnode i := 100 + i

theorem pdInit_example (pdMax : Nat) :
    pdInit pdMax (fun i => 10 + i) (fun i => 100 + i) = .ok (pdExample pdMax) := by
  refine if_pos fun i _ => ⟨?_, ?_⟩
  · exact Nat.ne_of_gt (Nat.add_pos_left (by decide) i)
  · exact Nat.ne_of_gt (Nat.add_pos_left (by decide) i)

/-- Two directories; the first one is assigned and freed twice, and assigned again with its new
CNode. -/
theorem pd_right_iff_two :
    ∃ x, Run pdStep (fun _ _ => True) ⟨pdExample 2, []⟩
        [.assign, .free 10 false 200, .free 10 false 201, .assign] x ∧
      x.assigned = [⟨10, 200⟩] ∧
      ((Steps pdStep (fun y e _ => y.Right e)
          [.assign, .free 10 false 200, .free 10 false 201, .assign] ⟨pdExample 2, []⟩ ∧
            x.Right .assign) ↔
        (Steps pdStep (fun y e _ => y.Spares e)
          [.assign, .free 10 false 200, .free 10 false 201, .assign] ⟨pdExample 2, []⟩ ∧
            x.Spares .assign)) := by
  obtain ⟨x, hrun, hx⟩ : ∃ x, Run pdStep (fun _ _ => True) ⟨pdExample 2, []⟩
      [.assign, .free 10 false 200, .free 10 false 201, .assign] x ∧
        x.assigned = [⟨10, 200⟩] := by
    apply Run.exists_of_exec
    decide +kernel
  exact ⟨x, hrun, hx, pd_right_iff (pdInit_example 2) (fun i _ j _ h => by omega) _ x hrun .assign⟩

/-- The only directory is assigned, and a second assignment reads behind the array; and before any
assignment the directory is revoked when it is freed. -/
theorem full_pool_read_outside :
    (∃ x, Run pdStep (fun _ _ => True) ⟨pdExample 1, []⟩ [.assign] x ∧
      x.assigned = [⟨10, 100⟩] ∧ pdAssign x.list = .error .fault ∧ ¬x.Right .assign) ∧
    (pdFree (pdExample 1) 10 false 200).1 = some 0 ∧
      ¬(⟨pdExample 1, []⟩ : PdTable).Right (.free 10 false 200) := by
  refine ⟨⟨⟨{ pdExample 1 with pdPool := ⟨1, 2, 2, []⟩ }, [⟨10, 100⟩]⟩,
    Run.single trivial rfl, rfl, rfl, ?_⟩, rfl, ?_⟩
  · rintro ⟨list, hassign⟩
    cases hassign
  · intro hright
    have hfree : pdFree (pdExample 1) 10 false 200 = (none, pdExample 1) := hright
    cases congrArg Prod.fst hfree

end PartitionSeL4.Refos
