import PartitionSeL4.Refos.Cvector

/-!
# `cpool.c`: the ids that are handed out

`Cpool` of `DataStruct` has its free list as a list and its mark without a bound. Here the pool is
as `cpool.c` has it: the free list is a `cvector_t`, whose memory can be refused, the mark is a
`uint32_t`, and `cpool_alloc` returns 0 for no id. `VectorPool.Represents` ties the two, one lemma
for each function.

A run keeps the ids that are allocated and the ids ever handed out beside the pool. In a pool of the
ids from `start` to `end`, with 0 and the last number left out, no id is handed out twice, and there
is none only when all are allocated (`pool_ids_distinct`).

`cpool_check` takes the mark for an id that is in use. The mark is the next id to be handed out, so
that the answer is wrong for it, and for no other (`check_iff_not_mark`).
-/

namespace PartitionSeL4.Refos

open Lib

/-- `cpool_t` -/
structure VectorPool where
  start : Nat
  /-- `end` -/
  stop : Nat
  mx : Nat
  freelist : Cvector Nat
  deriving DecidableEq

namespace VectorPool

/-- `cpool_init` -/
def init (start stop : Nat) : VectorPool where
  start := start
  stop := stop
  mx := start
  freelist := Cvector.init

/-- `cpool_alloc` -/
def alloc (p : VectorPool) (granted : Bool) : Except Failure (Nat × VectorPool) := do
  let fSz := p.freelist.count
  if 0 < fSz then
    let obj ← p.freelist.get (fSz - 1 : Nat)
    let freelist ← p.freelist.delete (fSz - 1 : Nat) granted
    return (u32 obj, { p with freelist := freelist })
  if p.mx ≤ p.stop then return (p.mx, { p with mx := u32 (p.mx + 1) })
  return (0, p)

/-- `cpool_free` -/
def free (p : VectorPool) (obj : Nat) (granted : Bool) : Except Failure VectorPool := do
  if obj < p.start ∨ p.stop < obj ∨ p.mx ≤ obj then return p
  -- the guard above excludes this
  if obj = p.mx then return { p with mx := u32 (obj + 2 ^ 32 - 1) }
  let (_, freelist) ← p.freelist.add obj granted
  return { p with freelist := freelist }

/-- `cpool_check` -/
def check (p : VectorPool) (obj : Nat) : Except Failure Bool :=
  if obj < p.start ∨ p.stop < obj then .ok false
  else if p.mx < obj then .ok true
  else (List.range' 0 p.freelist.count).anyM fun (i : Nat) => do
    let x ← p.freelist.get i
    return u32 x == obj

/-- There is an id to hand out. The result of `cpool_alloc` does not tell where 0 is an id. -/
def HasId (p : VectorPool) : Prop := 0 < p.freelist.count ∨ p.mx ≤ p.stop

instance (p : VectorPool) : Decidable p.HasId := inferInstanceAs (Decidable (_ ∨ _))

/-- The last number there is comes next, and the mark begins again at 0 behind it. -/
def Wraps (p : VectorPool) : Prop :=
  p.freelist.count = 0 ∧ p.mx ≤ p.stop ∧ p.mx + 1 = 2 ^ 32

instance (p : VectorPool) : Decidable p.Wraps := inferInstanceAs (Decidable (_ ∧ _ ∧ _))

/-! ## The pool with a list -/

/-- The pool is the one with a list, and its numbers are words. -/
structure Represents (p : VectorPool) (q : Cpool) : Prop where
  start : p.start = q.start
  stop : p.stop = q.stop
  mx : p.mx = q.mx
  freelist : p.freelist.Holds q.freelist
  mx_lt : q.mx < 2 ^ 32
  tidy : q.Tidy

variable {p : VectorPool} {q : Cpool} {obj : Nat}

theorem represents_init {start : Nat} (hlt : start < 2 ^ 32) (stop : Nat) :
    (init start stop).Represents (Cpool.init start stop) :=
  ⟨rfl, rfl, rfl, Cvector.Holds.init, hlt, Cpool.Tidy.init start stop⟩

theorem Represents.id_lt (h : p.Represents q) (hobj : obj ∈ q.freelist) : obj < 2 ^ 32 :=
  Nat.lt_trans (h.tidy.used obj hobj).2 h.mx_lt

/-- `cpool_alloc` did what the pool with a list does: it handed out an id, or there was none. -/
def Allocates (p : VectorPool) (q : Cpool) (r : Nat × VectorPool) : Prop :=
  (p.HasId ∧ ∃ q', q.alloc = some (r.1, q') ∧ r.2.Represents q') ∨
    ¬p.HasId ∧ q.alloc = none ∧ r = (0, p)

theorem Represents.alloc_freed (h : p.Represents q) {rest : List Nat} {id : Nat}
    (hrest : q.freelist = rest ++ [id]) (granted : Bool) :
    Settles .assertion (granted = true) (p.alloc granted) (p.Allocates q) := by
  have hheld := h.freelist
  have hcount := hheld.count
  have halloc : q.alloc = some (id, { q with freelist := rest }) := by
    simp [Cpool.alloc, hrest]
  have hidLt : u32 id = id := u32_of_lt (h.id_lt (by simp [hrest]))
  rw [hrest] at hheld hcount
  simp only [List.length_append, List.length_singleton] at hcount
  have hpos : 0 < p.freelist.count := by omega
  have hlast : p.freelist.count - 1 = rest.length := by omega
  have hin : rest.length < (rest ++ [id]).length := by simp
  have hget : p.freelist.get (rest.length : Nat) = .ok id := by
    rw [hheld.get hin]
    simp
  have herase : (rest ++ [id]).eraseIdx rest.length = rest := by
    rw [List.eraseIdx_append_of_length_le (Nat.le_refl _)]
    simp
  simp only [VectorPool.alloc, if_pos hpos, hlast, hget]
  refine (hheld.delete hin granted).bind fun v hv => ?_
  rw [herase] at hv
  refine Settles.ok (Or.inl ⟨Or.inl hpos, { q with freelist := rest }, ?_, ?_⟩)
  · rw [hidLt]
    exact halloc
  · exact ⟨h.start, h.stop, h.mx, hv, h.mx_lt, (h.tidy.alloc halloc).1⟩

theorem Represents.alloc_mark (h : p.Represents q) (hnil : q.freelist = []) (hwrap : ¬p.Wraps)
    (granted : Bool) :
    Settles .assertion (granted = true) (p.alloc granted) (p.Allocates q) := by
  have hcount := h.freelist.count
  rw [hnil] at hcount
  have hempty : ¬0 < p.freelist.count := by
    rw [hcount]
    exact Nat.lt_irrefl 0
  have hmx := h.mx
  have hstop := h.stop
  by_cases hle : p.mx ≤ p.stop
  · have halloc : q.alloc = some (q.mx, { q with mx := q.mx + 1 }) := by
      simp [Cpool.alloc, hnil, hmx ▸ hstop ▸ hle]
    have hnext : q.mx + 1 < 2 ^ 32 := by
      rcases Nat.lt_or_ge (q.mx + 1) (2 ^ 32) with hlt | hge
      · exact hlt
      · have hlt := h.mx_lt
        exact absurd ⟨hcount, hle, by omega⟩ hwrap
    have hword : u32 (p.mx + 1) = q.mx + 1 := by rw [hmx, u32_of_lt hnext]
    simp only [VectorPool.alloc, if_neg hempty, if_pos hle, hword]
    refine Settles.ok (Or.inl ⟨Or.inr hle, { q with mx := q.mx + 1 }, ?_, ?_⟩)
    · rw [hmx]
      exact halloc
    · exact ⟨h.start, hstop, rfl, h.freelist, hnext, (h.tidy.alloc halloc).1⟩
  · simp only [VectorPool.alloc, if_neg hempty, if_neg hle]
    refine Settles.ok (Or.inr ⟨fun hid => hid.elim hempty hle, ?_, rfl⟩)
    simp [Cpool.alloc, hnil, hmx ▸ hstop ▸ hle]

theorem Represents.alloc (h : p.Represents q) (hwrap : ¬p.Wraps) (granted : Bool) :
    Settles .assertion (granted = true) (p.alloc granted) (p.Allocates q) := by
  cases hlast : q.freelist.getLast? with
  | some id =>
      obtain ⟨rest, hrest⟩ := List.getLast?_eq_some_iff.1 hlast
      exact h.alloc_freed hrest granted
  | none => exact h.alloc_mark (List.getLast?_eq_none_iff.1 hlast) hwrap granted

/-- `cpool_free` puts an id that is in use at the end of the free list. -/
theorem Represents.free (h : p.Represents q) (hlive : q.Live obj) (granted : Bool) :
    Settles .assertion (p.freelist.Grants granted) (p.free obj granted)
      (·.Represents (q.free obj)) := by
  have hle := h.tidy.le_stop hlive.1 hlive.2.1
  have hrange : ¬(obj < p.start ∨ p.stop < obj ∨ p.mx ≤ obj) := by
    rw [h.start, h.stop, h.mx]
    have := hlive.1
    have := hlive.2.1
    omega
  have hne : obj ≠ p.mx := fun heq => hrange (Or.inr (Or.inr (Nat.le_of_eq heq.symm)))
  simp only [VectorPool.free, if_neg hrange, if_neg hne]
  refine (h.freelist.add obj granted).bind fun r ⟨_, hheld⟩ => Settles.ok ?_
  have htidy := (h.tidy.free hlive).1
  rw [h.tidy.free_eq hlive] at htidy ⊢
  exact ⟨h.start, h.stop, h.mx, hheld, h.mx_lt, htidy⟩

/-- Nothing is done with a number outside the interval or one not handed out yet. -/
theorem free_outside (hobj : obj < p.start ∨ p.stop < obj ∨ p.mx ≤ obj) (granted : Bool) :
    p.free obj granted = .ok p := by
  simp only [VectorPool.free, if_pos hobj]
  rfl

theorem anyM_get {v : Cvector Nat} {xs : List Nat} (h : v.Holds xs) (hlt : ∀ x ∈ xs, x < 2 ^ 32)
    (obj : Nat) :
    ((List.range' 0 xs.length).anyM fun (i : Nat) => do
      let x ← v.get i
      return u32 x == obj) = Except.ok (xs.contains obj) := by
  rw [anyM_ok (g := fun i => xs[i]? == some obj)]
  · refine congrArg Except.ok (Bool.eq_iff_iff.2 ?_)
    rw [List.any_eq_true, List.contains_iff_mem, List.mem_iff_getElem?]
    constructor
    · rintro ⟨i, -, hi⟩
      exact ⟨i, beq_iff_eq.1 hi⟩
    · rintro ⟨i, hi⟩
      obtain ⟨hin, -⟩ := List.getElem?_eq_some_iff.1 hi
      exact ⟨i, List.mem_range'_1.2 ⟨Nat.zero_le i, by omega⟩, beq_iff_eq.2 hi⟩
  · intro i hi
    have hin : i < xs.length := by
      have := (List.mem_range'_1.1 hi).2
      omega
    have hword : u32 xs[i] = xs[i] := u32_of_lt (hlt _ (List.getElem_mem hin))
    simp only [h.get hin, bind, Except.bind, pure, Except.pure, hword,
      List.getElem?_eq_getElem hin]
    rfl

theorem Represents.check (h : p.Represents q) (obj : Nat) : p.check obj = .ok (q.check obj) := by
  have hloop := anyM_get h.freelist (fun x hx => h.id_lt hx) obj
  rw [VectorPool.check, Cpool.check, h.start, h.stop, h.mx, h.freelist.count, hloop]
  split_ifs <;> rfl

end VectorPool

/-! ## Runs -/

/-- A pool, the ids that are allocated, and all that have been handed out. -/
structure PoolRun where
  pool : VectorPool
  allocated : List Nat
  handedOut : List Nat
  deriving DecidableEq

/-- A call, and whether the heap has the memory that it asks for. -/
inductive PoolCall where
  | alloc (granted : Bool)
  | free (obj : Nat) (granted : Bool)
  deriving DecidableEq

/-- After `cpool_init`. -/
def PoolRun.init (start stop : Nat) : PoolRun := ⟨VectorPool.init start stop, [], []⟩

/-- One call. -/
def poolStep (w : PoolRun) : PoolCall → Except Failure PoolRun
  | .alloc granted => do
      let (id, pool) ← w.pool.alloc granted
      if w.pool.HasId then return ⟨pool, id :: w.allocated, id :: w.handedOut⟩
      return { w with pool := pool }
  | .free obj granted => do
      let pool ← w.pool.free obj granted
      return { w with pool := pool, allocated := w.allocated.erase obj }

/-- An allocated id is given back, or a number the pool has nothing to do with. -/
def PoolCall.FreesOwn (w : PoolRun) : PoolCall → Prop
  | .alloc _ => True
  | .free obj _ =>
      obj ∈ w.allocated ∨ obj < w.pool.start ∨ w.pool.stop < obj ∨ obj ∉ w.handedOut

instance (w : PoolRun) (call : PoolCall) : Decidable (call.FreesOwn w) := by
  cases call <;> unfold PoolCall.FreesOwn <;> infer_instance

/-- The mark does not begin again at 0. -/
def PoolCall.InWord (w : PoolRun) : PoolCall → Prop
  | .alloc _ => ¬w.pool.Wraps
  | .free _ _ => True

instance (w : PoolRun) (call : PoolCall) : Decidable (call.InWord w) := by
  cases call <;> unfold PoolCall.InWord <;> infer_instance

/-- What the calls keep: the ids that are allocated are those live in the pool with a list. -/
structure PoolRun.Ok (w : PoolRun) (q : Cpool) : Prop where
  represents : w.pool.Represents q
  nodup : w.allocated.Nodup
  live : ∀ id, id ∈ w.allocated ↔ q.Live id
  handed : ∀ id, id ∈ w.handedOut ↔ q.start ≤ id ∧ id < q.mx
  /-- An id of the interval is allocated or left. -/
  total : w.allocated.length + q.left = q.stop + 1 - q.start

variable {w u : PoolRun} {p q : Cpool} {start stop : Nat} {calls : List PoolCall}

theorem PoolRun.Ok.init (hstart : start < 2 ^ 32) (stop : Nat) :
    (PoolRun.init start stop).Ok (Cpool.init start stop) := by
  refine ⟨VectorPool.represents_init hstart stop, List.nodup_nil, fun id => ?_, fun id => ?_, ?_⟩
  · simp only [PoolRun.init, Cpool.init, Cpool.Live, List.not_mem_nil, false_iff]
    omega
  · simp only [PoolRun.init, Cpool.init, List.not_mem_nil, false_iff]
    omega
  · show 0 + (0 + (stop + 1 - start)) = stop + 1 - start
    omega

/-- The pool stays in order, and the same pool. -/
def PoolRun.Next (q : Cpool) (u : PoolRun) : Prop :=
  ∃ q', u.Ok q' ∧ q'.start = q.start ∧ q'.stop = q.stop

theorem PoolRun.Ok.alloc (h : w.Ok q) (hwrap : ¬w.pool.Wraps) (granted : Bool) :
    Settles .assertion (granted = true) (poolStep w (.alloc granted)) (PoolRun.Next q) := by
  refine (h.represents.alloc hwrap granted).bind ?_
  rintro ⟨id, p'⟩ (⟨hid, q', halloc, hrep⟩ | ⟨hid, -, heq⟩)
  · obtain ⟨-, hstart, hstop, hfresh, hrange, hlive⟩ := h.represents.tidy.alloc halloc
    have hleft := Cpool.left_of_alloc halloc
    simp only [if_pos hid]
    refine Settles.ok ⟨q', ⟨hrep, ?_, ?_, ?_, ?_⟩, hstart, hstop⟩
    · exact List.nodup_cons.2 ⟨fun hmem => hfresh ((h.live id).1 hmem), h.nodup⟩
    · intro i
      rw [List.mem_cons, h.live, hlive]
    · intro i
      rw [List.mem_cons, h.handed, hstart]
      rcases Cpool.alloc_cases halloc with ⟨rest, hrest, rfl⟩ | ⟨-, rfl, -, rfl⟩
      · have hused := h.represents.tidy.used id (by simp [hrest])
        show i = id ∨ q.start ≤ i ∧ i < q.mx ↔ q.start ≤ i ∧ i < q.mx
        omega
      · show i = q.mx ∨ _ ↔ q.start ≤ i ∧ i < q.mx + 1
        omega
    · have htotal := h.total
      rw [List.length_cons, hstart, hstop]
      omega
  · cases heq
    simp only [if_neg hid]
    exact Settles.ok ⟨q, h, rfl, rfl⟩

theorem PoolRun.Ok.free {obj : Nat} (h : w.Ok q) (hobj : obj ∈ w.allocated) (granted : Bool) :
    Settles .assertion (w.pool.freelist.Grants granted) (poolStep w (.free obj granted))
      (PoolRun.Next q) := by
  have hlive := (h.live obj).1 hobj
  obtain ⟨-, hstart, hstop, hiff⟩ := h.represents.tidy.free hlive
  have hleft := h.represents.tidy.left_free hlive
  refine (h.represents.free hlive granted).bind fun p' hrep =>
    Settles.ok ⟨q.free obj, ⟨hrep, h.nodup.erase obj, ?_, ?_, ?_⟩, hstart, hstop⟩
  · intro i
    rw [h.nodup.mem_erase_iff, h.live, hiff]
  · intro i
    rw [h.handed, hstart, Cpool.free_mx]
  · have htotal := h.total
    have hpos := List.length_pos_of_mem hobj
    rw [List.length_erase_of_mem hobj, hstart, hstop]
    omega

theorem PoolRun.Ok.free_other {obj : Nat} (h : w.Ok q)
    (hobj : obj < w.pool.start ∨ w.pool.stop < obj ∨ obj ∉ w.handedOut) (granted : Bool) :
    w.pool.free obj granted = .ok w.pool ∧ poolStep w (.free obj granted) = .ok w := by
  have hout : obj < w.pool.start ∨ w.pool.stop < obj ∨ w.pool.mx ≤ obj := by
    rcases hobj with hlow | hhigh | hnew
    · exact Or.inl hlow
    · exact Or.inr (Or.inl hhigh)
    · rw [h.handed, ← h.represents.start, ← h.represents.mx] at hnew
      omega
  have hnot : obj ∉ w.allocated := by
    intro hmem
    have hlive := (h.live obj).1 hmem
    have hle := h.represents.tidy.le_stop hlive.1 hlive.2.1
    rw [h.represents.start, h.represents.stop, h.represents.mx] at hout
    have := hlive.1
    have := hlive.2.1
    omega
  have hsame := VectorPool.free_outside hout granted
  refine ⟨hsame, ?_⟩
  rw [poolStep, hsame, List.erase_of_not_mem hnot]
  rfl

/-- The memory that a call asks for, if any, is granted. -/
def PoolCall.Granted (w : PoolRun) : PoolCall → Prop
  | .alloc granted => granted = true
  | .free _ granted => w.pool.freelist.Grants granted

/-- One call keeps the pool in order, or ends in an assertion because memory was refused. -/
theorem poolStep_spec (h : w.Ok q) {call : PoolCall} (hown : call.FreesOwn w)
    (hword : call.InWord w) :
    Settles .assertion (call.Granted w) (poolStep w call) (PoolRun.Next q) := by
  cases call with
  | alloc granted => exact h.alloc hword granted
  | free obj granted =>
      rcases hown with hmem | hother
      · exact h.free hmem granted
      · exact Settles.of_eq_ok (h.free_other hother granted).2 ⟨q, h, rfl, rfl⟩

theorem pool_run_ok {admits : PoolRun → PoolCall → Prop} (hstart : start < 2 ^ 32)
    (hadmits : ∀ t call, t.pool.stop = stop → admits t call → call.FreesOwn t ∧ call.InWord t)
    (h : Run poolStep admits (.init start stop) calls w) :
    ∃ q, w.Ok q ∧ q.start = start ∧ q.stop = stop := by
  refine h.invariant (I := fun w => ∃ q, w.Ok q ∧ q.start = start ∧ q.stop = stop)
    ⟨_, PoolRun.Ok.init hstart stop, rfl, rfl⟩ ?_
  rintro t call u ⟨q, hq, hqstart, hqstop⟩ hadm hstep
  obtain ⟨hown, hword⟩ := hadmits t call (hq.represents.stop.trans hqstop) hadm
  obtain ⟨q', hok, hstart', hstop'⟩ := (poolStep_spec hq hown hword).of_ok hstep
  exact ⟨q', hok, hstart'.trans hqstart, hstop'.trans hqstop⟩

/-- Without the last number, the mark never begins again. -/
theorem inWord_of_stop_lt {call : PoolCall} (hlt : w.pool.stop + 1 < 2 ^ 32) : call.InWord w := by
  cases call with
  | alloc granted =>
      rintro ⟨-, hle, hmx⟩
      omega
  | free obj granted => trivial

/-- The ids that are allocated are different ones of the interval, `cpool_alloc` returns 0 if and
only if all of them are allocated, and `cpool_free` does nothing with other numbers. No call ends in
a fault, and one that gets its memory returns. -/
theorem pool_ids_distinct (hpos : 0 < start) (hle : start ≤ stop) (hlt : stop + 1 < 2 ^ 32)
    (h : Run poolStep (fun w call => call.FreesOwn w) (.init start stop) calls w) :
    w.allocated.Nodup ∧ (∀ id ∈ w.allocated, start ≤ id ∧ id ≤ stop) ∧
      (∀ granted id p, w.pool.alloc granted = .ok (id, p) →
        (id = 0 ↔ w.allocated.length = stop - start + 1)) ∧
      (∀ obj granted, obj < start ∨ stop < obj ∨ obj ∉ w.handedOut →
        w.pool.free obj granted = .ok w.pool) ∧
      ∀ call : PoolCall, call.FreesOwn w →
        poolStep w call ≠ .error .fault ∧ (call.Granted w → ∃ u, poolStep w call = .ok u) := by
  obtain ⟨q, hq, rfl, rfl⟩ := pool_run_ok (by omega)
    (fun t call hstop hown => ⟨hown, inWord_of_stop_lt (hstop ▸ hlt)⟩) h
  have hstop := hq.represents.stop
  have hword : ∀ call : PoolCall, call.InWord w := fun call => inWord_of_stop_lt (hstop ▸ hlt)
  refine ⟨hq.nodup, fun id hid => ?_, fun granted id p halloc => ?_, fun obj granted hobj => ?_,
    fun call hown => ?_⟩
  · have hlive := (hq.live id).1 hid
    exact ⟨hlive.1, hq.represents.tidy.le_stop hlive.1 hlive.2.1⟩
  · have htotal := hq.total
    rcases (hq.represents.alloc (hword (.alloc granted)) granted).of_ok halloc with
      ⟨-, q', hsome, -⟩ | ⟨-, hnone, heq⟩
    · have hleft := Cpool.left_of_alloc hsome
      have hrange := (hq.represents.tidy.alloc hsome).2.2.2.2.1
      omega
    · cases heq
      obtain ⟨hnil, hmx⟩ := Cpool.of_alloc_none hnone
      have hleft : q.left = 0 := by
        simp only [Cpool.left, hnil, List.length_nil]
        omega
      omega
  · rw [← hq.represents.start, ← hstop] at hobj
    exact (hq.free_other hobj granted).1
  · have hspec := poolStep_spec hq hown (hword call)
    refine ⟨hspec.ne_error (by decide), fun hgranted => ?_⟩
    obtain ⟨u, hu, -⟩ := hspec.exists_ok hgranted
    exact ⟨u, hu⟩

/-- All three ids are handed out, one of them is given back twice and the others are not touched. -/
theorem pool_ids_distinct_three :
    ∃ w, Run poolStep (fun w call => call.FreesOwn w) (.init 1 3)
        [.alloc true, .alloc true, .free 1 true, .free 3 true, .free 7 true, .alloc true,
          .alloc true] w ∧
      w.allocated = [3, 1, 2] ∧
      ∀ granted id p, w.pool.alloc granted = .ok (id, p) → (id = 0 ↔ w.allocated.length = 3) := by
  obtain ⟨w, hrun, hw⟩ := Run.exists_of_exec (P := fun w : PoolRun => w.allocated = [3, 1, 2])
    (show ((Run.exec poolStep (fun w call => call.FreesOwn w)
      [.alloc true, .alloc true, .free 1 true, .free 3 true, .free 7 true, .alloc true,
        .alloc true] (.init 1 3)).any fun w => w.allocated = [3, 1, 2]) = true by decide +kernel)
  exact ⟨w, hrun, hw, (pool_ids_distinct (by decide) (by decide) (by decide) hrun).2.2.1⟩

/-! ## `cpool_check` -/

/-- In the pool with a list: below the mark the free list decides, above it everything is free. -/
theorem Cpool.Tidy.check_iff (h : p.Tidy) {obj : Nat} :
    (p.check obj = true ↔ p.start ≤ obj ∧ obj ≤ p.stop ∧ ¬p.Live obj) ↔
      ¬(obj = p.mx ∧ obj ≤ p.stop) := by
  have hstart := h.start_le
  have hused := h.used obj
  rw [Cpool.check, Cpool.Live]
  split_ifs with hout habove
  · refine iff_of_true (iff_of_false not_false ?_) (by omega)
    rintro ⟨hlow, hhigh, -⟩
    omega
  · refine iff_of_true (iff_of_true rfl ⟨by omega, by omega, ?_⟩) (by omega)
    rintro ⟨-, hbelow, -⟩
    omega
  · rw [List.contains_iff_mem]
    by_cases hfree : obj ∈ p.freelist
    · have hbelow := hused hfree
      exact iff_of_true (iff_of_true hfree ⟨by omega, by omega, fun hlive => hlive.2.2 hfree⟩)
        (by omega)
    · -- not in the free list: in use, if it is below the mark
      simp only [hfree, not_false_eq_true, and_true, false_iff]
      omega

/-- `cpool_check` returns, and its answer is right if and only if it is not asked about the mark,
the next id never handed out. -/
theorem check_iff_not_mark (hstart : start < 2 ^ 32)
    (h : Run poolStep (fun w call => call.FreesOwn w ∧ call.InWord w) (.init start stop) calls w)
    (obj : Nat) :
    ∃ free, w.pool.check obj = .ok free ∧
      ((free = true ↔ start ≤ obj ∧ obj ≤ stop ∧ obj ∉ w.allocated) ↔
        ¬(obj = w.pool.mx ∧ obj ≤ stop)) := by
  obtain ⟨q, hq, rfl, rfl⟩ := pool_run_ok hstart (fun _ _ _ hadm => hadm) h
  refine ⟨q.check obj, hq.represents.check obj, ?_⟩
  rw [hq.live, hq.represents.mx]
  exact hq.represents.tidy.check_iff

/-- Two ids are handed out and one is given back: the answers about 1, 2 and 4 are right. -/
theorem check_iff_not_mark_two :
    ∃ w, Run poolStep (fun w call => call.FreesOwn w ∧ call.InWord w) (.init 1 10)
        [.alloc true, .alloc true, .free 1 true] w ∧
      ∀ obj ∈ [1, 2, 4], ∃ free, w.pool.check obj = .ok free ∧
        (free = true ↔ 1 ≤ obj ∧ obj ≤ 10 ∧ obj ∉ w.allocated) := by
  obtain ⟨w, hrun, hmx⟩ := Run.exists_of_exec (P := fun w : PoolRun => w.pool.mx = 3)
    (show ((Run.exec poolStep (fun w call => call.FreesOwn w ∧ call.InWord w)
      [.alloc true, .alloc true, .free 1 true] (.init 1 10)).any
        fun w => w.pool.mx = 3) = true by decide +kernel)
  refine ⟨w, hrun, fun obj hobj => ?_⟩
  obtain ⟨free, hfree, hiff⟩ := check_iff_not_mark (by decide) hrun obj
  refine ⟨free, hfree, hiff.2 ?_⟩
  rw [hmx]
  rintro ⟨rfl, -⟩
  simp at hobj

/-- In a new pool the first id is not free, although it is the one that `cpool_alloc` hands out. In
a pool of the last number alone, this is free once it has been handed out. -/
theorem check_wrong_at_mark :
    (∃ w, Run poolStep (fun w call => call.FreesOwn w) (.init 1 10) [] w ∧
      w.allocated = [] ∧ w.pool.check 1 = .ok false ∧
      w.pool.alloc true = .ok (1, { w.pool with mx := 2 })) ∧
    ∃ w, Run poolStep (fun w call => call.FreesOwn w) (.init (2 ^ 32 - 1) (2 ^ 32 - 1))
        [.alloc true] w ∧
      w.allocated = [2 ^ 32 - 1] ∧ w.pool.check (2 ^ 32 - 1) = .ok true := by
  refine ⟨⟨_, .nil, rfl, rfl, rfl⟩, _, .single trivial rfl, rfl, rfl⟩

end PartitionSeL4.Refos
