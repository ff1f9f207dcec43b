import PartitionSeL4.Data
import Mathlib.Algebra.Group.Int.Defs
import Mathlib.Data.List.Nodup

/-!
# `libdatastruct`: id pools, object allocation tables, queues and bitmaps

A `cpool_t` hands out the ids of an interval: from its free list, the last one freed first, and
otherwise the next one never used. A `coat_t` is a pool with a table of objects. Dataspaces, windows
and client sessions are all kept in such tables.

`Coat.Ok` is what the operations keep: an id is live, or free, or not yet used, and the live ones
are those with an object. A new object therefore never replaces another
(`Coat.Ok.of_alloc_some`). The id `end` is handed out by the pool, but `coat_get` refuses it.

A `cqueue_t` is a ring with an index one past the newest item and a count. `Cqueue.items` lists what
is in it, the oldest first.

A `cbpool_t` is a bitmap. It hands out the lowest run of free objects that is long enough
(`Cbpool.alloc_spec`, `Cbpool.alloc_least`). Freeing objects up to the end of the bitmap leaves out
the last one.
-/

namespace PartitionSeL4.Refos

/-- An `int` where it is compared with an unsigned number. -/
def word (i : Int) : Nat := (i % 2 ^ 32).toNat

/-- A value stored in an `int32_t`. -/
def i32 (x : Int) : Int := x.bmod (2 ^ 32)

theorem i32_eq {x : Int} (hlo : -2 ^ 31 ≤ x) (hhi : x < 2 ^ 31) : i32 x = x := by
  rw [i32, Int.bmod_eq_of_le] <;> omega

/-! ## `cpool.c` -/

/-- `cpool_t` -/
structure Cpool where
  start : Nat
  /-- `end` -/
  stop : Nat
  mx : Nat
  freelist : List Nat
  deriving DecidableEq, Repr

namespace Cpool

/-- `cpool_init` -/
def init (start stop : Nat) : Cpool where
  start := start
  stop := stop
  mx := start
  freelist := []

/-- `cpool_alloc`; its result 0 is `none`. -/
def alloc (p : Cpool) : Option (Nat × Cpool) :=
  match p.freelist.getLast? with
  | some obj => some (obj, { p with freelist := p.freelist.dropLast })
  | none => if p.mx ≤ p.stop then some (p.mx, { p with mx := p.mx + 1 }) else none

/-- `cpool_free`. The branch for `obj == p->mx` comes after a guard that excludes it. -/
def free (p : Cpool) (obj : Nat) : Cpool :=
  if obj < p.start ∨ p.stop < obj ∨ p.mx ≤ obj then p
  else { p with freelist := p.freelist ++ [obj] }

/-- `cpool_check`: whether an id is free. -/
def check (p : Cpool) (obj : Nat) : Bool :=
  if obj < p.start ∨ p.stop < obj then false
  else if p.mx < obj then true
  else p.freelist.contains obj

/-- The ids handed out and not freed. -/
def Live (p : Cpool) (id : Nat) : Prop := p.start ≤ id ∧ id < p.mx ∧ id ∉ p.freelist

instance (p : Cpool) (id : Nat) : Decidable (p.Live id) := inferInstanceAs (Decidable (_ ∧ _ ∧ _))

/-- What the operations of a pool keep, whatever its interval: the free list has no duplicates, and
all of it is below the mark. -/
structure Tidy (p : Cpool) : Prop where
  start_le : p.start ≤ p.mx
  mx_le : p.mx ≤ max p.start (p.stop + 1)
  nodup : p.freelist.Nodup
  used : ∀ id ∈ p.freelist, p.start ≤ id ∧ id < p.mx

/-- What the operations of a pool of ids from 1 on keep. -/
structure Ok (p : Cpool) : Prop where
  start_pos : 0 < p.start
  start_le : p.start ≤ p.mx
  mx_le : p.mx ≤ p.stop + 1
  nodup : p.freelist.Nodup
  used : ∀ id ∈ p.freelist, p.start ≤ id ∧ id < p.mx

variable {p q : Cpool} {id i : Nat}

theorem Ok.init {start stop : Nat} (hpos : 0 < start) (hle : start ≤ stop + 1) :
    (Cpool.init start stop).Ok :=
  ⟨hpos, Nat.le_refl _, hle, List.nodup_nil, by simp [Cpool.init]⟩

/-- An id comes from the end of the free list, or, where the list is empty, it is the next one. -/
theorem alloc_cases (halloc : p.alloc = some (id, q)) :
    (∃ rest, p.freelist = rest ++ [id] ∧ q = { p with freelist := rest }) ∨
      p.freelist = [] ∧ id = p.mx ∧ p.mx ≤ p.stop ∧ q = { p with mx := p.mx + 1 } := by
  rw [Cpool.alloc] at halloc
  cases hlast : p.freelist.getLast? with
  | some obj =>
      simp only [hlast, Option.some.injEq, Prod.mk.injEq] at halloc
      obtain ⟨rfl, rfl⟩ := halloc
      obtain ⟨rest, hrest⟩ := List.getLast?_eq_some_iff.1 hlast
      refine Or.inl ⟨rest, hrest, ?_⟩
      simp [hrest]
  | none =>
      simp only [hlast] at halloc
      split_ifs at halloc with hmx
      obtain ⟨rfl, rfl⟩ := Prod.mk.inj (Option.some.inj halloc)
      exact Or.inr ⟨List.getLast?_eq_none_iff.1 hlast, rfl, hmx, rfl⟩

theorem of_alloc_none (halloc : p.alloc = none) : p.freelist = [] ∧ p.stop < p.mx := by
  rw [Cpool.alloc] at halloc
  cases hlast : p.freelist.getLast? with
  | some obj => simp [hlast] at halloc
  | none =>
      simp only [hlast] at halloc
      split_ifs at halloc with hmx
      exact ⟨List.getLast?_eq_none_iff.1 hlast, Nat.lt_of_not_le hmx⟩

theorem Ok.tidy (h : p.Ok) : p.Tidy :=
  ⟨h.start_le, Nat.le_trans h.mx_le (Nat.le_max_right _ _), h.nodup, h.used⟩

theorem Tidy.ok (h : p.Tidy) (hpos : 0 < p.start) (hle : p.start ≤ p.stop + 1) : p.Ok :=
  ⟨hpos, h.start_le, Nat.max_eq_right hle ▸ h.mx_le, h.nodup, h.used⟩

theorem Tidy.init (start stop : Nat) : (Cpool.init start stop).Tidy :=
  ⟨Nat.le_refl _, Nat.le_max_left _ _, List.nodup_nil, by simp [Cpool.init]⟩

theorem Tidy.le_stop (h : p.Tidy) (hstart : p.start ≤ id) (hlt : id < p.mx) : id ≤ p.stop := by
  have hmx := h.mx_le
  omega

/-- An id handed out was not live, and is now the only new one. -/
theorem Tidy.alloc (h : p.Tidy) (halloc : p.alloc = some (id, q)) :
    q.Tidy ∧ q.start = p.start ∧ q.stop = p.stop ∧ ¬p.Live id ∧ (p.start ≤ id ∧ id ≤ p.stop) ∧
      ∀ i, q.Live i ↔ i = id ∨ p.Live i := by
  obtain ⟨rest, hrest, rfl⟩ | ⟨hnil, rfl, hmx, rfl⟩ := alloc_cases halloc
  · have hmem : id ∈ p.freelist := by simp [hrest]
    have hrange := h.used id hmem
    have hnodup := h.nodup
    rw [hrest, ← List.concat_eq_append, List.nodup_concat] at hnodup
    obtain ⟨hnotin, hrestNodup⟩ := hnodup
    refine ⟨⟨h.start_le, h.mx_le, hrestNodup, fun i hi => ?_⟩, rfl, rfl,
      fun hlive => hlive.2.2 hmem, ⟨hrange.1, h.le_stop hrange.1 hrange.2⟩, fun i => ?_⟩
    · exact h.used i (by simp [hrest, hi])
    · simp only [Live, hrest, List.mem_append, List.mem_singleton]
      by_cases hi : i = id
      · subst hi
        simpa [hrange] using hnotin
      · simp [hi]
  · have hstart := h.start_le
    refine ⟨⟨Nat.le_succ_of_le hstart, ?_, h.nodup, fun i hi => ?_⟩,
      rfl, rfl, fun hlive => absurd hlive.2.1 (Nat.lt_irrefl _), ⟨hstart, hmx⟩, fun i => ?_⟩
    · exact Nat.le_trans (Nat.succ_le_succ hmx) (Nat.le_max_right _ _)
    · simp [hnil] at hi
    · simp only [Live, hnil, List.not_mem_nil, not_false_eq_true, and_true]
      omega

theorem Ok.alloc (h : p.Ok) (halloc : p.alloc = some (id, q)) :
    q.Ok ∧ q.start = p.start ∧ q.stop = p.stop ∧ ¬p.Live id ∧ (p.start ≤ id ∧ id ≤ p.stop) ∧
      ∀ i, q.Live i ↔ i = id ∨ p.Live i := by
  obtain ⟨htidy, hstart, hstop, hfresh, hrange, hlive⟩ := h.tidy.alloc halloc
  have hpos := h.start_pos
  exact ⟨htidy.ok (by omega) (by omega), hstart, hstop, hfresh, hrange, hlive⟩

/-- An id that is live goes to the end of the free list. -/
theorem Tidy.free_eq (h : p.Tidy) (hlive : p.Live id) :
    p.free id = { p with freelist := p.freelist ++ [id] } := by
  have hle := h.le_stop hlive.1 hlive.2.1
  obtain ⟨hstart, hlt, -⟩ := hlive
  rw [Cpool.free, if_neg (by omega)]

theorem Tidy.free (h : p.Tidy) (hlive : p.Live id) :
    (p.free id).Tidy ∧ (p.free id).start = p.start ∧ (p.free id).stop = p.stop ∧
      ∀ i, (p.free id).Live i ↔ i ≠ id ∧ p.Live i := by
  rw [h.free_eq hlive]
  obtain ⟨hstart, hlt, hnot⟩ := hlive
  refine ⟨⟨h.start_le, h.mx_le, ?_, ?_⟩, rfl, rfl, ?_⟩
  · show (p.freelist ++ [id]).Nodup
    rw [← List.concat_eq_append]
    exact h.nodup.concat hnot
  · intro i hi
    rcases List.mem_append.1 hi with hi | hi
    · exact h.used i hi
    · rw [List.mem_singleton.1 hi]
      exact ⟨hstart, hlt⟩
  · intro i
    simp only [Live, List.mem_append, List.mem_singleton]
    tauto

theorem Ok.free (h : p.Ok) (hlive : p.Live id) :
    (p.free id).Ok ∧ (p.free id).start = p.start ∧ (p.free id).stop = p.stop ∧
      ∀ i, (p.free id).Live i ↔ i ≠ id ∧ p.Live i := by
  obtain ⟨htidy, hstart, hstop, hiff⟩ := h.tidy.free hlive
  have hpos := h.start_pos
  have hmx := h.mx_le
  have hle := h.start_le
  exact ⟨htidy.ok (by omega) (by omega), hstart, hstop, hiff⟩

theorem stop_of_alloc (halloc : p.alloc = some (id, q)) : q.stop = p.stop := by
  obtain ⟨rest, -, rfl⟩ | ⟨-, -, -, rfl⟩ := alloc_cases halloc <;> rfl

theorem mx_of_alloc (halloc : p.alloc = some (id, q)) :
    q.mx = p.mx ∨ id = p.mx ∧ q.mx = p.mx + 1 := by
  obtain ⟨rest, -, rfl⟩ | ⟨-, rfl, -, rfl⟩ := alloc_cases halloc
  · exact Or.inl rfl
  · exact Or.inr ⟨rfl, rfl⟩

@[simp] theorem free_mx (p : Cpool) (obj : Nat) : (p.free obj).mx = p.mx := by
  rw [Cpool.free]
  split_ifs <;> rfl

/-- How many ids can still be handed out. -/
def left (p : Cpool) : Nat := p.freelist.length + (p.stop + 1 - p.mx)

theorem left_of_alloc (halloc : p.alloc = some (id, q)) : q.left + 1 = p.left := by
  obtain ⟨rest, hrest, rfl⟩ | ⟨-, rfl, hmx, rfl⟩ := alloc_cases halloc
  · simp only [left, hrest, List.length_append, List.length_singleton]
    omega
  · simp only [left]
    omega

theorem Tidy.left_free (h : p.Tidy) (hlive : p.Live id) : (p.free id).left = p.left + 1 := by
  rw [h.free_eq hlive]
  simp only [left, List.length_append, List.length_singleton]
  omega

theorem Ok.left_free (h : p.Ok) (hlive : p.Live id) : (p.free id).left = p.left + 1 :=
  h.tidy.left_free hlive

theorem Ok.alloc_free (h : p.Ok) (hlive : p.Live id) : (p.free id).alloc = some (id, p) := by
  rw [h.tidy.free_eq hlive]
  simp [Cpool.alloc]

theorem live_of_alloc_none (halloc : p.alloc = none) (hstart : p.start ≤ i) (hstop : i ≤ p.stop) :
    p.Live i := by
  obtain ⟨hnil, hmx⟩ := of_alloc_none halloc
  exact ⟨hstart, by omega, by simp [hnil]⟩

/-- Once it has been given back, the id `end` is at the bottom of the free list. -/
def EndLast (p : Cpool) : Prop := p.stop ∈ p.freelist → p.freelist.head? = some p.stop

theorem EndLast.init (start stop : Nat) : (Cpool.init start stop).EndLast := fun h => nomatch h

theorem EndLast.alloc (hend : p.EndLast) (halloc : p.alloc = some (id, q)) : q.EndLast := by
  obtain ⟨rest, hrest, rfl⟩ | ⟨-, -, -, rfl⟩ := alloc_cases halloc
  · intro hmem
    have hhead := hend (hrest ▸ List.mem_append_left _ hmem)
    rw [hrest, List.head?_append_of_ne_nil _ (List.ne_nil_of_mem hmem)] at hhead
    exact hhead
  · exact hend

theorem EndLast.free (hend : p.EndLast) (hid : id = p.stop → p.freelist = []) :
    (p.free id).EndLast := by
  rw [Cpool.free]
  split_ifs with hrange
  · exact hend
  · intro hmem
    simp only [List.mem_append, List.mem_singleton] at hmem
    rcases hmem with hmem | hmem
    · simp [List.head?_append, hend hmem]
    · simp [hid hmem.symm, hmem]

/-- The id `end` is handed out last. -/
theorem Ok.alloc_end (h : p.Ok) (hend : p.EndLast) (halloc : p.alloc = some (p.stop, q)) :
    q.freelist = [] ∧ ∀ i, p.start ≤ i → i < p.stop → p.Live i := by
  obtain ⟨hok, _, _, _, _, hlive⟩ := h.alloc halloc
  have hmxle := h.mx_le
  have hq : q.freelist = [] ∧ q.start = p.start ∧ q.mx = p.stop + 1 := by
    obtain ⟨rest, hrest, rfl⟩ | ⟨hnil, heq, -, rfl⟩ := alloc_cases halloc
    · have hmem : p.stop ∈ p.freelist := by simp [hrest]
      have hused := h.used _ hmem
      refine ⟨?_, rfl, by show p.mx = p.stop + 1; omega⟩
      -- both ends of the free list are `end`, and it has no duplicates
      have hhead := hend hmem
      have hnodup := h.nodup
      rw [hrest] at hhead hnodup
      cases rest with
      | nil => rfl
      | cons a rest =>
          rw [List.cons_append, List.head?_cons] at hhead
          rw [List.cons_append, List.nodup_cons] at hnodup
          exact absurd (by simp [Option.some.inj hhead]) hnodup.1
    · exact ⟨hnil, rfl, congrArg Nat.succ heq.symm⟩
  obtain ⟨hnil, hstart, hmx⟩ := hq
  refine ⟨hnil, fun i hi hlt => ?_⟩
  refine ((hlive i).1 ⟨hstart ▸ hi, by omega, by simp [hnil]⟩).resolve_left (Nat.ne_of_lt hlt)

theorem Live.check_eq_false (h : p.Live id) : p.check id = false := by
  obtain ⟨_, hlt, hnot⟩ := h
  simp only [Cpool.check]
  split_ifs with hrange hmx
  · rfl
  · omega
  · simpa using hnot

end Cpool

/-! ## `coat.c` -/

/-- `coat_t`. The table is a vector that grows with null pointers, and entries past its end are not
read: a total function. -/
structure Coat (α : Type) where
  pool : Cpool
  table : Nat → Option α

namespace Coat

variable {α : Type}

/-- `coat_init` -/
def init (start stop : Nat) : Coat α where
  pool := .init start stop
  table _ := none

/-- `coat_alloc`, with `oat_create` as a parameter: the new id and its object, if any. -/
def alloc (t : Coat α) (oatCreate : Nat → Option α) : Option (Nat × α) × Coat α :=
  match t.pool.alloc with
  | none => (none, t)
  | some (id, pool) =>
      match t.table id with
      | some obj => (some (id, obj), { t with pool := pool })
      | none =>
          match oatCreate id with
          | some obj =>
              (some (id, obj), { pool := pool, table := Function.update t.table id (some obj) })
          | none => (none, { t with pool := pool.free id })

/-- `COAT_INVALID_ID` -/
def invalidID : Int := -1

/-- What `coat_alloc` returns, and the object it stores through `out_obj`, which is null before. -/
def allocID (t : Coat α) (oatCreate : Nat → Option α) : Int × Option α × Coat α :=
  match t.alloc oatCreate with
  | (none, t) => (invalidID, none, t)
  | (some (id, obj), t) => (id, some obj, t)

/-- A creation in the tables of the process server: the id is compared with a constant of the
caller, and then the object is asserted not to be null. -/
def create (t : Coat α) (callerInvalidID : Int) (oatCreate : Nat → Option α) :
    Except Failure (Option (Nat × α) × Coat α) :=
  match t.allocID oatCreate with
  | (id, obj, t) =>
      if id = callerInvalidID then .ok (none, t)
      else
        match obj with
        | none => .error .assertion
        | some obj => .ok (some (id.toNat, obj), t)

/-- `coat_get` -/
def get (t : Coat α) (id : Nat) : Option α :=
  if id < t.pool.start ∨ t.pool.stop ≤ id then none else t.table id

/-- The object that `coat_free` passes to `oat_delete`; without one it returns `-EBADF`. -/
def toDelete (t : Coat α) (id : Nat) : Option α :=
  if t.pool.check id then none else t.get id

/-- What `coat_free` does once the object is deleted. -/
def remove (t : Coat α) (id : Nat) : Coat α where
  pool := t.pool.free id
  table := Function.update t.table id none

/-- `coat_free`: the object deleted, if any, and the table. -/
def free (t : Coat α) (id : Nat) : Option α × Coat α :=
  match t.toDelete id with
  | none => (none, t)
  | some obj => (some obj, t.remove id)

/-- Write to the object of an id. -/
def set (t : Coat α) (id : Nat) (obj : α) : Coat α :=
  { t with table := Function.update t.table id (some obj) }

/-- The live ids are those with an object. -/
structure Ok (t : Coat α) : Prop where
  pool : t.pool.Ok
  live : ∀ id, (t.table id).isSome ↔ t.pool.Live id

variable {t : Coat α} {id : Nat} {obj : α}

theorem Ok.init {start stop : Nat} (hpos : 0 < start) (hle : start ≤ stop + 1) :
    (Coat.init start stop : Coat α).Ok := by
  refine ⟨.init hpos hle, fun id => ?_⟩
  simp only [Coat.init, Cpool.Live, Cpool.init]
  simp

theorem Ok.start_le (h : t.Ok) (hobj : t.table id = some obj) : t.pool.start ≤ id :=
  ((h.live id).1 (by simp [hobj])).1

theorem table_of_get (hget : t.get id = some obj) : t.table id = some obj := by
  rw [Coat.get] at hget
  split_ifs at hget
  exact hget

theorem table_of_toDelete (hdelete : t.toDelete id = some obj) : t.table id = some obj := by
  rw [Coat.toDelete] at hdelete
  split_ifs at hdelete
  exact table_of_get hdelete

theorem Ok.get_eq (h : t.Ok) (hlt : id < t.pool.stop) : t.get id = t.table id := by
  rw [Coat.get]
  split_ifs with hout
  · have hstart : id < t.pool.start := by omega
    cases hid : t.table id with
    | none => rfl
    | some obj => exact absurd (h.start_le hid) (by omega)
  · rfl

/-- The servers compare an id with the bounds of the table before they look it up. -/
theorem Ok.get_of_bounds {max : Nat} (h : t.Ok) (hstart : t.pool.start = 1)
    (hstop : t.pool.stop = max) (hlt : ∀ obj, t.table id = some obj → id < max) :
    (if id = 0 ∨ max ≤ id then none else t.get id) = t.table id := by
  cases hid : t.table id with
  | none =>
      split_ifs
      · rfl
      · rw [h.get_eq (by omega), hid]
  | some obj =>
      have hpos := h.start_le hid
      have hlt := hlt obj hid
      rw [if_neg (by omega), h.get_eq (by omega), hid]

/-- What the pool hands out has no object. -/
theorem Ok.table_of_pool (h : t.Ok) {pool : Cpool} (hpool : t.pool.alloc = some (id, pool)) :
    t.table id = none := by
  obtain ⟨_, _, _, hnot, _⟩ := h.pool.alloc hpool
  rw [← Option.not_isSome_iff_eq_none, h.live]
  exact hnot

/-- An allocation fails without an id, or where no object is created; then the id goes back. -/
theorem Ok.alloc_none_cases {create : Nat → Option α} {t' : Coat α} (h : t.Ok)
    (halloc : t.alloc create = (none, t')) :
    t.pool.alloc = none ∧ t' = t ∨
      ∃ id pool, t.pool.alloc = some (id, pool) ∧ create id = none ∧
        t' = { t with pool := pool.free id } := by
  rw [Coat.alloc] at halloc
  cases hpool : t.pool.alloc with
  | none =>
      simp only [hpool] at halloc
      exact Or.inl ⟨rfl, (Prod.mk.inj halloc).2.symm⟩
  | some new =>
      obtain ⟨id, pool⟩ := new
      simp only [hpool, h.table_of_pool hpool] at halloc
      cases hcreate : create id with
      | some obj => simp [hcreate] at halloc
      | none =>
          simp only [hcreate] at halloc
          exact Or.inr ⟨id, pool, rfl, hcreate, (Prod.mk.inj halloc).2.symm⟩

/-- An allocation that succeeds stores the object that was created. -/
theorem Ok.alloc_some_cases {create : Nat → Option α} {t' : Coat α} (h : t.Ok)
    (halloc : t.alloc create = (some (id, obj), t')) :
    ∃ pool, t.pool.alloc = some (id, pool) ∧ create id = some obj ∧
      t' = { pool := pool, table := Function.update t.table id (some obj) } := by
  rw [Coat.alloc] at halloc
  cases hpool : t.pool.alloc with
  | none => simp [hpool] at halloc
  | some new =>
      obtain ⟨i, pool⟩ := new
      simp only [hpool, h.table_of_pool hpool] at halloc
      cases hcreate : create i with
      | none => simp [hcreate] at halloc
      | some new =>
          simp only [hcreate, Prod.mk.injEq, Option.some.injEq] at halloc
          obtain ⟨⟨rfl, rfl⟩, rfl⟩ := halloc
          exact ⟨pool, rfl, hcreate, rfl⟩

theorem Ok.of_alloc_none {create : Nat → Option α} {t' : Coat α} (h : t.Ok)
    (halloc : t.alloc create = (none, t')) :
    t'.Ok ∧ t'.table = t.table ∧ t'.pool.start = t.pool.start ∧ t'.pool.stop = t.pool.stop := by
  obtain ⟨_, rfl⟩ | ⟨id, pool, hpool, _, rfl⟩ := h.alloc_none_cases halloc
  · exact ⟨h, rfl, rfl, rfl⟩
  · obtain ⟨hok, hstart, hstop, hnot, _, hlive⟩ := h.pool.alloc hpool
    obtain ⟨hok', hstart', hstop', hlive'⟩ := hok.free ((hlive id).2 (Or.inl rfl))
    refine ⟨⟨hok', fun i => ?_⟩, rfl, hstart'.trans hstart, hstop'.trans hstop⟩
    show (t.table i).isSome = true ↔ (pool.free id).Live i
    rw [h.live, hlive', hlive]
    constructor
    · intro hi
      exact ⟨fun heq => hnot (heq ▸ hi), Or.inr hi⟩
    · rintro ⟨hne, hor⟩
      exact hor.resolve_left hne

/-- An allocation adds the object that was created, under an id that had none. -/
theorem Ok.of_alloc_some {create : Nat → Option α} {t' : Coat α} (h : t.Ok)
    (halloc : t.alloc create = (some (id, obj), t')) :
    t'.Ok ∧ t'.table = Function.update t.table id (some obj) ∧ t.table id = none ∧
      create id = some obj ∧ (∃ pool, t.pool.alloc = some (id, pool)) ∧
      t'.pool.start = t.pool.start ∧ t'.pool.stop = t.pool.stop := by
  obtain ⟨pool, hpool, hcreate, rfl⟩ := h.alloc_some_cases halloc
  obtain ⟨hok, hstart, hstop, _, _, hlive⟩ := h.pool.alloc hpool
  refine ⟨⟨hok, fun i => ?_⟩, rfl, h.table_of_pool hpool, hcreate, ⟨pool, hpool⟩, hstart, hstop⟩
  show (Function.update t.table id (some obj) i).isSome = true ↔ pool.Live i
  rw [hlive]
  by_cases hi : i = id
  · subst hi
    simp
  · simp [hi, h.live]

/-- An allocation does not fail as long as there is an id, and the object can be created. -/
theorem Ok.alloc_of_pool (h : t.Ok) (create : Nat → Option α) {pool : Cpool}
    (hpool : t.pool.alloc = some (id, pool)) (hcreate : create id = some obj) :
    ∃ t', t.alloc create = (some (id, obj), t') := by
  simp [Coat.alloc, hpool, h.table_of_pool hpool, hcreate]

/-- A creation that fails is not noticed where the constant is not `COAT_INVALID_ID`. -/
theorem create_of_alloc_none {invalid : Int} {create : Nat → Option α} (hne : invalid ≠ invalidID)
    (halloc : (t.alloc create).1 = none) : t.create invalid create = .error .assertion := by
  cases hnew : t.alloc create with
  | mk new t' =>
      obtain rfl : new = none := by simpa [hnew] using halloc
      rw [Coat.create, allocID, hnew]
      exact if_neg hne.symm

theorem Ok.create_of_alloc_some {create : Nat → Option α} {t' : Coat α} (h : t.Ok)
    (halloc : t.alloc create = (some (id, obj), t')) :
    t.create 0 create = .ok (some (id, obj), t') := by
  obtain ⟨pool, hpool, _⟩ := h.alloc_some_cases halloc
  obtain ⟨_, _, _, _, ⟨hstart, _⟩, _⟩ := h.pool.alloc hpool
  have hpos := h.pool.start_pos
  rw [Coat.create, allocID, halloc]
  exact if_neg (by omega)

theorem Ok.of_create {create : Nat → Option α} {t' : Coat α} {r : Option (Nat × α)} (h : t.Ok)
    (hcreate : t.create 0 create = .ok (r, t')) :
    ∃ id obj, r = some (id, obj) ∧ t.alloc create = (some (id, obj), t') := by
  cases halloc : t.alloc create with
  | mk new u =>
      cases new with
      | none =>
          rw [create_of_alloc_none (by decide) (congrArg Prod.fst halloc)] at hcreate
          cases hcreate
      | some new =>
          obtain ⟨id, obj⟩ := new
          rw [h.create_of_alloc_some halloc] at hcreate
          obtain ⟨rfl, rfl⟩ := Prod.mk.inj (Except.ok.inj hcreate)
          exact ⟨id, obj, rfl, rfl⟩

theorem Ok.remove (h : t.Ok) (hobj : t.table id = some obj) :
    (t.remove id).Ok ∧ (t.remove id).pool.start = t.pool.start ∧
      (t.remove id).pool.stop = t.pool.stop := by
  obtain ⟨hok, hstart, hstop, hlive⟩ := h.pool.free ((h.live id).1 (by simp [hobj]))
  refine ⟨⟨hok, fun i => ?_⟩, hstart, hstop⟩
  show (Function.update t.table id none i).isSome = true ↔ (t.pool.free id).Live i
  rw [hlive]
  by_cases hi : i = id
  · subst hi
    simp
  · simp [hi, h.live]

theorem Ok.set (h : t.Ok) (hobj : (t.table id).isSome) (new : α) : (t.set id new).Ok := by
  refine ⟨h.pool, fun i => ?_⟩
  show (Function.update t.table id (some new) i).isSome = true ↔ t.pool.Live i
  by_cases hi : i = id
  · subst hi
    simpa [← h.live] using hobj
  · simp [hi, h.live]

/-- `coat_free` deletes the object of a live id below `end`. -/
theorem Ok.toDelete_eq (h : t.Ok) (hobj : t.table id = some obj) (hlt : id < t.pool.stop) :
    t.toDelete id = some obj := by
  have hlive := (h.live id).1 (by simp [hobj])
  rw [Coat.toDelete, hlive.check_eq_false, h.get_eq hlt, hobj]
  rfl

end Coat

/-! ## `cqueue.c` -/

theorem ring_mod {size a b : Nat} (ha : a < size) (hb : b ≤ size) :
    (a + b) % size = if a + b < size then a + b else a + b - size := by
  split_ifs with h
  · exact Nat.mod_eq_of_lt h
  · rw [Nat.mod_eq_sub_mod (by omega)]
    exact Nat.mod_eq_of_lt (by omega)

/-- `cqueue_t` -/
structure Cqueue (α : Type) where
  data : Nat → α
  top : Nat
  count : Nat
  maxSize : Nat

namespace Cqueue

variable {α : Type}

/-- `cqueue_init`, on memory with some contents. -/
def init (data : Nat → α) (maxSize : Nat) : Cqueue α where
  data := data
  top := 0
  count := 0
  maxSize := maxSize

/-- `cqueue_push`: whether there was room, and the queue. -/
def push (q : Cqueue α) (e : α) : Bool × Cqueue α :=
  if q.maxSize ≤ q.count then (false, q)
  else (true, { q with
    data := Function.update q.data q.top e
    top := (q.top + 1) % q.maxSize
    count := q.count + 1 })

/-- The index of the oldest item, as `cqueue_pop` computes it. -/
def bot (q : Cqueue α) : Nat :=
  if q.count ≤ q.top then q.top - q.count else q.maxSize - (q.count - q.top)

/-- `cqueue_pop`; its result `NULL` is `none`. -/
def pop (q : Cqueue α) : Except Failure (Option α × Cqueue α) :=
  if q.count = 0 then .ok (none, q)
  else if q.bot < q.maxSize then .ok (some (q.data q.bot), { q with count := q.count - 1 })
  else .error .assertion

/-- The items, the oldest first. -/
def items (q : Cqueue α) : List α :=
  (List.range q.count).map fun i => q.data ((q.bot + i) % q.maxSize)

/-- What the operations keep. -/
structure Ok (q : Cqueue α) : Prop where
  top_lt : q.top < q.maxSize
  count_le : q.count ≤ q.maxSize

variable {q : Cqueue α}

@[simp] theorem length_items : q.items.length = q.count := by simp [items]

theorem items_eq_nil_iff : q.items = [] ↔ q.count = 0 := by
  rw [← List.length_eq_zero_iff, length_items]

theorem Ok.init (data : Nat → α) {maxSize : Nat} (h : 0 < maxSize) : (init data maxSize).Ok :=
  ⟨h, Nat.zero_le _⟩

theorem Ok.bot_lt (h : q.Ok) : q.bot < q.maxSize := by
  have htop := h.top_lt
  unfold bot
  split_ifs <;> omega

theorem Ok.push (h : q.Ok) (hroom : q.count < q.maxSize) (e : α) :
    (q.push e).2.Ok ∧ (q.push e).2.items = q.items ++ [e] ∧ (q.push e).2.maxSize = q.maxSize := by
  have htop := h.top_lt
  have hbot := h.bot_lt
  have hnext : (q.top + 1) % q.maxSize = if q.top + 1 < q.maxSize then q.top + 1 else 0 := by
    rw [ring_mod htop (by omega)]
    split_ifs <;> omega
  -- the oldest item stays where it is, and the items end at `top`
  have hsame : (q.push e).2.bot = q.bot := by
    simp only [Cqueue.push, if_neg (show ¬q.maxSize ≤ q.count by omega), bot, hnext]
    split_ifs <;> omega
  have hindex : ∀ i ≤ q.count, ((q.bot + i) % q.maxSize = q.top ↔ i = q.count) := by
    intro i hi
    rw [ring_mod hbot (by omega)]
    unfold bot
    split_ifs <;> omega
  rw [items, hsame, Cqueue.push, if_neg (by omega)]
  refine ⟨⟨Nat.mod_lt _ (by omega), hroom⟩, ?_, rfl⟩
  simp only [List.range_succ, List.map_append, List.map_cons, List.map_nil, items]
  congr 1
  · refine List.map_congr_left fun i hi => ?_
    have hi := List.mem_range.1 hi
    rw [Function.update_of_ne fun heq => absurd ((hindex i (by omega)).1 heq) (by omega)]
  · rw [(hindex q.count (Nat.le_refl _)).2 rfl, Function.update_self]

theorem Ok.pop (h : q.Ok) (hpos : 0 < q.count) :
    ∃ c q', q.pop = .ok (some c, q') ∧ q'.Ok ∧ q.items = c :: q'.items ∧
      q'.maxSize = q.maxSize ∧ q'.count = q.count - 1 := by
  have hcount := h.count_le
  have hbot := h.bot_lt
  refine ⟨q.data q.bot, { q with count := q.count - 1 }, ?_, ⟨h.top_lt, by simp only; omega⟩, ?_,
    rfl, rfl⟩
  · rw [Cqueue.pop, if_neg (by omega), if_pos hbot]
  · have hrange : List.range q.count = 0 :: (List.range (q.count - 1)).map Nat.succ := by
      rw [← List.range_succ_eq_map, Nat.sub_add_cancel hpos]
    rw [items, hrange, List.map_cons, List.map_map, Nat.add_zero, Nat.mod_eq_of_lt hbot]
    simp only [items]
    congr 1
    refine List.map_congr_left fun i hi => ?_
    have hi := List.mem_range.1 hi
    have htop := h.top_lt
    have hnew : ({ q with count := q.count - 1 } : Cqueue α).bot < q.maxSize :=
      Ok.bot_lt (q := { q with count := q.count - 1 }) ⟨htop, by simp only; omega⟩
    -- the second oldest item is one place further
    have hindex : (q.bot + (i + 1)) % q.maxSize =
        (({ q with count := q.count - 1 } : Cqueue α).bot + i) % q.maxSize := by
      rw [ring_mod hbot (by omega), ring_mod hnew (by omega)]
      simp only [bot]
      split_ifs <;> omega
    exact congrArg q.data hindex

end Cqueue

/-! ## `cbpool.c` -/

/-- `cbpool_t`. The bitmap has `size / 32 + 1` words. -/
structure Cbpool where
  size : Nat
  bitmap : Nat → Bool

namespace Cbpool

/-- `cbpool_init_static` -/
def init (size : Nat) : Cbpool where
  size := size
  bitmap _ := false

/-- `size_ntiles` -/
def sizeNtiles (p : Cbpool) : Nat := p.size / 32 + 1

/-- `cbpool_check_single` -/
def checkSingle (p : Cbpool) (obj : Nat) : Except Failure Bool :=
  if obj / 32 < p.sizeNtiles then .ok (p.bitmap obj) else .error .assertion

/-- `cbpool_set_single` -/
def setSingle (p : Cbpool) (obj : Nat) (val : Bool) : Except Failure Cbpool :=
  if obj / 32 < p.sizeNtiles then .ok { p with bitmap := Function.update p.bitmap obj val }
  else .error .assertion

/-- The objects from `sta` on, before `stop`, are set to a value. -/
def setRange (p : Cbpool) (sta stop : Nat) (val : Bool) : Cbpool :=
  { p with bitmap := fun i => if sta ≤ i ∧ i < stop then val else p.bitmap i }

/-- The loop of `cbpool_alloc_internal`, over `n` objects from `i` on, with `freesz` free objects
before `i`: the start of the first `size` free ones. -/
def findRun (p : Cbpool) (size : Nat) : Nat → Nat → Nat → Option Nat
  | 0, _, _ => none
  | n + 1, i, freesz =>
      if p.bitmap i then findRun p size n (i + 1) 0
      else if size ≤ freesz + 1 then some (i - freesz)
      else findRun p size n (i + 1) (freesz + 1)

/-- `p->size` as the `int` up to which `cbpool_alloc` searches. Where this is negative there is no
round. -/
def searchStop (p : Cbpool) : Nat := if p.size < 2 ^ 31 then p.size else 0

/-- `cbpool_alloc`; its result `CBPOOL_INVALID` is `none`. -/
def alloc (p : Cbpool) (size : Nat) : Option Nat × Cbpool :=
  if size = 0 then (none, p)
  else
    match p.findRun size p.searchStop 0 0 with
    | none => (none, p)
    | some sta => (some sta, p.setRange sta (sta + size) true)

/-- `cbpool_free` -/
def free (p : Cbpool) (obj size : Nat) : Cbpool :=
  if size = 0 then p
  else
    let stop := u32 (obj + size)
    p.setRange obj (if p.size ≤ stop then p.size - 1 else stop) false

variable {p : Cbpool} {size : Nat}

@[simp] theorem free_size (obj : Nat) : (p.free obj size).size = p.size := by
  rw [free]
  split_ifs <;> rfl

theorem findRun_spec {n i freesz sta : Nat} (h : p.findRun size n i freesz = some sta)
    (hle : freesz ≤ i) (hlt : freesz < size)
    (hfree : ∀ j, i - freesz ≤ j → j < i → p.bitmap j = false)
    (hbefore : i - freesz = 0 ∨ p.bitmap (i - freesz - 1) = true) :
    (∀ j, sta ≤ j → j < sta + size → p.bitmap j = false) ∧ sta + size ≤ i + n ∧
      (sta = 0 ∨ p.bitmap (sta - 1) = true) := by
  induction n generalizing i freesz with
  | zero => cases h
  | succ n ih =>
      rw [findRun] at h
      split_ifs at h with hset hlong
      · obtain ⟨h₁, h₂, h₃⟩ := ih h (Nat.zero_le _) (by omega) (fun j h₁ h₂ => by omega)
          (Or.inr (by simpa using hset))
        exact ⟨h₁, by omega, h₃⟩
      · obtain rfl := Option.some.inj h
        refine ⟨fun j h₁ h₂ => ?_, by omega, hbefore⟩
        obtain hj | rfl : j < i ∨ j = i := by omega
        · exact hfree j h₁ hj
        · simpa using hset
      · obtain ⟨h₁, h₂, h₃⟩ := ih h (by omega) (by omega) (fun j h₁ h₂ => by
          obtain hj | rfl : j < i ∨ j = i := by omega
          · exact hfree j (by omega) hj
          · simpa using hset) (by simpa using hbefore)
        exact ⟨h₁, by omega, h₃⟩

/-- The objects allocated were free, and the one before them was not. -/
theorem alloc_spec {sta : Nat} {p' : Cbpool} (h : p.alloc size = (some sta, p')) :
    0 < size ∧ (∀ j, sta ≤ j → j < sta + size → p.bitmap j = false) ∧ sta + size ≤ p.size ∧
      (sta = 0 ∨ p.bitmap (sta - 1) = true) ∧ p' = p.setRange sta (sta + size) true := by
  rw [alloc] at h
  split_ifs at h with hzero
  · cases h
  split at h
  · cases h
  · rename_i found hfound
    obtain ⟨hsta, rfl⟩ := Prod.mk.inj h
    obtain rfl := Option.some.inj hsta
    obtain ⟨hfree, hle, hbefore⟩ := findRun_spec hfound (Nat.le_refl _) (Nat.pos_of_ne_zero hzero)
      (fun j h₁ h₂ => by omega) (Or.inl rfl)
    have hstop : p.searchStop ≤ p.size := by
      rw [searchStop]
      split_ifs <;> omega
    exact ⟨Nat.pos_of_ne_zero hzero, hfree, by omega, hbefore, rfl⟩

/-- From `a` on, a run of free objects is not long enough. -/
def Interrupted (p : Cbpool) (size a : Nat) : Prop :=
  ∃ j, a ≤ j ∧ j < a + size ∧ p.bitmap j = true

/-- The loop finds the first run that is long enough: in front of the run found, and if none is
found, all are interrupted. -/
theorem findRun_least {n i freesz : Nat} (hle : freesz ≤ i) (hlt : freesz < size)
    (hbefore : i - freesz = 0 ∨ p.bitmap (i - freesz - 1) = true)
    (hnone : ∀ a, a + size ≤ i → p.Interrupted size a) :
    (∀ sta, p.findRun size n i freesz = some sta → ∀ a < sta, p.Interrupted size a) ∧
      (p.findRun size n i freesz = none → ∀ a, a + size ≤ i + n → p.Interrupted size a) := by
  induction n generalizing i freesz with
  | zero =>
      refine ⟨fun sta h => ?_, fun _ => hnone⟩
      cases h
  | succ n ih =>
      rw [findRun, ← Nat.add_assoc, Nat.add_right_comm]
      split_ifs with hset hlong
      · refine ih (Nat.zero_le _) (by omega) (Or.inr (by simpa using hset)) fun a ha => ?_
        obtain ha | ha : a + size ≤ i ∨ a + size = i + 1 := by omega
        · exact hnone a ha
        · exact ⟨i, by omega, by omega, hset⟩
      · constructor
        · intro sta h a ha
          obtain rfl := Option.some.inj h
          exact hnone a (by omega)
        · intro h
          cases h
      · refine ih (by omega) (by omega) (by simpa using hbefore) fun a ha => ?_
        obtain ha | ha : a + size ≤ i ∨ a + size = i + 1 := by omega
        · exact hnone a ha
        · -- the run before `i` is too short, and interrupted where it begins
          rcases hbefore with hzero | hset
          · omega
          · exact ⟨i - freesz - 1, by omega, by omega, hset⟩

/-- No run in front of the objects allocated was long enough. -/
theorem alloc_least {sta : Nat} {p' : Cbpool} (h : p.alloc size = (some sta, p')) :
    ∀ a < sta, p.Interrupted size a := by
  rw [alloc] at h
  split_ifs at h with hzero
  · cases h
  split at h
  · cases h
  · rename_i found hfound
    obtain rfl := Option.some.inj (Prod.mk.inj h).1
    exact (findRun_least (Nat.le_refl _) (Nat.pos_of_ne_zero hzero) (Or.inl rfl)
      fun a ha => absurd ha (by omega)).1 _ hfound

theorem alloc_none {p' : Cbpool} (h : p.alloc size = (none, p')) :
    p' = p ∧ (0 < size → ∀ a, a + size ≤ p.searchStop → p.Interrupted size a) := by
  rw [alloc] at h
  split_ifs at h with hzero
  · exact ⟨(Prod.mk.inj h).2.symm, fun hpos => absurd hzero (Nat.ne_of_gt hpos)⟩
  split at h
  · rename_i hfound
    refine ⟨(Prod.mk.inj h).2.symm, fun hpos a ha => ?_⟩
    exact (findRun_least (Nat.le_refl _) hpos (Or.inl rfl) fun a ha => absurd ha (by omega)).2
      hfound a (by omega)
  · cases h

end Cbpool

end PartitionSeL4.Refos
