import PartitionSeL4.Refos.DataStruct
import PartitionSeL4.Lib.Run

/-!
# Object tables up to their last id

An object table hands out the ids from `start` to `end`, as its pool does. `coat_get` takes `end`
for an id past the table. An object with this id can neither be found nor be freed, and its id is
lost.

The pool hands out `end` last of all (`Cpool.Ok.alloc_end`), so this is a matter of full tables.
`table_right_iff`: in every run, the table does what it should from the first call to the last if
and only if no object is created under `end`, that is, at each allocation another id is free or the
creation under `end` fails.

A run is paired with what its callers hold: an object from the call that returned it to the
successful call that frees it.
-/

namespace PartitionSeL4.Refos

open Lib

variable {α : Type}

/-! ## Calls and their results -/

/-- A table with create and delete callbacks, and the objects that the callers hold. -/
structure HeldTable (α : Type) where
  table : Coat α
  held : Nat → Option α

/-- A call. What `oat_create` returns for each id can be different for each allocation. -/
inductive CoatEvent (α : Type)
  | alloc (oatCreate : Nat → Option α)
  | get (id : Nat)
  | free (id : Nat)

namespace HeldTable

/-- `coat_init` -/
def init (start stop : Nat) : HeldTable α where
  table := .init start stop
  held _ := none

/-- `coat_alloc`; what it returns is held. -/
def alloc (x : HeldTable α) (oatCreate : Nat → Option α) : HeldTable α :=
  match x.table.alloc oatCreate with
  | (none, t) => { x with table := t }
  | (some (id, obj), t) => { table := t, held := Function.update x.held id (some obj) }

/-- `coat_free`; where it succeeds, the object is not held any more. -/
def free (x : HeldTable α) (id : Nat) : HeldTable α :=
  match x.table.free id with
  | (none, t) => { x with table := t }
  | (some _, t) => { table := t, held := Function.update x.held id none }

end HeldTable

/-- One call. -/
def coatStep (x : HeldTable α) : CoatEvent α → Except Failure (HeldTable α)
  | .alloc oatCreate => .ok (x.alloc oatCreate)
  | .get _ => .ok x
  | .free id => .ok (x.free id)

/-! ## The property and the condition -/

/-- An allocation returns an id of the table that nobody holds, or fails and leaves the objects and
the number of available ids as they were. -/
def HeldTable.AllocRight (start stop : Nat) (x : HeldTable α) : CoatEvent α → Prop
  | .alloc oatCreate =>
      match x.table.alloc oatCreate with
      | (some (id, _), _) => start ≤ id ∧ id ≤ stop ∧ x.held id = none
      | (none, t) => t.table = x.table.table ∧ t.pool.left = x.table.pool.left
  | .get _ | .free _ => True

/-- An object that is held is found, and is freed on request; then one more id is available, and the
next allocation can return it. Under the other ids nothing is found. -/
structure HeldTable.TableRight (x : HeldTable α) : Prop where
  get_held : ∀ id obj, x.held id = some obj → x.table.get id = some obj
  get_other : ∀ id, x.held id = none → x.table.get id = none
  free_held : ∀ id obj, x.held id = some obj → ∃ t, x.table.free id = (some obj, t) ∧
    t.pool.left = x.table.pool.left + 1 ∧ ∀ (create : Nat → Option α) new, create id = some new →
      ∃ t', t.alloc create = (some (id, new), t')

/-- An allocation does not use up the table: an id below `end` is available, or nothing is created
under `end`. -/
def HeldTable.SparesEnd (start stop : Nat) (x : HeldTable α) : CoatEvent α → Prop
  | .alloc oatCreate =>
      (∃ id, start ≤ id ∧ id < stop ∧ x.held id = none) ∨ oatCreate stop = none
  | .get _ | .free _ => True

/-! ## The invariant -/

/-- The objects held are those in the table, and the pool hands out `end` last. -/
structure HeldTable.Ok (start stop : Nat) (x : HeldTable α) : Prop where
  table : x.table.Ok
  held : x.held = x.table.table
  endLast : x.table.pool.EndLast
  start_eq : x.table.pool.start = start
  stop_eq : x.table.pool.stop = stop
  start_le : start ≤ stop

namespace HeldTable.Ok

variable {start stop : Nat} {x : HeldTable α}

theorem init (hpos : 0 < start) (hle : start ≤ stop) : (HeldTable.init start stop : HeldTable α).Ok
    start stop where
  table := .init hpos (Nat.le_succ_of_le hle)
  held := rfl
  endLast := .init start stop
  start_eq := rfl
  stop_eq := rfl
  start_le := hle

/-- The ids of the table that are not held are those the pool has. -/
theorem held_iff (h : x.Ok start stop) {id : Nat} :
    (x.held id).isSome ↔ x.table.pool.Live id := by
  rw [h.held]
  exact h.table.live id

theorem get_stop (h : x.Ok start stop) : x.table.get stop = none := by
  rw [Coat.get, h.stop_eq, if_pos (Or.inr (Nat.le_refl _))]

theorem lt_stop (h : x.Ok start stop) {id : Nat} {obj : α} (hid : x.held id = some obj)
    (hend : x.held stop = none) : start ≤ id ∧ id < stop := by
  obtain ⟨hstart, hlt, _⟩ := h.held_iff.1 (by simp [hid] : (x.held id).isSome)
  have hmx := h.table.pool.mx_le
  have hne : id ≠ stop := by
    rintro rfl
    simp [hid] at hend
  have h1 := h.start_eq
  have h2 := h.stop_eq
  omega

/-- What the pool hands out is not held, and it is `end` only where all other ids are held. -/
theorem alloc_id (h : x.Ok start stop) {id : Nat} {pool : Cpool}
    (halloc : x.table.pool.alloc = some (id, pool)) : start ≤ id ∧ id ≤ stop ∧ x.held id = none ∧
      (id = stop ↔ ∀ i, start ≤ i → i < stop → (x.held i).isSome) := by
  obtain ⟨_, _, _, hnot, hrange, _⟩ := h.table.pool.alloc halloc
  rw [h.start_eq, h.stop_eq] at hrange
  have hnone : x.held id = none := by
    rw [← Option.not_isSome_iff_eq_none, h.held_iff]
    exact hnot
  refine ⟨hrange.1, hrange.2, hnone, fun heq i hi hlt => ?_, fun hall => ?_⟩
  · rw [h.held_iff]
    subst heq
    rw [← h.stop_eq] at halloc
    exact (h.table.pool.alloc_end h.endLast halloc).2 i (h.start_eq ▸ hi) (h.stop_eq ▸ hlt)
  · by_contra hne
    have := hall id hrange.1 (by omega)
    simp [hnone] at this

/-- A table does what it should as long as `end` is not held. -/
theorem tableRight_iff (h : x.Ok start stop) : x.TableRight ↔ x.held stop = none := by
  constructor
  · intro hright
    cases hend : x.held stop with
    | none => rfl
    | some obj =>
        have hget := hright.get_held stop obj hend
        rw [h.get_stop] at hget
        cases hget
  · intro hend
    refine ⟨fun id obj hid => ?_, fun id hid => ?_, fun id obj hid => ?_⟩
    · rw [h.table.get_eq (h.stop_eq ▸ (h.lt_stop hid hend).2), ← h.held, hid]
    · rw [Coat.get]
      split_ifs
      · rfl
      · rw [← h.held, hid]
    · have hobj : x.table.table id = some obj := h.held ▸ hid
      have hlive := h.held_iff.1 (by simp [hid] : (x.held id).isSome)
      have hdelete := h.table.toDelete_eq hobj (h.stop_eq ▸ (h.lt_stop hid hend).2)
      refine ⟨x.table.remove id, ?_, h.table.pool.left_free hlive, fun create new hnew => ?_⟩
      · rw [Coat.free, hdelete]
      · exact (h.table.remove hobj).1.alloc_of_pool create (h.table.pool.alloc_free hlive) hnew

/-- An allocation that fails: the pool is empty, or the creation fails and the id goes back. -/
theorem of_alloc_none (h : x.Ok start stop) {create : Nat → Option α} {t : Coat α}
    (halloc : x.table.alloc create = (none, t)) :
    t.pool.EndLast ∧ t.pool.left = x.table.pool.left ∧
      (x.held stop = none → x.SparesEnd start stop (.alloc create)) := by
  obtain ⟨hpool, rfl⟩ | ⟨id, pool, hpool, hcreate, rfl⟩ := h.table.alloc_none_cases halloc
  · refine ⟨h.endLast, rfl, fun hend => ?_⟩
    -- the pool is empty, so `end` is held as well
    have hlive := Cpool.live_of_alloc_none hpool (i := stop) (h.start_eq ▸ h.start_le)
      (Nat.le_of_eq h.stop_eq.symm)
    rw [← h.held_iff, hend] at hlive
    cases hlive
  · obtain ⟨hstart, hstop, hnone, hlast⟩ := h.alloc_id hpool
    obtain ⟨hok, _, hstop', _, _, hlive⟩ := h.table.pool.alloc hpool
    refine ⟨?_, ?_, fun _ => ?_⟩
    · refine (h.endLast.alloc hpool).free fun heq => ?_
      rw [heq, hstop'] at hpool
      exact (h.table.pool.alloc_end h.endLast hpool).1
    · have hleft := Cpool.left_of_alloc hpool
      have := hok.left_free ((hlive id).2 (Or.inl rfl))
      show (pool.free id).left = x.table.pool.left
      omega
    · by_cases heq : id = stop
      · exact Or.inr (heq ▸ hcreate)
      · exact Or.inl ⟨id, hstart, by omega, hnone⟩

theorem alloc (h : x.Ok start stop) (create : Nat → Option α) :
    (x.alloc create).Ok start stop ∧ x.AllocRight start stop (.alloc create) ∧
      (x.held stop = none →
        ((x.alloc create).held stop = none ↔ x.SparesEnd start stop (.alloc create))) := by
  rw [HeldTable.alloc, HeldTable.AllocRight]
  cases halloc : x.table.alloc create with
  | mk new t =>
      cases new with
      | none =>
          obtain ⟨hok, htable, hstart, hstop⟩ := h.table.of_alloc_none halloc
          obtain ⟨hlast, hleft, hspares⟩ := h.of_alloc_none halloc
          exact ⟨⟨hok, h.held.trans htable.symm, hlast, hstart.trans h.start_eq,
            hstop.trans h.stop_eq, h.start_le⟩, ⟨htable, hleft⟩,
            fun hend => iff_of_true hend (hspares hend)⟩
      | some new =>
          obtain ⟨id, obj⟩ := new
          obtain ⟨hok, _, _, _, _, hstart, hstop⟩ := h.table.of_alloc_some halloc
          obtain ⟨pool, hpool, hcreate, rfl⟩ := h.table.alloc_some_cases halloc
          obtain ⟨hge, hle, hnone, hlast⟩ := h.alloc_id hpool
          refine ⟨⟨hok, ?_, h.endLast.alloc hpool, hstart.trans h.start_eq,
            hstop.trans h.stop_eq, h.start_le⟩, ⟨hge, hle, hnone⟩, fun hend => ?_⟩
          · show Function.update x.held id (some obj) = _
            rw [h.held]
          · show Function.update x.held id (some obj) stop = none ↔ _
            by_cases heq : id = stop
            · subst heq
              rw [Function.update_self]
              refine iff_of_false (Option.some_ne_none obj) ?_
              rintro (⟨i, hi, hlt, hnone⟩ | hfail)
              · have hheld := hlast.1 rfl i hi hlt
                rw [hnone] at hheld
                cases hheld
              · rw [hcreate] at hfail
                cases hfail
            · rw [Function.update_of_ne (Ne.symm heq)]
              exact iff_of_true hend (Or.inl ⟨id, hge, by omega, hnone⟩)

/-- The table after `coat_free`, which never frees `end`. -/
theorem free (h : x.Ok start stop) (id : Nat) :
    (x.free id).Ok start stop ∧ (x.held stop = none → (x.free id).held stop = none) := by
  rw [HeldTable.free, Coat.free]
  cases hdelete : x.table.toDelete id with
  | none => exact ⟨h, fun hend => hend⟩
  | some obj =>
      have hobj := Coat.table_of_toDelete hdelete
      have hne : id ≠ stop := by
        rintro rfl
        rw [Coat.toDelete, h.get_stop, ite_self] at hdelete
        cases hdelete
      obtain ⟨hok, hstart, hstop⟩ := h.table.remove hobj
      refine ⟨⟨hok, ?_, ?_, hstart.trans h.start_eq, hstop.trans h.stop_eq, h.start_le⟩,
        fun hend => ?_⟩
      · exact congrArg (fun held => Function.update held id none) h.held
      · exact h.endLast.free fun heq => absurd (heq.trans h.stop_eq) hne
      · exact (Function.update_of_ne hne.symm none x.held).trans hend

/-- One call: what holds of it in any case, and when `end` stays free. -/
theorem step (h : x.Ok start stop) (e : CoatEvent α) {y : HeldTable α}
    (hy : coatStep x e = .ok y) : y.Ok start stop ∧ x.AllocRight start stop e ∧
      (x.held stop = none → (y.held stop = none ↔ x.SparesEnd start stop e)) := by
  cases e with
  | alloc create =>
      obtain rfl := Except.ok.inj hy
      exact h.alloc create
  | get id =>
      obtain rfl := Except.ok.inj hy
      exact ⟨h, trivial, fun hend => iff_of_true hend trivial⟩
  | free id =>
      obtain rfl := Except.ok.inj hy
      obtain ⟨hok, hend⟩ := h.free id
      exact ⟨hok, trivial, fun hnone => iff_of_true (hend hnone) trivial⟩

end HeldTable.Ok

/-! ## Every run -/

/-- **When an object table does what it should.** In every run of calls on a table of the ids
`start` to `end`: each allocation is right and the objects held are found and can be freed, from the
first call to the last, if and only if no allocation uses up the table. -/
theorem table_right_iff {start stop : Nat} (hpos : 0 < start) (hle : start ≤ stop)
    (evs : List (CoatEvent α)) (y : HeldTable α)
    (hrun : Run coatStep (fun _ _ => True) (HeldTable.init start stop) evs y) :
    Steps coatStep (fun x e z => x.AllocRight start stop e ∧ z.TableRight) evs
        (HeldTable.init start stop) ↔
      Steps coatStep (fun x e _ => x.SparesEnd start stop e) evs (HeldTable.init start stop) := by
  refine hrun.steps_congr (I := fun x => x.Ok start stop ∧ x.held stop = none) ⟨.init hpos hle, rfl⟩
    (fun x e z ⟨hok, _⟩ _ hz hright => ?_) fun x e z ⟨hok, hend⟩ _ hz => ?_
  · obtain ⟨hok', _⟩ := hok.step e hz
    exact ⟨hok', hok'.tableRight_iff.1 hright.2⟩
  · obtain ⟨hok', halloc, hspares⟩ := hok.step e hz
    rw [← hspares hend, ← hok'.tableRight_iff]
    exact and_iff_right halloc

/-- Two objects in a table of three ids: one is freed, and its id is handed out again. -/
theorem table_right_iff_two :
    ∃ y : HeldTable Nat, Run coatStep (fun _ _ => True) (HeldTable.init 1 3)
        [.alloc some, .alloc some, .free 1, .alloc some] y ∧ y.held 1 = some 1 ∧
      (Steps coatStep (fun x e z => x.AllocRight 1 3 e ∧ z.TableRight)
          [.alloc some, .alloc some, .free 1, .alloc some] (HeldTable.init 1 3 : HeldTable Nat) ↔
        Steps coatStep (fun x e _ => x.SparesEnd 1 3 e)
          [.alloc some, .alloc some, .free 1, .alloc some] (HeldTable.init 1 3)) := by
  obtain ⟨y, hrun, hy⟩ : ∃ y : HeldTable Nat, Run coatStep (fun _ _ => True) (HeldTable.init 1 3)
      [.alloc some, .alloc some, .free 1, .alloc some] y ∧ y.held 1 = some 1 := by
    apply Run.exists_of_exec
    decide
  exact ⟨y, hrun, hy, table_right_iff (by decide) (by decide) _ y hrun⟩

/-- The only id of a table of one id is handed out; its object is not found and cannot be freed. -/
theorem last_id_lost :
    ∃ y : HeldTable Nat, Run coatStep (fun _ _ => True) (HeldTable.init 1 1) [.alloc some] y ∧
      y.held 1 = some 1 ∧ y.table.get 1 = none ∧ (y.table.free 1).1 = none ∧ ¬y.TableRight := by
  obtain ⟨y, hrun, hheld, hget, hfree⟩ : ∃ y : HeldTable Nat,
      Run coatStep (fun _ _ => True) (HeldTable.init 1 1) [.alloc some] y ∧
        y.held 1 = some 1 ∧ y.table.get 1 = none ∧ (y.table.free 1).1 = none := by
    apply Run.exists_of_exec
    decide
  refine ⟨y, hrun, hheld, hget, hfree, fun hright => ?_⟩
  rw [hright.get_held 1 1 hheld] at hget
  cases hget

end PartitionSeL4.Refos
