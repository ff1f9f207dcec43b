import PartitionSeL4.Lib.Block
import PartitionSeL4.Lib.Run
import PartitionSeL4.Lib.Settles
import PartitionSeL4.Refos.DataStruct

/-!
# `cvector.c`: the growable vector

A `cvector_t` keeps its elements at the beginning of a block of the heap. `cvector_add` doubles the
block when the last slot is taken. `cvector_delete` moves the elements behind the index down, and
cuts the block back to two free slots if it is more than twice as long, but only from the 17th
deletion on after the last time it did.

The slots of the block are part of the model: an access outside it, an access through a null
pointer and a read of a slot that was never written end in `Failure.fault`. `Cvector.Holds v xs` is
what ties the vector to a list, and there is one lemma for each operation. A vector then behaves as
the list in any run (`vector_refines_list`), and no operation with its index in range ends in a
fault: the heap grants no block of 2^31 bytes, so that the sizes never wrap.
-/

namespace PartitionSeL4.Refos

open Lib

/-- `CVECTOR_INIT_SIZE` -/
def cvectorInitSize : Nat := 4

/-- `CVECTOR_RESIZE_CHECK_FREQ` -/
def cvectorResizeCheckFreq : Int := 16

/-- `cvector_t` -/
structure Cvector (α : Type) where
  /-- The block `data` points to, slot by slot. -/
  data : Option (List (Option α))
  size : Nat
  count : Nat
  nextResize : Int
  deriving DecidableEq

namespace Cvector

variable {α : Type}

/-! ## The heap -/

/-- `adjust_size` of the C library: whether a block of so many bytes can be asked for. -/
def adjustSize (n : Nat) : Bool :=
  -- `*n-1` against `PTRDIFF_MAX - SIZE_ALIGN - PAGE_SIZE`
  u32 (n + 2 ^ 32 - 1) ≤ 2 ^ 31 - 1 - 16 - 4096 || n == 0

/-- `kmalloc`, where the heap has room or not. Nothing is written in a new block. -/
def kmalloc (bytes : Nat) (granted : Bool) : Option (List (Option α)) :=
  if adjustSize bytes && granted then some (List.replicate (bytes / 4) none) else none

/-- `krealloc`. A block is made smaller where it is, unless it has a mapping of its own: then
`mremap` is called, which is an assertion that fails. -/
def krealloc (data : Option (List (Option α))) (bytes : Nat) (granted : Bool) :
    Except Failure (Option (List (Option α))) :=
  match data with
  | none => .ok (kmalloc bytes granted)
  | some block =>
      if adjustSize bytes = false then .ok none
      else if bytes ≤ 4 * block.length then
        if granted then .ok (some (block.take (bytes / 4))) else .error .assertion
      else if granted then .ok (some (block ++ List.replicate (bytes / 4 - block.length) none))
      else .ok none

/-! ## The operations -/

/-- The slots that are allocated. -/
def block (v : Cvector α) : List (Option α) := v.data.getD []

/-- What has been stored in the slots that are counted. -/
def elements (v : Cvector α) : List α := (v.block.take v.count).filterMap id

/-- `v->data[i]` -/
def load (v : Cvector α) (i : Nat) : Except Failure α :=
  match v.block[i]? with
  | some (some x) => .ok x
  | _ => .error .fault

/-- `v->data[i] = e` -/
def store (v : Cvector α) (i : Nat) (e : α) : Except Failure (Cvector α) :=
  if i < v.block.length then .ok { v with data := some (v.block.set i (some e)) }
  else .error .fault

/-- `assert(v->data)` -/
def assertData (v : Cvector α) : Except Failure (Cvector α) :=
  if v.data.isSome then .ok v else .error .assertion

/-- `cvector_init` -/
def init : Cvector α where
  data := none
  size := 0
  count := 0
  nextResize := cvectorResizeCheckFreq

/-- `cvector_delete_resize` -/
def deleteResize (v : Cvector α) (granted : Bool) : Except Failure (Cvector α) := do
  let w := { v with nextResize := i32 (v.nextResize - 1) }
  if 0 < v.nextResize then return w
  if u32 (u32 (w.count + 2) * 2) < w.size then
    let size := u32 (w.count + 2)
    let data ← krealloc w.data (u32 (4 * size)) granted
    return { w with data := data, size := size, nextResize := cvectorResizeCheckFreq }
  return w

/-- `cvector_add` up to the assignment: a slot for one more element. -/
def reserve (v : Cvector α) (granted : Bool) : Except Failure (Cvector α) := do
  let v ←
    if v.size = 0 then
      assertData { v with
        size := cvectorInitSize
        data := kmalloc (u32 (4 * cvectorInitSize)) granted }
    else .ok v
  if v.size ≤ v.count then
    let size := u32 (v.size * 2)
    let data ← krealloc v.data (u32 (4 * size)) granted
    assertData { v with size := size, data := data }
  else return v

/-- `cvector_add` -/
def add (v : Cvector α) (e : α) (granted : Bool) : Except Failure (Int × Cvector α) := do
  let v ← v.reserve granted
  let w ← v.store v.count e
  return (i32 w.count, { w with count := u32 (w.count + 1) })

/-- `cvector_set` -/
def set (v : Cvector α) (index : Nat) (e : α) : Except Failure (Cvector α) :=
  if index < v.count then v.store index e else .error .assertion

/-- `cvector_get`. The index is an `int`, and is compared as an unsigned number. -/
def get (v : Cvector α) (index : Int) : Except Failure α :=
  if word index < v.count then v.load (word index) else .error .assertion

/-- The loop of `cvector_delete`. -/
def moveDown (v : Cvector α) (index : Nat) : Except Failure (Cvector α) :=
  (List.range' index (u32 (v.count + 2 ^ 32 - 1) - index)).foldlM (fun v i => do
    let e ← v.load (i + 1)
    v.store i e) v

/-- `cvector_delete` -/
def delete (v : Cvector α) (index : Int) (granted : Bool) : Except Failure (Cvector α) :=
  if word index < v.count then do
    let v ← v.moveDown (word index)
    deleteResize { v with count := u32 (v.count + 2 ^ 32 - 1) } granted
  else .error .assertion

/-- `cvector_free` -/
def free (_ : Cvector α) : Cvector α := init

/-- `cvector_reset` -/
def reset (v : Cvector α) : Cvector α := { v with count := 0 }

/-! ## The vector holds a list -/

/-- The vector holds the list: its block has `size` slots and begins with the elements. -/
structure Holds (v : Cvector α) (xs : List α) : Prop where
  count : v.count = xs.length
  size : v.size = v.block.length
  size_lt : v.size < 2 ^ 29
  begins : Begins v.block xs

variable {v w : Cvector α} {xs : List α} {i : Nat} {e : α} {granted : Bool}

theorem Holds.init : Holds (Cvector.init : Cvector α) [] :=
  ⟨rfl, rfl, Nat.two_pow_pos 29, Begins.nil _⟩

theorem Holds.length_le (h : Holds v xs) : xs.length ≤ v.size :=
  h.size ▸ h.begins.length_le

theorem Holds.count_lt (h : Holds v xs) : xs.length < 2 ^ 29 :=
  Nat.lt_of_le_of_lt h.length_le h.size_lt

theorem Holds.elements_eq (h : Holds v xs) : v.elements = xs := by
  rw [elements, h.count, h.begins.eq_map_some, List.filterMap_map]
  exact List.filterMap_some

theorem Holds.load (h : Holds v xs) (hi : i < xs.length) : v.load i = .ok xs[i] := by
  rw [Cvector.load, h.begins.getElem? hi]

theorem store_ok (hi : i < v.block.length) :
    v.store i e = .ok { v with data := some (v.block.set i (some e)) } := if_pos hi

theorem Holds.store (h : Holds v xs) (hi : i < xs.length) :
    ∃ w, v.store i e = .ok w ∧ Holds w (xs.set i e) ∧ w.count = v.count := by
  refine ⟨_, store_ok (Nat.lt_of_lt_of_le hi h.begins.length_le), ⟨?_, ?_, h.size_lt, ?_⟩, rfl⟩
  · rw [List.length_set]
    exact h.count
  · exact h.size.trans (List.length_set).symm
  · exact h.begins.set hi e

theorem word_natCast (hi : i < 2 ^ 32) : word (i : Int) = i := by
  rw [word]
  omega

theorem Holds.set (h : Holds v xs) (hi : i < xs.length) :
    ∃ w, v.set i e = .ok w ∧ Holds w (xs.set i e) := by
  obtain ⟨w, hw, hheld, -⟩ := h.store hi
  exact ⟨w, (if_pos (h.count ▸ hi)).trans hw, hheld⟩

theorem Holds.get (h : Holds v xs) (hi : i < xs.length) : v.get i = .ok xs[i] := by
  have hlt := h.count_lt
  have hword : word (i : Int) = i := word_natCast (by omega)
  rw [Cvector.get, hword, if_pos (h.count ▸ hi), h.load hi]

theorem Holds.reset (h : Holds v xs) : Holds v.reset [] :=
  ⟨rfl, h.size, h.size_lt, Begins.nil _⟩

theorem Holds.data_eq (h : Holds v xs) (hsize : v.size ≠ 0) : v.data = some v.block := by
  have hblock := h.size
  cases hdata : v.data with
  | none =>
      rw [block, hdata] at hblock
      exact absurd hblock hsize
  | some b => rw [block, hdata, Option.getD_some]

/-! ### Room for one more -/

/-- The heap has the memory that the next `cvector_add` asks for. -/
def Grants (v : Cvector α) (granted : Bool) : Prop :=
  v.size ≤ v.count → granted = true ∧ adjustSize (8 * v.size) = true

instance (v : Cvector α) (granted : Bool) : Decidable (v.Grants granted) :=
  inferInstanceAs (Decidable (_ → _))

theorem adjustSize_le {n : Nat} (hn : n < 2 ^ 32) (h : adjustSize n = true) : n < 2 ^ 31 := by
  simp only [adjustSize, Bool.or_eq_true, decide_eq_true_eq, beq_iff_eq] at h
  rw [u32] at h
  omega

theorem adjustSize_of_lt {n : Nat} (h : n < 2 ^ 30) : adjustSize n = true := by
  simp only [adjustSize, Bool.or_eq_true, decide_eq_true_eq, beq_iff_eq]
  rw [u32]
  omega

/-- There is a slot for one more element, if the memory for it is granted. -/
def Reserves (v : Cvector α) (xs : List α) (granted : Bool) : Prop :=
  Settles .assertion (v.Grants granted) (v.reserve granted) fun w =>
    w.Holds xs ∧ xs.length < w.size

theorem Holds.reserve_first (h : Holds v xs) (hsize : v.size = 0) : v.Reserves xs granted := by
  have hcount := h.count
  have hlen := h.length_le
  obtain rfl : xs = [] := List.length_eq_zero_iff.1 (by omega)
  have hnil : v.count = 0 := hcount
  cases granted with
  | false =>
      refine Or.inl ⟨fun hg => Bool.noConfusion (hg (by omega)).1, ?_⟩
      simp [Cvector.reserve, hsize, kmalloc, assertData, bind, Except.bind]
  | true =>
      refine Settles.of_eq_ok (a := { v with size := 4, data := some (List.replicate 4 none) }) ?_
        ⟨⟨hcount, rfl, by show 4 < 2 ^ 29; decide, Begins.nil _⟩, by show 0 < 4; decide⟩
      simp [Cvector.reserve, hsize, hnil, kmalloc, assertData, bind, Except.bind, cvectorInitSize,
        u32, adjustSize, pure, Except.pure]

theorem Holds.reserve_room (h : Holds v xs) (hlt : v.count < v.size) : v.Reserves xs granted := by
  have hsize : v.size ≠ 0 := Nat.ne_of_gt (Nat.zero_lt_of_lt hlt)
  refine Settles.of_eq_ok ?_ ⟨h, h.count ▸ hlt⟩
  simp [Cvector.reserve, hsize, Nat.not_le.2 hlt, bind, Except.bind, pure, Except.pure]

theorem Holds.reserve_full (h : Holds v xs) (hsize : v.size ≠ 0) (hfull : v.size ≤ v.count) :
    v.Reserves xs granted := by
  have hlt := h.size_lt
  have hblock := h.size
  have hdouble : u32 (v.size * 2) = 2 * v.size := by
    rw [u32_of_lt (by omega), Nat.mul_comm]
  have hbytes : u32 (4 * (2 * v.size)) = 8 * v.size := by
    rw [u32_of_lt (by omega)]
    omega
  have hless : ¬8 * v.size ≤ 4 * v.block.length := by omega
  have hslots : 8 * v.size / 4 - v.block.length = v.size := by omega
  have hreserve : v.reserve granted =
      if granted = true ∧ adjustSize (8 * v.size) = true then
        .ok { v with size := 2 * v.size, data := some (v.block ++ List.replicate v.size none) }
      else .error .assertion := by
    simp only [Cvector.reserve, if_neg hsize, hdouble, hbytes, krealloc, h.data_eq hsize,
      if_neg hless, hslots, bind, Except.bind, if_pos hfull]
    cases hadjust : adjustSize (8 * v.size) <;> cases granted <;> simp [assertData]
  rw [Reserves, hreserve]
  by_cases hg : granted = true ∧ adjustSize (8 * v.size) = true
  · rw [if_pos hg]
    have hadjust := adjustSize_le (by omega) hg.2
    have hlen := h.length_le
    refine Settles.ok ⟨⟨h.count, ?_, ?_, h.begins.append _⟩, ?_⟩
    · show 2 * v.size = (v.block ++ List.replicate v.size none).length
      rw [List.length_append, List.length_replicate]
      omega
    · show 2 * v.size < 2 ^ 29
      omega
    · show xs.length < 2 * v.size
      omega
  · rw [if_neg hg]
    exact Settles.error fun hgrants => hg (hgrants hfull)

theorem Holds.reserve (h : Holds v xs) (granted : Bool) : v.Reserves xs granted := by
  by_cases hlt : v.count < v.size
  · exact h.reserve_room hlt
  · by_cases hsize : v.size = 0
    · exact h.reserve_first hsize
    · exact h.reserve_full hsize (Nat.not_lt.1 hlt)

theorem Holds.push (h : Holds v xs) (hroom : xs.length < v.size) (e : α) :
    Holds { v with data := some (v.block.set xs.length (some e)), count := xs.length + 1 }
      (xs ++ [e]) := by
  refine ⟨?_, h.size.trans (List.length_set).symm, h.size_lt, h.begins.push (h.size ▸ hroom) e⟩
  rw [List.length_append]
  rfl

/-- `cvector_add` appends, or asserts where the heap has no room. -/
theorem Holds.add (h : Holds v xs) (e : α) (granted : Bool) :
    Settles .assertion (v.Grants granted) (v.add e granted) fun r =>
      r.1 = (xs.length : Int) ∧ r.2.Holds (xs ++ [e]) := by
  refine (h.reserve granted).bind fun u ⟨hheld, hroom⟩ => ?_
  have hlt := hheld.size_lt
  have hcount := hheld.count
  have hlen : xs.length < u.block.length := hheld.size ▸ hroom
  have hi32 : i32 (u.count : Int) = (xs.length : Int) := by
    rw [i32_eq] <;> omega
  have hnext : u32 (u.count + 1) = u.count + 1 := u32_of_lt (by omega)
  refine Settles.bind_ok (store_ok (hcount ▸ hlen)) ?_
  show Settles _ _ (.ok (i32 u.count, { u with
    data := some (u.block.set u.count (some e))
    count := u32 (u.count + 1) })) _
  rw [hi32, hnext, hcount]
  exact Settles.ok ⟨rfl, hheld.push hroom e⟩

/-! ### The elements behind a deleted one -/

/-- The elements behind the index move down by one, and the last one stays there as well. -/
theorem Holds.moveDown {pre post : List α} {x : α} (h : Holds v (pre ++ x :: post)) :
    ∃ w last, v.moveDown pre.length = .ok w ∧ Holds w (pre ++ post ++ [last]) := by
  have hlt := h.count_lt
  have hcount := h.count
  simp only [List.length_append, List.length_cons] at hlt hcount
  have hrounds : u32 (v.count + 2 ^ 32 - 1) - pre.length = post.length := by
    rw [u32_sub (by omega) (by omega)]
    omega
  rw [Cvector.moveDown, hrounds]
  clear hrounds hlt hcount
  induction post generalizing v pre x with
  | nil => exact ⟨v, x, rfl, by simpa using h⟩
  | cons y post ih =>
      have hload : v.load (pre.length + 1) = .ok y := by
        rw [h.load (by simp)]
        simp
      obtain ⟨u, hu, hheld, -⟩ := h.store (i := pre.length) (e := y) (by simp)
      have hmoved : Holds u ((pre ++ [y]) ++ y :: post) := by simpa using hheld
      obtain ⟨w, last, hw, hwheld⟩ := ih hmoved
      refine ⟨w, last, ?_, by simpa using hwheld⟩
      rw [List.length_append, List.length_singleton] at hw
      rw [List.length_cons, List.range'_succ, List.foldlM_cons, hload]
      simp only [bind, Except.bind] at hw ⊢
      rw [hu]
      exact hw

/-- The block is cut back to the elements and two free slots, or left alone. -/
theorem Holds.deleteResize (h : Holds v xs) (granted : Bool) :
    Settles .assertion (granted = true) (v.deleteResize granted) (·.Holds xs) := by
  have hlt := h.size_lt
  have hcount := h.count
  have hlen := h.length_le
  have hkeep : Holds { v with nextResize := i32 (v.nextResize - 1) } xs :=
    ⟨hcount, h.size, hlt, h.begins⟩
  have hnew : u32 (v.count + 2) = v.count + 2 := u32_of_lt (by omega)
  have htwice : u32 ((v.count + 2) * 2) = (v.count + 2) * 2 := u32_of_lt (by omega)
  by_cases hwait : 0 < v.nextResize
  · refine Settles.of_eq_ok ?_ hkeep
    simp [Cvector.deleteResize, hwait, pure, Except.pure]
  by_cases hlong : (v.count + 2) * 2 < v.size
  · have hblock := h.size
    have hdata := h.data_eq (by omega)
    have hbytes : u32 (4 * (v.count + 2)) = 4 * (v.count + 2) := u32_of_lt (by omega)
    have hadjust : adjustSize (4 * (v.count + 2)) = true := adjustSize_of_lt (by omega)
    have hless : 4 * (v.count + 2) ≤ 4 * v.block.length := by omega
    have hslots : 4 * (v.count + 2) / 4 = v.count + 2 := by omega
    simp only [Cvector.deleteResize, if_neg hwait, hnew, htwice, if_pos hlong, hbytes, krealloc,
      hdata, hadjust, if_pos hless, hslots]
    cases granted with
    | false => exact Settles.error Bool.false_ne_true
    | true =>
        refine Settles.ok ⟨hcount, ?_, ?_, h.begins.take (by omega)⟩
        · show v.count + 2 = (v.block.take (v.count + 2)).length
          rw [List.length_take]
          omega
        · show v.count + 2 < 2 ^ 29
          omega
  · refine Settles.of_eq_ok ?_ hkeep
    simp [Cvector.deleteResize, hwait, hnew, htwice, hlong, pure, Except.pure]

theorem Holds.shorten {ys : List α} (h : Holds v (xs ++ ys)) :
    Holds { v with count := xs.length } xs :=
  ⟨rfl, h.size, h.size_lt, h.begins.of_append⟩

/-- `cvector_delete` removes the element, or ends in the assertion of `mremap`. -/
theorem Holds.delete (h : Holds v xs) (hi : i < xs.length) (granted : Bool) :
    Settles .assertion (granted = true) (v.delete i granted) (·.Holds (xs.eraseIdx i)) := by
  have hlt := h.count_lt
  have hcount := h.count
  have hword : word (i : Int) = i := word_natCast (by omega)
  obtain ⟨pre, x, post, rfl, rfl⟩ : ∃ pre x post, xs = pre ++ x :: post ∧ pre.length = i := by
    refine ⟨xs.take i, xs[i], xs.drop (i + 1), ?_, List.length_take_of_le (Nat.le_of_lt hi)⟩
    rw [List.getElem_cons_drop, List.take_append_drop]
  obtain ⟨u, last, hu, hheld⟩ := h.moveDown
  have herase : (pre ++ x :: post).eraseIdx pre.length = pre ++ post := by
    rw [List.eraseIdx_append_of_length_le (Nat.le_refl _), Nat.sub_self, List.eraseIdx_cons_zero]
  have hless : u32 (u.count + 2 ^ 32 - 1) = (pre ++ post).length := by
    have hucount := hheld.count
    have hult := hheld.count_lt
    simp only [List.length_append, List.length_singleton] at hucount hult ⊢
    rw [u32_sub (by omega) (by omega)]
    omega
  have hdelete : v.delete pre.length granted =
      Cvector.deleteResize { u with count := (pre ++ post).length } granted := by
    rw [Cvector.delete, hword, if_pos (hcount ▸ hi), hu, ← hless]
    rfl
  rw [hdelete, herase]
  exact hheld.shorten.deleteResize granted

end Cvector

/-! ## Runs -/

variable {α : Type}

/-- A call, and whether the heap has the memory that it asks for. -/
inductive VectorCall (α : Type) where
  | add (e : α) (granted : Bool)
  | set (index : Nat) (e : α)
  | get (index : Int)
  | delete (index : Int) (granted : Bool)
  | reset
  | free
  deriving DecidableEq

/-- What a call returns. -/
inductive VectorResult (α : Type) where
  | void
  | index (i : Int)
  | item (e : α)
  deriving DecidableEq

/-- A vector and what has been returned so far. -/
structure VectorRun (α : Type) where
  vec : Cvector α
  results : List (VectorResult α)
  deriving DecidableEq

/-- After `cvector_init`. -/
def VectorRun.init : VectorRun α := ⟨Cvector.init, []⟩

/-- One call. -/
def vectorStep (w : VectorRun α) : VectorCall α → Except Failure (VectorRun α)
  | .add e granted => do
      let (i, v) ← w.vec.add e granted
      return ⟨v, w.results ++ [.index i]⟩
  | .set index e => do
      let v ← w.vec.set index e
      return ⟨v, w.results ++ [.void]⟩
  | .get index => do
      let e ← w.vec.get index
      return ⟨w.vec, w.results ++ [.item e]⟩
  | .delete index granted => do
      let v ← w.vec.delete index granted
      return ⟨v, w.results ++ [.void]⟩
  | .reset => return ⟨w.vec.reset, w.results ++ [.void]⟩
  | .free => return ⟨w.vec.free, w.results ++ [.void]⟩

/-- The index is in range. -/
def VectorCall.InRange (call : VectorCall α) (count : Nat) : Prop :=
  match call with
  | .set index _ => index < count
  | .get index => 0 ≤ index ∧ index < count
  | .delete index _ => 0 ≤ index ∧ index < count
  | _ => True

instance (call : VectorCall α) (count : Nat) : Decidable (call.InRange count) := by
  cases call <;> unfold VectorCall.InRange <;> infer_instance

/-- The memory that a call asks for, if any, is granted. -/
def Cvector.Succeeds (v : Cvector α) : VectorCall α → Prop
  | .add _ granted => v.Grants granted
  | .delete _ granted => granted = true
  | _ => True

/-- The same call on a list. -/
def listCall (xs : List α) : VectorCall α → List α × VectorResult α
  | .add e _ => (xs ++ [e], .index xs.length)
  | .set index e => (xs.set index e, .void)
  | .get index => (xs, xs[index.toNat]?.elim .void .item)
  | .delete index _ => (xs.eraseIdx index.toNat, .void)
  | .reset => ([], .void)
  | .free => ([], .void)

/-- Calls on a list, from the empty one on, and what they return. -/
def listCalls (calls : List (VectorCall α)) : List α × List (VectorResult α) :=
  calls.foldl (fun s call => ((listCall s.1 call).1, s.2 ++ [(listCall s.1 call).2])) ([], [])

variable {w : VectorRun α} {calls : List (VectorCall α)} {xs : List α}

/-- One call does what it does on the list, or ends in an assertion because memory was refused. -/
theorem vectorStep_spec (h : w.vec.Holds xs) (call : VectorCall α)
    (hin : call.InRange w.vec.count) :
    Settles .assertion (w.vec.Succeeds call) (vectorStep w call) fun u =>
      u.vec.Holds (listCall xs call).1 ∧ u.results = w.results ++ [(listCall xs call).2] := by
  rw [h.count] at hin
  cases call with
  | add e granted =>
      refine (h.add e granted).bind fun r ⟨hindex, hheld⟩ => Settles.ok ⟨hheld, ?_⟩
      rw [hindex]
      rfl
  | set index e =>
      obtain ⟨v, hv, hheld⟩ := h.set (e := e) hin
      exact Settles.bind_ok hv (Settles.ok ⟨hheld, rfl⟩)
  | get index =>
      obtain ⟨i, rfl⟩ := Int.eq_ofNat_of_zero_le hin.1
      have hi : i < xs.length := Int.ofNat_lt.1 hin.2
      refine Settles.bind_ok (h.get hi) (Settles.ok ⟨h, ?_⟩)
      simp only [listCall, Int.toNat_natCast, List.getElem?_eq_getElem hi]
      rfl
  | delete index granted =>
      obtain ⟨i, rfl⟩ := Int.eq_ofNat_of_zero_le hin.1
      have hi : i < xs.length := Int.ofNat_lt.1 hin.2
      exact (h.delete hi granted).bind fun v hheld => Settles.ok ⟨hheld, rfl⟩
  | reset => exact Settles.ok ⟨h.reset, rfl⟩
  | free => exact Settles.ok ⟨Cvector.Holds.init, rfl⟩

theorem listCalls_snoc (calls : List (VectorCall α)) (call : VectorCall α) :
    listCalls (calls ++ [call]) =
      ((listCall (listCalls calls).1 call).1,
        (listCalls calls).2 ++ [(listCall (listCalls calls).1 call).2]) := by
  rw [listCalls, List.foldl_append]
  rfl

theorem vector_holds (h : Run vectorStep (fun w call => call.InRange w.vec.count) .init calls w) :
    w.vec.Holds (listCalls calls).1 ∧ w.results = (listCalls calls).2 := by
  refine h.history (I := fun calls w =>
    w.vec.Holds (listCalls calls).1 ∧ w.results = (listCalls calls).2) ⟨Cvector.Holds.init, rfl⟩ ?_
  rintro calls t call u - ⟨hheld, hresults⟩ hin hstep
  obtain ⟨hnext, hmore⟩ := (vectorStep_spec hheld call hin).of_ok hstep
  rw [listCalls_snoc]
  exact ⟨hnext, hresults ▸ hmore⟩

/-- A vector behaves as a list. All its elements are in slots of its block, and no call with its
index in range accesses another slot: it returns if the memory it asks for is granted. -/
theorem vector_refines_list
    (h : Run vectorStep (fun w call => call.InRange w.vec.count) .init calls w) :
    w.results = (listCalls calls).2 ∧
      w.vec.block.take w.vec.count = (listCalls calls).1.map some ∧
      w.vec.count = (listCalls calls).1.length ∧
      w.vec.count ≤ w.vec.block.length ∧ w.vec.size = w.vec.block.length ∧
      ∀ call : VectorCall α, call.InRange w.vec.count →
        vectorStep w call ≠ .error .fault ∧
          (w.vec.Succeeds call → ∃ u, vectorStep w call = .ok u) := by
  obtain ⟨hheld, hresults⟩ := vector_holds h
  refine ⟨hresults, ?_, hheld.count, ?_, hheld.size, fun call hin => ?_⟩
  · rw [hheld.count]
    exact hheld.begins.eq_map_some
  · rw [hheld.count]
    exact hheld.begins.length_le
  · have hspec := vectorStep_spec hheld call hin
    refine ⟨hspec.ne_error (by decide), fun hsucc => ?_⟩
    obtain ⟨u, hu, -⟩ := hspec.exists_ok hsucc
    exact ⟨u, hu⟩

/-- Five elements, 16 deletions each followed by an addition, four deletions, of which the last one
cuts the block back to three slots, and additions until it grows again. -/
def cutBackCalls : List (VectorCall Nat) :=
  (List.range 5).map (VectorCall.add · true) ++
    (List.replicate 16 [.delete 0 true, .add 7 true]).flatten ++
    List.replicate 4 (.delete 1 true) ++ List.replicate 3 (.add 9 true) ++
    [.get 3, .set 0 5, .get 0, .reset, .add 6 true, .free]

theorem vector_refines_list_cutBack :
    ∃ w, Run vectorStep (fun w call => call.InRange w.vec.count) .init cutBackCalls w ∧
      w.results = (listCalls cutBackCalls).2 ∧ w.vec.count ≤ w.vec.block.length := by
  obtain ⟨w, hrun, -⟩ := Run.exists_of_exec (P := fun _ => True)
    (show ((Run.exec vectorStep (fun w call => call.InRange w.vec.count) cutBackCalls .init).any
      fun _ => True) = true by decide +kernel)
  have hlist := vector_refines_list hrun
  exact ⟨w, hrun, hlist.1, hlist.2.2.2.1⟩

end PartitionSeL4.Refos
