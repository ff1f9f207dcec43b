import Mathlib.Data.Finset.Card
import Mathlib.Data.Finset.Sum
import Mathlib.Data.List.Induction
import Mathlib.Logic.Function.Basic

/-!
# Reference counts

Resources of a type `ρ` are live or not, and each live one has a count. Slots of a type `ι` hold at
most one resource each. `RefCounted` says that the counts are right: every resource that is held is
live, and the count of a live one is the number of the slots that hold it and one more for its
owner.

There is one lemma for each thing that can be done: a slot takes a resource or drops it, a resource
is created, and one that no slot holds is destroyed.

`life` looks at a single resource and at what is done with it in the course of time. It goes through
if the resource is destroyed as soon as its last reference is dropped, and if nobody touches it
after that until it is created again.
-/

namespace Lib

variable {ι ρ : Type*} [DecidableEq ρ]

/-- The slots that hold a resource. -/
def holders (dom : Finset ι) (held : ι → Option ρ) (r : ρ) : Finset ι :=
  dom.filter fun i => held i = some r

/-- The counts of the live resources are right. -/
structure RefCounted (dom : Finset ι) (count : ρ → Option Nat) (held : ι → Option ρ) : Prop where
  inside : ∀ i r, held i = some r → i ∈ dom
  live : ∀ i r, held i = some r → (count r).isSome
  count_eq : ∀ r n, count r = some n → n = 1 + (holders dom held r).card

variable {dom : Finset ι} {count : ρ → Option Nat} {held : ι → Option ρ} {i : ι} {r r' : ρ}
  {n : Nat}

theorem mem_holders : i ∈ holders dom held r ↔ i ∈ dom ∧ held i = some r := Finset.mem_filter

theorem holders_drop [DecidableEq ι] (hi : held i = some r) :
    holders dom (Function.update held i none) r' = (holders dom held r').erase i := by
  ext j
  by_cases hj : j = i
  · subst hj
    simp [mem_holders]
  · simp [mem_holders, hj]

theorem holders_take [DecidableEq ι] (hi : i ∈ dom) (hfree : held i = none) :
    holders dom (Function.update held i (some r)) r' =
      if r' = r then insert i (holders dom held r') else holders dom held r' := by
  ext j
  by_cases hj : j = i
  · subst hj
    split_ifs with hr
    · simp [mem_holders, hi, hr]
    · simp [mem_holders, hfree, Ne.symm hr]
  · split_ifs <;> simp [mem_holders, hj]

namespace RefCounted

variable (h : RefCounted dom count held)

include h

/-- A resource that a slot holds has a count of two or more. -/
theorem count_of_held (hi : held i = some r) : ∃ n, count r = some (n + 2) := by
  obtain ⟨n, hn⟩ := Option.isSome_iff_exists.1 (h.live i r hi)
  have hmem : i ∈ holders dom held r := mem_holders.2 ⟨h.inside i r hi, hi⟩
  have hpos := Finset.card_pos.2 ⟨i, hmem⟩
  have heq := h.count_eq r n hn
  exact ⟨n - 2, by rw [hn]; congr 1; omega⟩

theorem drop [DecidableEq ι] (hi : held i = some r) (hr : count r = some (n + 1)) :
    RefCounted dom (Function.update count r (some n)) (Function.update held i none) := by
  have hmem : i ∈ holders dom held r := mem_holders.2 ⟨h.inside i r hi, hi⟩
  refine ⟨fun j r' hj => ?_, fun j r' hj => ?_, fun r' m hm => ?_⟩
  · by_cases hji : j = i
    · subst hji
      simp at hj
    · rw [Function.update_of_ne hji] at hj
      exact h.inside j r' hj
  · by_cases hji : j = i
    · subst hji
      simp at hj
    · rw [Function.update_of_ne hji] at hj
      by_cases hr' : r' = r
      · subst hr'
        simp
      · rw [Function.update_of_ne hr']
        exact h.live j r' hj
  · rw [holders_drop hi]
    by_cases hr' : r' = r
    · subst hr'
      rw [Function.update_self] at hm
      have heq := h.count_eq r' _ hr
      have hcard := Finset.card_erase_add_one hmem
      have := Option.some.inj hm
      omega
    · rw [Function.update_of_ne hr'] at hm
      rw [h.count_eq r' m hm, Finset.erase_eq_of_notMem]
      intro hmem'
      exact hr' (Option.some.inj ((mem_holders.1 hmem').2.symm.trans hi))

theorem take [DecidableEq ι] (hi : i ∈ dom) (hfree : held i = none) (hr : count r = some n) :
    RefCounted dom (Function.update count r (some (n + 1))) (Function.update held i (some r)) := by
  refine ⟨fun j r' hj => ?_, fun j r' hj => ?_, fun r' m hm => ?_⟩
  · by_cases hji : j = i
    · exact hji ▸ hi
    · rw [Function.update_of_ne hji] at hj
      exact h.inside j r' hj
  · by_cases hr' : r' = r
    · subst hr'
      simp
    · rw [Function.update_of_ne hr']
      by_cases hji : j = i
      · subst hji
        rw [Function.update_self] at hj
        exact absurd (Option.some.inj hj).symm hr'
      · rw [Function.update_of_ne hji] at hj
        exact h.live j r' hj
  · rw [holders_take hi hfree]
    by_cases hr' : r' = r
    · subst hr'
      rw [Function.update_self] at hm
      have hnot : i ∉ holders dom held r' := fun hmem => by
        rw [(mem_holders.1 hmem).2] at hfree
        cases hfree
      rw [if_pos rfl, Finset.card_insert_of_notMem hnot]
      have heq := h.count_eq r' n hr
      have := Option.some.inj hm
      omega
    · rw [Function.update_of_ne hr'] at hm
      rw [if_neg hr']
      exact h.count_eq r' m hm

theorem held_ne (hr : count r = none) (i : ι) : held i ≠ some r := fun hi => by
  have := h.live i r hi
  rw [hr] at this
  cases this

theorem create (hr : count r = none) : RefCounted dom (Function.update count r (some 1)) held := by
  refine ⟨h.inside, fun j r' hj => ?_, fun r' m hm => ?_⟩
  · have hr' : r' ≠ r := fun heq => h.held_ne hr j (heq ▸ hj)
    rw [Function.update_of_ne hr']
    exact h.live j r' hj
  · by_cases hr' : r' = r
    · subst hr'
      rw [Function.update_self] at hm
      have hnone : holders dom held r' = ∅ :=
        Finset.filter_eq_empty_iff.2 fun j _ => h.held_ne hr j
      rw [hnone, Finset.card_empty]
      exact (Option.some.inj hm).symm
    · rw [Function.update_of_ne hr'] at hm
      exact h.count_eq r' m hm

/-- The count of a resource that no slot holds is one. -/
theorem count_of_free (hfree : ∀ i, held i ≠ some r) (hr : count r = some n) : n = 1 := by
  have hnone : holders dom held r = ∅ := Finset.filter_eq_empty_iff.2 fun j _ => hfree j
  have heq := h.count_eq r n hr
  rw [hnone, Finset.card_empty] at heq
  exact heq

theorem destroy (hfree : ∀ i, held i ≠ some r) :
    RefCounted dom (Function.update count r none) held := by
  refine ⟨h.inside, fun j r' hj => ?_, fun r' m hm => ?_⟩
  · have hr' : r' ≠ r := fun heq => hfree j (heq ▸ hj)
    rw [Function.update_of_ne hr']
    exact h.live j r' hj
  · have hr' : r' ≠ r := by
      rintro rfl
      simp at hm
    rw [Function.update_of_ne hr'] at hm
    exact h.count_eq r' m hm

end RefCounted

/-! ## The life of one resource -/

/-- What is done with a resource. -/
inductive Access where
  | create
  | take
  | use
  | drop
  | destroy
  deriving DecidableEq, Repr

/-- The references to a resource after an access; `none` where there is no resource. -/
def Access.step : Option Nat → Access → Option (Option Nat)
  | none, .create => some (some 1)
  | some (n + 1), .take => some (some (n + 2))
  | some (n + 1), .use => some (some (n + 1))
  | some (n + 1), .drop => some (some n)
  | some 0, .destroy => some none
  | _, _ => none

/-- The references after a history that begins without the resource, if it goes through. -/
def life (log : List Access) : Option (Option Nat) := log.foldlM Access.step none

theorem life_append (log rest : List Access) :
    life (log ++ rest) = (life log).bind fun refs => rest.foldlM Access.step refs :=
  List.foldlM_append

theorem life_snoc {log : List Access} {refs : Option Nat} (h : life log = some refs) (a : Access) :
    life (log ++ [a]) = Access.step refs a := by
  rw [life_append, h, Option.bind_some, List.foldlM_cons]
  cases Access.step refs a <;> rfl

theorem life_prefix {log rest : List Access} {refs : Option Nat}
    (h : life (log ++ rest) = some refs) : ∃ refs', life log = some refs' := by
  rw [life_append] at h
  obtain ⟨refs', hlog, _⟩ := Option.bind_eq_some_iff.1 h
  exact ⟨refs', hlog⟩

theorem Access.step_count {refs refs' : Option Nat} {a : Access}
    (h : Access.step refs a = some refs') :
    [a].count .create + refs.isSome.toNat = [a].count .destroy + refs'.isSome.toNat := by
  rcases refs with _ | _ | n <;> cases a <;> cases h <;> rfl

/-- A resource is destroyed as often as it is created, and once less as long as it is there. -/
theorem life_count {log : List Access} {refs : Option Nat} (h : life log = some refs) :
    log.count .create = log.count .destroy + refs.isSome.toNat := by
  induction log using List.reverseRecOn generalizing refs with
  | nil =>
      obtain rfl := Option.some.inj h
      rfl
  | append_singleton log a ih =>
      obtain ⟨refs', hlog⟩ := life_prefix h
      rw [life_snoc hlog] at h
      have hcount := ih hlog
      have hstep := Access.step_count h
      rw [List.count_append, List.count_append]
      omega

end Lib
