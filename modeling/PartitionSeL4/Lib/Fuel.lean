import Mathlib.Data.Option.Basic
import Mathlib.Order.Basic

/-!
# Computations that may not end

A computation that may not end is a function of an amount of fuel, which has no result as long as
there is too little. It *returns* a result if there is one for some amount, and the result does not
depend on the amount if more fuel changes nothing (`FuelMono`).

`loop body` is the loop whose rounds lead to the next state or out of it. A round of a loop can be
unrolled (`returns_loop_inl`, `returns_loop_inr`); an invariant holds at the end (`loop_invariant`),
and one that leads from every state to the next round never lets it end (`not_returns_loop`).
-/

namespace Lib

universe u v w

variable {α : Type u} {β : Type v} {σ : Type w} {ρ : Type u}

/-- There is a result with enough fuel. -/
def Returns (x : Nat → Option α) (a : α) : Prop := ∃ fuel, x fuel = some a

/-- More fuel does not change a result. -/
def FuelMono (x : Nat → Option α) : Prop := ∀ f g a, f ≤ g → x f = some a → x g = some a

theorem FuelMono.of_succ {x : Nat → Option α} (h : ∀ f a, x f = some a → x (f + 1) = some a) :
    FuelMono x := by
  intro f g a hle hf
  obtain ⟨d, rfl⟩ := Nat.exists_eq_add_of_le hle
  induction d with
  | zero => exact hf
  | succ d ih => exact h (f + d) a (ih (Nat.le_add_right f d))

theorem Returns.unique {x : Nat → Option α} (hx : FuelMono x) {a b : α} (ha : Returns x a)
    (hb : Returns x b) : a = b := by
  obtain ⟨f, hf⟩ := ha
  obtain ⟨g, hg⟩ := hb
  have hf' := hx f (max f g) a (Nat.le_max_left f g) hf
  have hg' := hx g (max f g) b (Nat.le_max_right f g) hg
  exact Option.some.inj (hf'.symm.trans hg')

theorem FuelMono.const (x : Option α) : FuelMono fun _ => x := fun _ _ _ _ h => h

theorem returns_const_iff {x : Option α} {a : α} : Returns (fun _ => x) a ↔ x = some a :=
  ⟨fun ⟨_, h⟩ => h, fun h => ⟨0, h⟩⟩

theorem FuelMono.bind {x : Nat → Option α} {y : α → Nat → Option β} (hx : FuelMono x)
    (hy : ∀ a, FuelMono (y a)) : FuelMono fun f => (x f).bind fun a => y a f := by
  intro f g b hle hf
  obtain ⟨a, ha, hb⟩ := Option.bind_eq_some_iff.1 hf
  exact Option.bind_eq_some_iff.2 ⟨a, hx f g a hle ha, hy a f g b hle hb⟩

theorem returns_bind_iff {x : Nat → Option α} {y : α → Nat → Option β} (hx : FuelMono x)
    (hy : ∀ a, FuelMono (y a)) {b : β} :
    Returns (fun f => (x f).bind fun a => y a f) b ↔ ∃ a, Returns x a ∧ Returns (y a) b := by
  constructor
  · rintro ⟨f, hf⟩
    obtain ⟨a, ha, hb⟩ := Option.bind_eq_some_iff.1 hf
    exact ⟨a, ⟨f, ha⟩, f, hb⟩
  · rintro ⟨a, ⟨f, hf⟩, g, hg⟩
    refine ⟨max f g, Option.bind_eq_some_iff.2 ⟨a, ?_, ?_⟩⟩
    · exact hx f _ a (Nat.le_max_left f g) hf
    · exact hy a g _ b (Nat.le_max_right f g) hg

/-! ## Loops -/

/-- A loop: a round leads to the next state, or ends it with a result. -/
def loop (body : σ → σ ⊕ ρ) : Nat → σ → Option ρ
  | 0, _ => none
  | fuel + 1, s =>
      match body s with
      | .inl t => loop body fuel t
      | .inr r => some r

section

variable {body : σ → σ ⊕ ρ} {s t : σ} {r r' : ρ}

theorem loop_succ_inl (h : body s = .inl t) (fuel : Nat) :
    loop body (fuel + 1) s = loop body fuel t := by
  rw [loop, h]

theorem loop_succ_inr (h : body s = .inr r) (fuel : Nat) :
    loop body (fuel + 1) s = some r := by
  rw [loop, h]

theorem loop_mono (body : σ → σ ⊕ ρ) (s : σ) : FuelMono fun f => loop body f s := by
  refine .of_succ fun f => ?_
  induction f generalizing s with
  | zero => exact fun _ h => nomatch h
  | succ f ih =>
      intro r h
      cases hbody : body s with
      | inl t =>
          have ht : loop body f t = some r := (loop_succ_inl hbody f).symm.trans h
          exact (loop_succ_inl hbody (f + 1)).trans (ih t r ht)
      | inr r' =>
          have hr : some r' = some r := (loop_succ_inr hbody f).symm.trans h
          exact (loop_succ_inr hbody (f + 1)).trans hr

theorem returns_loop_inl (h : body s = .inl t) :
    Returns (fun f => loop body f s) r ↔ Returns (fun f => loop body f t) r := by
  constructor
  · rintro ⟨f, hf⟩
    cases f with
    | zero => cases hf
    | succ f => exact ⟨f, (loop_succ_inl h f).symm.trans hf⟩
  · rintro ⟨f, hf⟩
    exact ⟨f + 1, (loop_succ_inl h f).trans hf⟩

theorem returns_loop_inr (h : body s = .inr r') :
    Returns (fun f => loop body f s) r ↔ r = r' := by
  constructor
  · rintro ⟨f, hf⟩
    cases f with
    | zero => cases hf
    | succ f => exact (Option.some.inj ((loop_succ_inr h f).symm.trans hf)).symm
  · rintro rfl
    exact ⟨1, loop_succ_inr h 0⟩

/-- What holds at the beginning and is kept by the rounds gives what holds of the result. -/
theorem loop_invariant {I : σ → Prop} {Q : ρ → Prop} (hround : ∀ s t, I s → body s = .inl t → I t)
    (hend : ∀ s r, I s → body s = .inr r → Q r) {fuel : Nat} (hs : I s)
    (h : loop body fuel s = some r) : Q r := by
  induction fuel generalizing s with
  | zero => cases h
  | succ fuel ih =>
      cases hbody : body s with
      | inl t =>
          rw [loop_succ_inl hbody] at h
          exact ih (hround s t hs hbody) h
      | inr r' =>
          rw [loop_succ_inr hbody] at h
          exact Option.some.inj h ▸ hend s r' hs hbody

/-- Where there is always another round, the loop does not end. -/
theorem not_returns_loop {I : σ → Prop} (hround : ∀ s, I s → ∃ t, body s = .inl t ∧ I t)
    (hs : I s) : ¬Returns (fun f => loop body f s) r := by
  rintro ⟨f, hf⟩
  refine loop_invariant (I := I) (Q := fun _ => False) (fun s t hI h => ?_) (fun s r hI h => ?_)
    hs hf
  · obtain ⟨t', ht', hI'⟩ := hround s hI
    exact Sum.inl.inj (ht'.symm.trans h) ▸ hI'
  · obtain ⟨t', ht', _⟩ := hround s hI
    exact nomatch ht'.symm.trans h

end

end Lib
