import Mathlib.Logic.Basic

/-!
# Calls that return unless they are refused something

A call that depends on memory or another resource may stop with one error, and does so only where
the resource is refused. `Settles e g x Q` says that `x` fails with `e`, and `g` is not the case, or
returns a result of which `Q` holds: never another error, and a result for certain where `g` holds.
The rules put the parts of a call together.
-/

namespace Lib

universe u v

variable {φ : Type v} {α β : Type u} {e e' : φ} {g g' : Prop} {x : Except φ α} {a : α}
  {Q R : α → Prop}

/-- The call fails with `e` because `g` is not the case, or returns as `Q` says. -/
def Settles (e : φ) (g : Prop) (x : Except φ α) (Q : α → Prop) : Prop :=
  (¬g ∧ x = .error e) ∨ ∃ a, x = .ok a ∧ Q a

namespace Settles

theorem ok (h : Q a) : Settles e g (.ok a) Q := Or.inr ⟨a, rfl, h⟩

theorem of_eq_ok (hx : x = .ok a) (h : Q a) : Settles e g x Q := Or.inr ⟨a, hx, h⟩

theorem error (h : ¬g) : Settles e g (.error e : Except φ α) Q := Or.inl ⟨h, rfl⟩

theorem bind {f : α → Except φ β} {R : β → Prop} (h : Settles e g x Q)
    (hf : ∀ a, Q a → Settles e g (f a) R) : Settles e g (x >>= f) R := by
  rcases h with ⟨hg, rfl⟩ | ⟨a, rfl, hQ⟩
  · exact Or.inl ⟨hg, rfl⟩
  · exact hf a hQ

theorem bind_ok {f : α → Except φ β} {R : β → Prop} (hx : x = .ok a)
    (hf : Settles e g (f a) R) : Settles e g (x >>= f) R := by
  rw [hx]
  exact hf

theorem imp (h : Settles e g x Q) (himp : ∀ a, Q a → R a) : Settles e g x R :=
  h.imp_right fun ⟨a, hx, hQ⟩ => ⟨a, hx, himp a hQ⟩

theorem mono (h : Settles e g x Q) (hg : g' → g) : Settles e g' x Q :=
  h.imp_left fun ⟨hnot, hx⟩ => ⟨fun hg' => hnot (hg hg'), hx⟩

theorem of_ok (h : Settles e g x Q) (hx : x = .ok a) : Q a := by
  rcases h with ⟨-, herr⟩ | ⟨b, hb, hQ⟩
  · cases hx.symm.trans herr
  · exact Except.ok.inj (hb.symm.trans hx) ▸ hQ

theorem ne_error (h : Settles e g x Q) (hne : e' ≠ e) : x ≠ .error e' := by
  rintro rfl
  rcases h with ⟨-, herr⟩ | ⟨b, hb, -⟩
  · exact hne (Except.error.inj herr)
  · cases hb

theorem exists_ok (h : Settles e g x Q) (hg : g) : ∃ a, x = .ok a ∧ Q a :=
  h.resolve_left fun hnot => hnot.1 hg

end Settles

end Lib
