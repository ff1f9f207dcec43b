import Mathlib.Data.List.Induction

/-!
# Runs of a fallible step function

A server is a step function `σ → ε → Except φ σ`: an event either leads to the next state or
ends the server (an assertion, an endless loop). A *run* is a list of events, each of them
admitted in the state it meets and each of them returning. Everything that holds "in any order,
over any finite run" is an induction over `Run`, packaged here once:

* `Run.invariant` — a property of states kept by every admitted step holds at the end of a run;
* `Run.history` — the same for a property of the events so far and the state;
* `Run.exists_of_progress` — an event list whose steps cannot fail does have a run;
* `Run.of_exec` — a run by execution, for concrete events.
-/

namespace Lib

universe u

variable {σ ε φ : Type*}

theorem bind_eq_ok_iff {α β : Type u} {x : Except φ α} {f : α → Except φ β} {b : β} :
    (x >>= f) = .ok b ↔ ∃ a, x = .ok a ∧ f a = .ok b := by
  cases x <;> simp [bind, Except.bind]

theorem eq_ok_of_toOption {α : Type u} {x : Except φ α} {a : α} (h : x.toOption = some a) :
    x = .ok a := by
  cases x with
  | error e => cases h
  | ok b => exact congrArg Except.ok (Option.some.inj h)

/-- A loop none of whose rounds fails: every round keeps the invariant `I`, is a change of the kind
`R`, and brings about `Q` for its element, which later rounds keep. -/
theorem foldlM_rounds {α σ : Type u} {f : σ → α → Except φ σ} {I : σ → Prop} {R : σ → σ → Prop}
    {Q : α → σ → Prop} (hrefl : ∀ s, I s → R s s) (htrans : ∀ s t u, R s t → R t u → R s u)
    (hf : ∀ s a, I s → ∃ t, f s a = .ok t ∧ I t ∧ R s t ∧ Q a t)
    (hQ : ∀ a s t, Q a s → R s t → Q a t) (l : List α) {s : σ} (h : I s) :
    ∃ t, l.foldlM f s = .ok t ∧ I t ∧ R s t ∧ ∀ a ∈ l, Q a t := by
  induction l generalizing s with
  | nil => exact ⟨s, rfl, h, hrefl s h, fun _ ha => nomatch ha⟩
  | cons a l ih =>
      obtain ⟨t, ht, hIt, hRt, hQt⟩ := hf s a h
      obtain ⟨u, hu, hIu, hRu, hrest⟩ := ih hIt
      refine ⟨u, ?_, hIu, htrans s t u hRt hRu, fun b hb => ?_⟩
      · rw [List.foldlM_cons, ht]
        exact hu
      · rcases List.mem_cons.1 hb with rfl | hb
        · exact hQ b t u hQt hRu
        · exact hrest b hb

/-- A search none of whose tests fails. -/
theorem findSomeM?_ok {α β : Type u} {f : α → Except φ (Option β)} {g : α → Option β} {l : List α}
    (h : ∀ a ∈ l, f a = .ok (g a)) : l.findSomeM? f = .ok (l.findSome? g) := by
  induction l with
  | nil => rfl
  | cons a l ih =>
      have hrest := ih fun b hb => h b (List.mem_cons_of_mem a hb)
      rw [List.findSomeM?, h a List.mem_cons_self, List.findSome?_cons]
      cases hg : g a with
      | some b => rfl
      | none => exact hrest

theorem anyM_ok {α : Type} {f : α → Except φ Bool} {g : α → Bool} {l : List α}
    (h : ∀ a ∈ l, f a = .ok (g a)) : l.anyM f = .ok (l.any g) := by
  induction l with
  | nil => rfl
  | cons a l ih =>
      have hrest := ih fun b hb => h b (List.mem_cons_of_mem a hb)
      rw [List.anyM, h a List.mem_cons_self, List.any_cons]
      cases hg : g a with
      | true => rfl
      | false => exact hrest

/-- `Run step ok s evs t`: the events `evs` lead from `s` to `t`, every one of them admitted by
`ok` in the state it meets, and every step returning. -/
inductive Run (step : σ → ε → Except φ σ) (ok : σ → ε → Prop) (s : σ) : List ε → σ → Prop
  | nil : Run step ok s [] s
  | snoc {evs : List ε} {t u : σ} {e : ε} :
      Run step ok s evs t → ok t e → step t e = .ok u → Run step ok s (evs ++ [e]) u

namespace Run

variable {step : σ → ε → Except φ σ} {ok ok' : σ → ε → Prop} {s t u : σ} {evs evs' : List ε}

/-- A property of the events so far and of the state they led to. -/
theorem history {I : List ε → σ → Prop} (h : Run step ok s evs t) (hinit : I [] s)
    (hstep : ∀ evs t e u, Run step ok s evs t → I evs t → ok t e → step t e = .ok u →
      I (evs ++ [e]) u) : I evs t := by
  induction h with
  | nil => exact hinit
  | snoc hrun hok hu ih => exact hstep _ _ _ _ hrun ih hok hu

/-- A property of states that every admitted step keeps. -/
theorem invariant {I : σ → Prop} (h : Run step ok s evs t) (hinit : I s)
    (hstep : ∀ t e u, I t → ok t e → step t e = .ok u → I u) : I t :=
  h.history (I := fun _ t => I t) hinit fun _ t e u _ hI hok hu => hstep t e u hI hok hu

/-- Admitting more events keeps the runs there were. -/
theorem mono (h : Run step ok s evs t) (hsub : ∀ t e, ok t e → ok' t e) :
    Run step ok' s evs t := by
  induction h with
  | nil => exact .nil
  | snoc _ hok hu ih => exact .snoc ih (hsub _ _ hok) hu

theorem trans (h : Run step ok s evs t) (h' : Run step ok t evs' u) :
    Run step ok s (evs ++ evs') u := by
  induction h' with
  | nil => simpa using h
  | snoc _ hok hu ih =>
      rw [← List.append_assoc]
      exact .snoc ih hok hu

theorem single {e : ε} (hok : ok s e) (hu : step s e = .ok u) : Run step ok s [e] u := by
  rw [← List.nil_append [e]]
  exact .snoc .nil hok hu

theorem nil_inv (h : Run step ok s [] t) : t = s := by
  generalize hl : ([] : List ε) = l at h
  cases h with
  | nil => rfl
  | snoc _ _ _ => simp at hl

theorem cons_inv {e : ε} (h : Run step ok s (e :: evs) t) :
    ∃ u, ok s e ∧ step s e = .ok u ∧ Run step ok u evs t := by
  generalize hl : e :: evs = l at h
  induction h generalizing evs with
  | nil => cases hl
  | @snoc evs' t u e' hrun hok hu ih =>
      cases evs' with
      | nil =>
          obtain ⟨rfl, rfl⟩ := List.cons.inj hl
          obtain rfl := hrun.nil_inv
          exact ⟨u, hok, hu, .nil⟩
      | cons e₁ evs₁ =>
          obtain ⟨rfl, rfl⟩ := List.cons.inj hl
          obtain ⟨u₁, hok₁, hu₁, hrun₁⟩ := ih rfl
          exact ⟨u₁, hok₁, hu₁, .snoc hrun₁ hok hu⟩

/-- Execute a list of events, as long as they are admitted and return. -/
def exec (step : σ → ε → Except φ σ) (ok : σ → ε → Prop) [∀ s e, Decidable (ok s e)] :
    List ε → σ → Option σ
  | [], s => some s
  | e :: evs, s =>
      if ok s e then
        match step s e with
        | .ok t => exec step ok evs t
        | .error _ => none
      else none

/-- An execution that goes through is a run. -/
theorem of_exec [∀ s e, Decidable (ok s e)] (h : exec step ok evs s = some t) :
    Run step ok s evs t := by
  induction evs generalizing s with
  | nil =>
      cases h
      exact .nil
  | cons e evs ih =>
      rw [exec] at h
      split_ifs at h with hok
      cases hstep : step s e with
      | error f => simp [hstep] at h
      | ok u =>
          simp only [hstep] at h
          exact (single hok hstep).trans (ih h)

/-- A property of the state after a run, by execution. -/
theorem exists_of_exec [∀ s e, Decidable (ok s e)] {P : σ → Prop} [DecidablePred P]
    (h : ((exec step ok evs s).any fun t => P t) = true) : ∃ t, Run step ok s evs t ∧ P t := by
  obtain ⟨t, ht, hP⟩ := (Option.any_eq_true _ _).1 h
  exact ⟨t, of_exec ht, of_decide_eq_true hP⟩

/-- Where an invariant excludes every failure, every admissible event list has a run. -/
theorem exists_of_progress {I : σ → Prop} (hinit : I s) (hok : ∀ t e, I t → e ∈ evs → ok t e)
    (hstep : ∀ t e, I t → ok t e → ∃ u, step t e = .ok u ∧ I u) :
    ∃ t, Run step ok s evs t ∧ I t := by
  induction evs using List.reverseRecOn with
  | nil => exact ⟨s, .nil, hinit⟩
  | append_singleton evs e ih =>
      obtain ⟨t, ht, hI⟩ := ih fun t e' hI he' => hok t e' hI (by simp [he'])
      have hadm := hok t e hI (by simp)
      obtain ⟨u, hu, hIu⟩ := hstep t e hI hadm
      exact ⟨u, .snoc ht hadm hu, hIu⟩

end Run

/-! ## Properties of the steps of a run -/

section Steps

variable (step : σ → ε → Except φ σ)

/-- The sum of `f` over the steps of a run. -/
def tally (f : σ → ε → Nat) : List ε → σ → Nat
  | [], _ => 0
  | e :: evs, s => f s e +
      match step s e with
      | .ok t => tally f evs t
      | .error _ => 0

/-- Every step of a run satisfies `Q`. -/
def Steps (Q : σ → ε → σ → Prop) : List ε → σ → Prop
  | [], _ => True
  | e :: evs, s => ∀ t, step s e = .ok t → Q s e t ∧ Steps Q evs t

variable {step} {ok : σ → ε → Prop} {s t : σ} {evs : List ε}

theorem tally_snoc {f : σ → ε → Nat} {e : ε} (h : Run step ok s evs t) :
    tally step f (evs ++ [e]) s = tally step f evs s + f t e := by
  induction evs generalizing s with
  | nil =>
      rw [h.nil_inv, List.nil_append, tally, tally, Nat.zero_add]
      cases step s e <;> rfl
  | cons e₁ evs ih =>
      obtain ⟨u, _, hu, hrun⟩ := h.cons_inv
      rw [List.cons_append, tally, tally, hu]
      simp only [ih hrun]
      omega

/-- A property that admission and the step function give holds of every step of a run. -/
theorem Run.steps {Q : σ → ε → σ → Prop} (h : Run step ok s evs t)
    (hQ : ∀ t e u, ok t e → step t e = .ok u → Q t e u) : Steps step Q evs s := by
  induction evs generalizing s with
  | nil => trivial
  | cons e evs ih =>
      obtain ⟨u, hok, hu, hrun⟩ := h.cons_inv
      intro v hv
      rw [hu] at hv
      cases hv
      exact ⟨hQ s e u hok hu, ih hrun⟩

/-- A property of steps that an invariant gives. -/
theorem Run.steps_invariant {I : σ → Prop} {Q : σ → ε → σ → Prop} (h : Run step ok s evs t)
    (hinit : I s) (hstep : ∀ t e u, I t → ok t e → step t e = .ok u → I u ∧ Q t e u) :
    I t ∧ Steps step Q evs s := by
  induction evs generalizing s with
  | nil =>
      obtain rfl := h.nil_inv
      exact ⟨hinit, trivial⟩
  | cons e evs ih =>
      obtain ⟨u, hok, hu, hrun⟩ := h.cons_inv
      obtain ⟨hIu, hQ⟩ := hstep s e u hinit hok hu
      obtain ⟨hIt, hrest⟩ := ih hrun hIu
      refine ⟨hIt, fun v hv => ?_⟩
      rw [hu] at hv
      cases hv
      exact ⟨hQ, hrest⟩

/-- What holds of every step holds of the last one. -/
theorem Run.last_step {Q : σ → ε → σ → Prop} {e : ε} {u : σ} (h : Run step ok s evs t)
    (hsteps : Steps step Q (evs ++ [e]) s) (hu : step t e = .ok u) : Q t e u := by
  induction evs generalizing s with
  | nil =>
      obtain rfl := h.nil_inv
      exact (hsteps u hu).1
  | cons e₁ evs ih =>
      obtain ⟨v, _, hv, hrun⟩ := h.cons_inv
      exact ih hrun (hsteps v hv).2

/-- Where two properties of steps agree as long as all steps so far have the one, all steps of a run
have the one if and only if all have the other. -/
theorem Run.steps_congr {I : σ → Prop} {Q Q' : σ → ε → σ → Prop} (h : Run step ok s evs t)
    (hinit : I s) (hstep : ∀ t e u, I t → ok t e → step t e = .ok u → Q t e u → I u)
    (hiff : ∀ t e u, I t → ok t e → step t e = .ok u → (Q t e u ↔ Q' t e u)) :
    Steps step Q evs s ↔ Steps step Q' evs s := by
  induction evs generalizing s with
  | nil => exact Iff.rfl
  | cons e evs ih =>
      obtain ⟨u, hok, hu, hrun⟩ := h.cons_inv
      have hhead := hiff s e u hinit hok hu
      constructor
      · intro hQ v hv
        obtain ⟨h1, h2⟩ := hQ v hv
        rw [hu] at hv
        cases hv
        exact ⟨hhead.1 h1, (ih hrun (hstep s e u hinit hok hu h1)).1 h2⟩
      · intro hQ v hv
        obtain ⟨h1, h2⟩ := hQ v hv
        rw [hu] at hv
        cases hv
        have h1' := hhead.2 h1
        exact ⟨h1', (ih hrun (hstep s e u hinit hok hu h1')).2 h2⟩

/-- A property of states that every step satisfying `Q` keeps, in a run of such steps. -/
theorem Run.invariant_of_steps {I : σ → Prop} {Q : σ → ε → σ → Prop} (h : Run step ok s evs t)
    (hsteps : Steps step Q evs s) (hinit : I s)
    (hstep : ∀ t e u, I t → ok t e → step t e = .ok u → Q t e u → I u) : I t := by
  induction evs generalizing s with
  | nil => exact h.nil_inv ▸ hinit
  | cons e evs ih =>
      obtain ⟨u, hok, hu, hrun⟩ := h.cons_inv
      obtain ⟨hQ, hrest⟩ := hsteps u hu
      exact ih hrun hrest (hstep s e u hinit hok hu hQ)

/-- What holds after every step holds at the end. -/
theorem Run.of_steps {P : σ → Prop} (h : Run step ok s evs t) (hP : P s)
    (hsteps : Steps step (fun _ _ u => P u) evs s) : P t := by
  induction evs generalizing s with
  | nil => exact h.nil_inv ▸ hP
  | cons e evs ih =>
      obtain ⟨u, _, hu, hrun⟩ := h.cons_inv
      obtain ⟨hPu, hrest⟩ := hsteps u hu
      exact ih hrun hPu hrest

/-- Where a step reaches `P` if and only if it satisfies `Q`, `P` holds all along a run if and only
if all its steps satisfy `Q`. -/
theorem Run.steps_iff {I P : σ → Prop} {Q : σ → ε → σ → Prop} (h : Run step ok s evs t)
    (hinit : I s) (hP : P s)
    (hstep : ∀ t e u, I t → P t → ok t e → step t e = .ok u → I u ∧ (P u ↔ Q t e u)) :
    Steps step (fun _ _ u => P u) evs s ↔ Steps step Q evs s := by
  induction evs generalizing s with
  | nil => exact Iff.rfl
  | cons e evs ih =>
      obtain ⟨u, hok, hu, hrun⟩ := h.cons_inv
      obtain ⟨hIu, hiff⟩ := hstep s e u hinit hP hok hu
      constructor
      · intro hall v hv
        obtain ⟨hPv, hrest⟩ := hall v hv
        obtain rfl := Except.ok.inj (hu.symm.trans hv)
        exact ⟨hiff.1 hPv, (ih hrun hIu hPv).1 hrest⟩
      · intro hall v hv
        obtain ⟨hQ, hrest⟩ := hall v hv
        obtain rfl := Except.ok.inj (hu.symm.trans hv)
        have hPu := hiff.2 hQ
        exact ⟨hPu, (ih hrun hIu hPu).2 hrest⟩

end Steps

end Lib
