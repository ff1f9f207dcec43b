import Mathlib.Order.Basic

/-!
# Bisection

`bisect probe` searches an interval of indices for one that matches. `probe i` is `lt` if the guess
`i` is too small, `gt` if it is too large and `eq` if it matches. The search ends at an index that
matches, or at the place where such an index would be.

* `bisect_found` — what is found matches, whatever the probe;
* `bisect_found_iff` and `bisect_missing` — where everything behind an index that is not too small
  is too large (`Cut`), the search finds what there is, and otherwise ends between the small and the
  large indices;
* `sorted_of_bisect` — the converse: where every index of an interval is found when it is searched
  for, the indices are in order.
-/

namespace Lib

/-- Where a bisection ends. -/
inductive Bisected where
  | found (i : Nat)
  | missing (i : Nat)
  deriving DecidableEq, Repr

/-- Search the indices from `lo` to `hi`, with enough fuel if there is more of it than indices. -/
def bisect (probe : Nat → Ordering) : Nat → Nat → Nat → Bisected
  | 0, lo, hi => .missing ((lo + hi) / 2)
  | fuel + 1, lo, hi =>
      if hi ≤ lo then .missing ((lo + hi) / 2)
      else
        match probe ((lo + hi) / 2) with
        | .eq => .found ((lo + hi) / 2)
        | .lt => bisect probe fuel ((lo + hi) / 2 + 1) hi
        | .gt => bisect probe fuel lo ((lo + hi) / 2)

/-- Below `n`, everything behind an index that is not too small is too large. -/
def Cut (probe : Nat → Ordering) (n : Nat) : Prop :=
  ∀ i j, i < j → j < n → probe i ≠ .lt → probe j = .gt

variable {probe : Nat → Ordering} {fuel lo hi n i : Nat}

/-- More fuel than indices is as good as any. -/
theorem bisect_fuel {fuel' : Nat} (hfuel : hi - lo < fuel) (hfuel' : hi - lo < fuel') :
    bisect probe fuel lo hi = bisect probe fuel' lo hi := by
  induction fuel generalizing lo hi fuel' with
  | zero => omega
  | succ fuel ih =>
      cases fuel' with
      | zero => omega
      | succ fuel' =>
          rw [bisect, bisect]
          by_cases hle : hi ≤ lo
          · rw [if_pos hle, if_pos hle]
          · rw [if_neg hle, if_neg hle]
            cases probe ((lo + hi) / 2) with
            | eq => rfl
            | lt => exact ih (by omega) (by omega)
            | gt => exact ih (by omega) (by omega)

theorem bisect_found (h : bisect probe fuel lo hi = .found i) :
    lo ≤ i ∧ i < hi ∧ probe i = .eq := by
  induction fuel generalizing lo hi with
  | zero => cases h
  | succ fuel ih =>
      rw [bisect] at h
      split_ifs at h with hle
      cases hprobe : probe ((lo + hi) / 2) with
      | eq =>
          rw [hprobe] at h
          obtain rfl := Bisected.found.inj h
          exact ⟨by omega, by omega, hprobe⟩
      | lt =>
          rw [hprobe] at h
          obtain ⟨h1, h2, h3⟩ := ih h
          exact ⟨by omega, h2, h3⟩
      | gt =>
          rw [hprobe] at h
          obtain ⟨h1, h2, h3⟩ := ih h
          exact ⟨h1, by omega, h3⟩

/-- What is too small and what is too large, where the search finds nothing. -/
theorem bisect_missing_between (hcut : Cut probe n) (hn : hi ≤ n) (hle : lo ≤ hi)
    (hfuel : hi - lo < fuel) (h : bisect probe fuel lo hi = .missing i) :
    lo ≤ i ∧ i ≤ hi ∧ (∀ j, lo ≤ j → j < i → probe j = .lt) ∧
      ∀ j, i ≤ j → j < hi → probe j = .gt := by
  induction fuel generalizing lo hi with
  | zero => omega
  | succ fuel ih =>
      rw [bisect] at h
      split_ifs at h with hdone
      · obtain rfl := Bisected.missing.inj h
        exact ⟨by omega, by omega, fun j _ _ => by omega, fun j _ _ => by omega⟩
      · cases hprobe : probe ((lo + hi) / 2) with
        | eq =>
            rw [hprobe] at h
            cases h
        | lt =>
            -- everything up to the guess is too small
            rw [hprobe] at h
            obtain ⟨h1, h2, h3, h4⟩ := ih hn (by omega) (by omega) h
            refine ⟨by omega, h2, fun j hlo hj => ?_, h4⟩
            by_cases hmid : j < (lo + hi) / 2
            · by_contra hne
              have hgt := hcut j ((lo + hi) / 2) hmid (by omega) hne
              rw [hprobe] at hgt
              cases hgt
            · by_cases heq : j = (lo + hi) / 2
              · rw [heq, hprobe]
              · exact h3 j (by omega) hj
        | gt =>
            rw [hprobe] at h
            obtain ⟨h1, h2, h3, h4⟩ := ih (by omega) (by omega) (by omega) h
            refine ⟨h1, by omega, h3, fun j hij hj => ?_⟩
            by_cases hmid : j < (lo + hi) / 2
            · exact h4 j hij hmid
            · by_cases heq : j = (lo + hi) / 2
              · rw [heq, hprobe]
              · refine hcut ((lo + hi) / 2) j (by omega) (by omega) ?_
                rw [hprobe]
                exact fun hcase => by cases hcase

/-- A search that ends without a match ends between the small and the large indices. -/
theorem bisect_missing (hcut : Cut probe n) (h : bisect probe (n + 1) 0 n = .missing i) :
    i ≤ n ∧ (∀ j, j < i → probe j = .lt) ∧ ∀ j, i ≤ j → j < n → probe j = .gt := by
  obtain ⟨_, h2, h3, h4⟩ :=
    bisect_missing_between hcut (Nat.le_refl n) (Nat.zero_le n) (by omega) h
  exact ⟨h2, fun j hj => h3 j (Nat.zero_le j) hj, h4⟩

/-- A search finds the index that matches, if there is one. -/
theorem bisect_found_iff (hcut : Cut probe n) :
    bisect probe (n + 1) 0 n = .found i ↔ i < n ∧ probe i = .eq := by
  constructor
  · intro h
    obtain ⟨_, h2, h3⟩ := bisect_found h
    exact ⟨h2, h3⟩
  · rintro ⟨hi, heq⟩
    cases h : bisect probe (n + 1) 0 n with
    | found j =>
        obtain ⟨_, hj, heqj⟩ := bisect_found h
        -- two matches would be in order
        rcases Nat.lt_trichotomy i j with hlt | rfl | hlt
        · have hgt := hcut i j hlt hj (by rw [heq]; exact fun hcase => by cases hcase)
          rw [heqj] at hgt
          cases hgt
        · rfl
        · have hgt := hcut j i hlt hi (by rw [heqj]; exact fun hcase => by cases hcase)
          rw [heq] at hgt
          cases hgt
    | missing j =>
        obtain ⟨_, hsmall, hlarge⟩ := bisect_missing hcut h
        by_cases hij : i < j
        · rw [hsmall i hij] at heq
          cases heq
        · rw [hlarge i (by omega) hi] at heq
          cases heq

/-- Where every index of an interval is found when it is searched for, the indices are in order.
`probe i` is the probe of the search for `i`. -/
theorem sorted_of_bisect {R : Nat → Nat → Prop} (htrans : ∀ i j k, R i j → R j k → R i k)
    {probe : Nat → Nat → Ordering} (hlt : ∀ i m, i < n → m < n → probe i m = .lt → R m i)
    (hgt : ∀ i m, i < n → m < n → probe i m = .gt → R i m) (hn : hi ≤ n)
    (hfound : ∀ i, lo ≤ i → i < hi → bisect (probe i) fuel lo hi = .found i) :
    ∀ i j, lo ≤ i → i < j → j < hi → R i j := by
  induction fuel generalizing lo hi with
  | zero =>
      intro i j hlo hij hj
      cases hfound i hlo (by omega)
  | succ fuel ih =>
      intro i j hlo hij hj
      have hle : ¬hi ≤ lo := by omega
      have hstep : ∀ k, lo ≤ k → k < hi →
          (k < (lo + hi) / 2 → R k ((lo + hi) / 2) ∧
            bisect (probe k) fuel lo ((lo + hi) / 2) = .found k) ∧
          ((lo + hi) / 2 < k → R ((lo + hi) / 2) k ∧
            bisect (probe k) fuel ((lo + hi) / 2 + 1) hi = .found k) := by
        intro k hk hkhi
        have h := hfound k hk hkhi
        rw [bisect, if_neg hle] at h
        cases hprobe : probe k ((lo + hi) / 2) with
        | eq =>
            rw [hprobe] at h
            have := Bisected.found.inj h
            exact ⟨fun _ => by omega, fun _ => by omega⟩
        | lt =>
            rw [hprobe] at h
            have := bisect_found h
            exact ⟨fun _ => by omega, fun _ => ⟨hlt _ _ (by omega) (by omega) hprobe, h⟩⟩
        | gt =>
            rw [hprobe] at h
            have := bisect_found h
            exact ⟨fun _ => ⟨hgt _ _ (by omega) (by omega) hprobe, h⟩, fun _ => by omega⟩
      have hleft := ih (by omega) fun k hk hkm => ((hstep k hk (by omega)).1 hkm).2
      have hright := ih hn fun k hk hkhi => ((hstep k (by omega) hkhi).2 (by omega)).2
      rcases Nat.lt_trichotomy j ((lo + hi) / 2) with hjm | hjm | hjm
      · exact hleft i j hlo hij hjm
      · rw [hjm] at hij ⊢
        exact ((hstep i hlo (by omega)).1 hij).1
      · have hj' := ((hstep j (by omega) hj).2 hjm).1
        rcases Nat.lt_trichotomy i ((lo + hi) / 2) with him | him | him
        · exact htrans _ _ _ ((hstep i hlo (by omega)).1 him).1 hj'
        · rw [him]
          exact hj'
        · exact hright i j (by omega) hij hj

end Lib
