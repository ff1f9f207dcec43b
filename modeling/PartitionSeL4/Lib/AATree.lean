import Mathlib.Algebra.Group.Nat.Defs
import Mathlib.Data.List.Sort
import Mathlib.Order.Defs.LinearOrder

/-!
# AA trees

An AA tree is a search tree whose nodes have levels: a left child is one level lower, a right child
is one level lower or on the same level, and two right links in a row never stay on one level. So
both subtrees reach one level less, and a tree of level `k` has at least `2 ^ k - 1` values
(`two_pow_level_le`).

Insertion and removal repair the levels on the way back up, with `skew` (a left link on one level
becomes a right link) and `split` (of two right links on one level the middle node goes up).
`Inv.insert` and `Inv.remove` say that this is enough; what the two do to the values is
`toList_insert_perm` and `toList_remove`.
-/

namespace Lib

universe u v

/-- A tree with a level at every node. -/
inductive AATree (α : Type u) where
  | nil
  | node (level : Nat) (left : AATree α) (value : α) (right : AATree α)
  deriving DecidableEq, Repr

namespace AATree

variable {α : Type u}

def level : AATree α → Nat
  | nil => 0
  | node lv _ _ _ => lv

/-- The values in order. -/
def toList : AATree α → List α
  | nil => []
  | node _ l a r => l.toList ++ a :: r.toList

def height : AATree α → Nat
  | nil => 0
  | node _ l _ r => max l.height r.height + 1

/-- A left link on one level becomes a right link. -/
def skew : AATree α → AATree α
  | node lv (node lvl ll b lr) a r =>
      if lvl = lv then node lvl ll b (node lv lr a r) else node lv (node lvl ll b lr) a r
  | t => t

/-- Of two right links on one level, the middle node goes up. -/
def split : AATree α → AATree α
  | node lv l a (node lvr rl b (node lvx x c y)) =>
      if lv = lvx then node (lvr + 1) (node lv l a rl) b (node lvx x c y)
      else node lv l a (node lvr rl b (node lvx x c y))
  | t => t

/-- The level is at most what the subtrees carry, and a right child is not above it. -/
def decLevel : AATree α → AATree α
  | nil => nil
  | node lv l a r =>
      let shouldBe := min l.level r.level + 1
      if shouldBe < lv then
        node shouldBe l a (match r with
          | nil => nil
          | node lvr rl b rr => node (if shouldBe < lvr then shouldBe else lvr) rl b rr)
      else node lv l a r

/-- A change of the right subtree. -/
def mapRight (f : AATree α → AATree α) : AATree α → AATree α
  | nil => nil
  | node lv l a r => node lv l a (f r)

/-- The levels are repaired after a removal. -/
def rebalance (t : AATree α) : AATree α :=
  mapRight split (split (mapRight (fun r => mapRight skew (skew r)) (skew (decLevel t))))

/-- The last value, if there is one. -/
def last? : AATree α → Option α
  | nil => none
  | node _ _ a nil => some a
  | node _ _ _ r => r.last?

/-- The first value, if there is one. -/
def first? : AATree α → Option α
  | nil => none
  | node _ nil a _ => some a
  | node _ l _ _ => l.first?

section Order

variable {κ : Type v} [LinearOrder κ] (key : α → κ)

/-- A tree with one more value. -/
def insert (x : α) : AATree α → AATree α
  | nil => node 1 nil x nil
  | node lv l a r =>
      if key a < key x then split (skew (node lv l a (insert x r)))
      else if key x < key a then split (skew (node lv (insert x l) a r))
      else node lv l a r

/-- A tree without the value of the key of `x`. Where the value has a left subtree its predecessor
takes its place, else its successor. -/
def remove (x : α) : AATree α → AATree α
  | nil => nil
  | node lv l a r =>
      if key a < key x then rebalance (node lv l a (remove x r))
      else if key x < key a then rebalance (node lv (remove x l) a r)
      else rebalance (match l.last? with
        | some p => node lv (remove p l) p r
        | none =>
            match r.first? with
            | some s => node lv nil s (remove s r)
            | none => nil)

/-- What stands in the place of a removed root. -/
def removeRoot (lv : Nat) (l r : AATree α) : AATree α :=
  match l.last? with
  | some p => node lv (l.remove key p) p r
  | none =>
      match r.first? with
      | some s => node lv nil s (r.remove key s)
      | none => nil

theorem remove_root {lv : Nat} {l r : AATree α} {a x : α} (h : key a = key x) :
    (node lv l a r).remove key x = (removeRoot key lv l r).rebalance := by
  rw [remove, if_neg h.not_lt, if_neg h.not_gt, removeRoot]

/-- The values stand in the order of their keys. -/
def Ordered (t : AATree α) : Prop := t.toList.Pairwise fun a b => key a < key b

end Order

/-! ## Levels -/

/-- The right child is on a lower level. -/
def Single : AATree α → Prop
  | nil => False
  | node lv _ _ r => r.level < lv

/-- The rules for the levels. -/
def Inv : AATree α → Prop
  | nil => True
  | node lv l _ r =>
      l.Inv ∧ r.Inv ∧ lv = l.level + 1 ∧ (lv = r.level + 1 ∨ lv = r.level ∧ r.Single)

@[simp] theorem level_nil : (nil : AATree α).level = 0 := rfl

@[simp] theorem level_node (lv : Nat) (l : AATree α) (a : α) (r : AATree α) :
    (node lv l a r).level = lv := rfl

@[simp] theorem toList_nil : (nil : AATree α).toList = [] := rfl

@[simp] theorem toList_node (lv : Nat) (l : AATree α) (a : α) (r : AATree α) :
    (node lv l a r).toList = l.toList ++ a :: r.toList := rfl

@[simp] theorem inv_nil : (nil : AATree α).Inv := trivial

variable {lv : Nat} {l r t : AATree α} {a : α}

theorem inv_node : (node lv l a r).Inv ↔
    l.Inv ∧ r.Inv ∧ lv = l.level + 1 ∧ (lv = r.level + 1 ∨ lv = r.level ∧ r.Single) := Iff.rfl

theorem single_node : (node lv l a r).Single ↔ r.level < lv := Iff.rfl

theorem exists_node (h : 0 < t.level) : ∃ l a r, t = node t.level l a r := by
  cases t with
  | nil => exact absurd h (Nat.lt_irrefl 0)
  | node lv l a r => exact ⟨l, a, r, rfl⟩

/-- A tree of level `k` holds at least `2 ^ k - 1` values. -/
theorem two_pow_level_le (h : t.Inv) : 2 ^ t.level ≤ t.toList.length + 1 := by
  induction t with
  | nil => exact Nat.le_refl 1
  | node lv l a r ihl ihr =>
      obtain ⟨hl, hr, hlv, hlvr⟩ := h
      have hleft := ihl hl
      have hright := ihr hr
      have hpow : 2 ^ (lv - 1) ≤ 2 ^ r.level := Nat.pow_le_pow_right (by decide) (by omega)
      have hdouble : 2 ^ lv = 2 ^ (lv - 1) + 2 ^ (lv - 1) := by
        rw [← Nat.two_mul, ← Nat.pow_succ', Nat.succ_eq_add_one, Nat.sub_add_cancel (by omega)]
      have hll : l.level = lv - 1 := by omega
      rw [hll] at hleft
      rw [level_node, toList_node, List.length_append, List.length_cons]
      omega

/-- A tree is at most twice as high as its level. -/
theorem height_le (h : t.Inv) : t.height ≤ 2 * t.level ∧ (t.Single → t.height < 2 * t.level) := by
  induction t with
  | nil => exact ⟨Nat.le_refl 0, False.elim⟩
  | node lv l a r ihl ihr =>
      obtain ⟨hl, hr, hlv, hlvr⟩ := h
      have hleft := (ihl hl).1
      have hright := ihr hr
      rw [height, level_node, single_node]
      rcases hlvr with hlower | ⟨hsame, hsingle⟩
      · exact ⟨by omega, fun _ => by omega⟩
      · have := hright.2 hsingle
        exact ⟨by omega, fun hlt => by omega⟩

/-! ## The repairs leave the values -/

@[simp] theorem toList_skew (t : AATree α) : t.skew.toList = t.toList := by
  unfold skew
  split
  · split_ifs <;> simp
  · rfl

@[simp] theorem toList_split (t : AATree α) : t.split.toList = t.toList := by
  unfold split
  split
  · split_ifs <;> simp
  · rfl

@[simp] theorem toList_decLevel (t : AATree α) : t.decLevel.toList = t.toList := by
  cases t with
  | nil => rfl
  | node lv l a r =>
      simp only [decLevel]
      split_ifs
      · cases r <;> rfl
      · rfl

theorem toList_mapRight {f : AATree α → AATree α} (hf : ∀ t, (f t).toList = t.toList)
    (t : AATree α) : (mapRight f t).toList = t.toList := by
  cases t with
  | nil => rfl
  | node lv l a r => simp [mapRight, hf]

@[simp] theorem toList_rebalance (t : AATree α) : t.rebalance.toList = t.toList := by
  have hright : ∀ r : AATree α, (mapRight skew (skew r)).toList = r.toList := fun r => by
    rw [toList_mapRight toList_skew, toList_skew]
  rw [rebalance, toList_mapRight toList_split, toList_split, toList_mapRight hright, toList_skew,
    toList_decLevel]

/-! ## The rules for the levels after an insertion -/

theorem skew_eq_self (h : t.Inv) : t.skew = t := by
  unfold skew
  split
  next lvl ll b lr a r =>
    obtain ⟨-, -, hlv, -⟩ := h
    rw [level_node] at hlv
    exact if_neg (by omega)
  next => rfl

/-- A node that keeps the rules is not split. -/
theorem split_eq_self (h : t.Inv) : t.split = t := by
  unfold split
  split
  next lv l a lvr rl b lvx x c y =>
    obtain ⟨-, ⟨-, -, -, hlvr⟩, -, hlv⟩ := h
    rw [level_node] at hlvr hlv
    rw [single_node, level_node] at hlv
    exact if_neg (by omega)
  next => rfl

/-- A left child on the node's level goes up. -/
theorem skew_node {ll lr : AATree α} {b : α} :
    (node lv (node lv ll b lr) a r).skew = node lv ll b (node lv lr a r) := if_pos rfl

/-- Of two right links on one level the middle node goes up. -/
theorem split_node {rl x y : AATree α} {b c : α} {k : Nat} :
    (node lv l a (node k rl b (node lv x c y))).split =
      node (k + 1) (node lv l a rl) b (node lv x c y) := if_pos rfl

/-- A split mends a right child that has a right child on its own level. -/
theorem Inv.split (hl : l.Inv) (hr : r.Inv) (hlv : lv = l.level + 1)
    (hlvr : lv = r.level + 1 ∨ lv = r.level) :
    (node lv l a r).split.Inv ∧ ((node lv l a r).split.level = lv ∨
      (node lv l a r).split.level = lv + 1 ∧ (node lv l a r).split.Single ∧ lv = r.level ∧
        ¬ r.Single) := by
  by_cases hkeep : lv = r.level + 1 ∨ lv = r.level ∧ r.Single
  · have hinv : (node lv l a r).Inv := ⟨hl, hr, hlv, hkeep⟩
    rw [split_eq_self hinv]
    exact ⟨hinv, .inl rfl⟩
  · have hsame : lv = r.level := by omega
    have hdouble : ¬ r.Single := fun hs => hkeep (.inr ⟨hsame, hs⟩)
    obtain ⟨rl, b, rr, hrr⟩ := exists_node (t := r) (by omega)
    rw [← hsame] at hrr
    subst hrr
    obtain ⟨hrl, hrri, hlvl, hlvrr⟩ := hr
    have hrrl : lv = rr.level := by
      rw [single_node] at hdouble
      omega
    obtain ⟨x, c, y, hx⟩ := exists_node (t := rr) (by omega)
    rw [← hrrl] at hx
    subst hx
    have hsingle : (node lv x c y).Single :=
      (hlvrr.resolve_left (by rw [level_node]; omega)).2
    rw [split_node]
    refine ⟨⟨⟨hl, hrl, hlv, .inl hlvl⟩, hrri, rfl, .inl rfl⟩, .inr ⟨rfl, ?_, hsame, hdouble⟩⟩
    rw [single_node, level_node]
    omega

/-- After a left child has come up to the node's level, `skew` and `split` mend the node. -/
theorem Inv.split_skew (hl : l.Inv) (hr : r.Inv)
    (hlvl : lv = l.level + 1 ∨ lv = l.level ∧ l.Single)
    (hlvr : lv = r.level + 1 ∨ lv = r.level) (hpos : 0 < lv) :
    (node lv l a r).skew.split.Inv ∧ ((node lv l a r).skew.split.level = lv ∨
      (node lv l a r).skew.split.level = lv + 1 ∧ (node lv l a r).skew.split.Single ∧
        lv = r.level ∧ (lv = l.level + 1 → ¬ r.Single)) := by
  rcases hlvl with hlower | ⟨hsame, hsingle⟩
  · have hskew : (node lv l a r).skew = node lv l a r := by
      cases l with
      | nil => rfl
      | node lvl ll b lr => exact if_neg (by rw [level_node] at hlower; omega)
    rw [hskew]
    obtain ⟨hinv, hlevel⟩ := hl.split (a := a) hr hlower hlvr
    refine ⟨hinv, hlevel.imp_right ?_⟩
    rintro ⟨hup, hs, hr', hd⟩
    exact ⟨hup, hs, hr', fun _ => hd⟩
  · obtain ⟨ll, b, lr, hnode⟩ := exists_node (t := l) (by omega)
    rw [← hsame] at hnode
    subst hnode
    obtain ⟨hll, hlr, hlevel, hlevelr⟩ := hl
    rw [single_node] at hsingle
    have hlrl : lv = lr.level + 1 := by omega
    rw [skew_node]
    rcases hlvr with hlower | hr'
    · have hinv : (node lv ll b (node lv lr a r)).Inv :=
        ⟨hll, ⟨hlr, hr, hlrl, .inl hlower⟩, hlevel, .inr ⟨rfl, by rw [single_node]; omega⟩⟩
      rw [split_eq_self hinv]
      exact ⟨hinv, .inl rfl⟩
    · obtain ⟨x, c, y, hx⟩ := exists_node (t := r) (by omega)
      rw [← hr'] at hx
      subst hx
      rw [split_node]
      refine ⟨⟨⟨hll, hlr, hlevel, .inl hlrl⟩, hr, rfl, .inl rfl⟩, .inr ⟨rfl, ?_, hr', ?_⟩⟩
      · rw [single_node, level_node]
        omega
      · rw [level_node]
        omega

section Insert

variable {κ : Type v} [LinearOrder κ] {key : α → κ} {x : α}

/-- An insertion keeps the rules. The tree grows by one level at most, and then it had a right link
on its own level and has none afterwards. -/
theorem Inv.insert (h : t.Inv) :
    (t.insert key x).Inv ∧
      ((t.insert key x).level = t.level ∨
        (t.insert key x).level = t.level + 1 ∧ (t.insert key x).Single ∧ ¬ t.Single) := by
  induction t with
  | nil => exact ⟨⟨trivial, trivial, rfl, .inl rfl⟩, .inr ⟨rfl, Nat.zero_lt_one, id⟩⟩
  | node lv l a r ihl ihr =>
      obtain ⟨hl, hr, hlv, hlvr⟩ := h
      have hpos : 0 < lv := by omega
      rw [AATree.insert]
      split_ifs
      · -- the right subtree has one more value
        obtain ⟨hr', hlevel⟩ := ihr hr
        have hright : lv = (r.insert key x).level + 1 ∨ lv = (r.insert key x).level := by
          rcases hlevel with hsame | ⟨hup, -, hdouble⟩
          · rw [hsame]
            exact hlvr.imp_right And.left
          · exact .inr (by rw [hup]; exact hlvr.resolve_right fun hs => hdouble hs.2)
        obtain ⟨hinv, hsize⟩ := hl.split_skew (a := a) hr' (.inl hlv) hright hpos
        refine ⟨hinv, hsize.imp_right ?_⟩
        rintro ⟨hup, hs, hlvr', hd⟩
        refine ⟨hup, hs, fun hsingle => ?_⟩
        rw [single_node] at hsingle
        rcases hlevel with hsame | ⟨-, hs', -⟩
        · omega
        · exact hd hlv hs'
      · -- the left subtree has one more value
        obtain ⟨hl', hlevel⟩ := ihl hl
        have hleft : lv = (l.insert key x).level + 1 ∨
            lv = (l.insert key x).level ∧ (l.insert key x).Single := by
          rcases hlevel with hsame | ⟨hup, hs, -⟩
          · exact .inl (by omega)
          · exact .inr ⟨by omega, hs⟩
        obtain ⟨hinv, hsize⟩ := hl'.split_skew (a := a) hr hleft (by omega) hpos
        refine ⟨hinv, hsize.imp_right ?_⟩
        rintro ⟨hup, hs, hlvr', -⟩
        refine ⟨hup, hs, fun hsingle => ?_⟩
        rw [single_node] at hsingle
        omega
      · exact ⟨⟨hl, hr, hlv, hlvr⟩, .inl rfl⟩

end Insert

/-! ## The rules for the levels after a removal -/

/-- What a removal from a subtree leaves of it: a tree on the same level, with no new right link on
it, or one on the level below. -/
def Shrinks (t t' : AATree α) : Prop :=
  t'.Inv ∧ (t'.level = t.level ∧ (t.Single → t'.Single) ∨ t'.level + 1 = t.level)

theorem Shrinks.refl (h : t.Inv) : t.Shrinks t := ⟨h, .inl ⟨rfl, id⟩⟩

theorem rebalance_eq_self (h : t.Inv) : t.rebalance = t := by
  cases t with
  | nil => rfl
  | node lv l a r =>
      have hdec : (node lv l a r).decLevel = node lv l a r := by
        obtain ⟨-, -, hlv, hlvr⟩ := h
        exact if_neg (by omega)
      have hr : mapRight skew (skew r) = r := by
        rw [skew_eq_self h.2.1]
        cases r with
        | nil => rfl
        | node lvr rl b rr => rw [mapRight, skew_eq_self h.2.1.2.1]
      rw [rebalance, hdec, skew_eq_self h, mapRight, hr, split_eq_self h, mapRight,
        split_eq_self h.2.1]

/-- The left subtree is one level too low. -/
theorem rebalance_left (hl : l.Inv) (hr : r.Inv) (hlv : lv = l.level + 2)
    (hlvr : lv = r.level + 1 ∨ lv = r.level ∧ r.Single) :
    (node lv l a r).rebalance.Inv ∧
      ((node lv l a r).rebalance.level = lv ∧ (r.level < lv → (node lv l a r).rebalance.Single) ∨
        (node lv l a r).rebalance.level + 1 = lv) := by
  obtain ⟨k, rfl⟩ : ∃ k, lv = k + 1 := ⟨l.level + 1, hlv⟩
  have hk : k = l.level + 1 := by omega
  rcases hlvr with hlower | ⟨hsame, hsingle⟩
  · -- the node goes down to its right child
    have hrk : r.level = k := by omega
    have hdec : (node (k + 1) l a r).decLevel = node k l a r := by
      have hshould : min l.level r.level + 1 = k := by omega
      simp only [decLevel, hshould]
      rw [if_pos (Nat.lt_succ_self k)]
      cases r with
      | nil => rfl
      | node lvr rl b rr =>
          rw [level_node] at hrk
          subst hrk
          dsimp only
          rw [if_neg (Nat.lt_irrefl _)]
    have hskew : (node k l a r).skew = node k l a r := by
      cases l with
      | nil => rfl
      | node lvl ll b lr => exact if_neg (by rw [level_node] at hk; omega)
    have hr' : mapRight skew (skew r) = r := by
      rw [skew_eq_self hr]
      cases r with
      | nil => rfl
      | node lvr rl b rr => rw [mapRight, skew_eq_self hr.2.1]
    obtain ⟨hinv, hlevel⟩ := hl.split (a := a) hr hk (.inr hrk.symm)
    have hfinal : mapRight AATree.split (node k l a r).split = (node k l a r).split := by
      cases hs : (node k l a r).split with
      | nil => rfl
      | node lv' l' a' r' =>
          rw [hs] at hinv
          rw [mapRight, split_eq_self hinv.2.1]
    rw [rebalance, hdec, hskew, mapRight, hr', hfinal]
    refine ⟨hinv, ?_⟩
    rcases hlevel with hdown | ⟨hup, hs, -⟩
    · exact .inr (by omega)
    · exact .inl ⟨hup, fun _ => hs⟩
  · -- the node and its right child go down, and the right child's left child comes up
    obtain ⟨rl, b, rr, hnode⟩ := exists_node (t := r) (by omega)
    rw [← hsame] at hnode
    subst hnode
    obtain ⟨hrl, hrr, hlvl, hlvrr⟩ := hr
    rw [single_node] at hsingle
    obtain ⟨rll, c, rlr, hrlnode⟩ := exists_node (t := rl) (by omega)
    have hrlk : rl.level = k := by omega
    rw [hrlk] at hrlnode
    subst hrlnode
    obtain ⟨hrll, hrlr, hrlll, hrllr⟩ := hrl
    have hdec : (node (k + 1) l a (node (k + 1) (node k rll c rlr) b rr)).decLevel =
        node k l a (node k (node k rll c rlr) b rr) := by
      have hshould : min l.level (k + 1) + 1 = k := by omega
      simp only [decLevel, level_node, hshould]
      rw [if_pos (Nat.lt_succ_self k), if_pos (Nat.lt_succ_self k)]
    have hskew : (node k l a (node k (node k rll c rlr) b rr)).skew =
        node k l a (node k (node k rll c rlr) b rr) := by
      cases l with
      | nil => rfl
      | node lvl ll b lr => exact if_neg (by rw [level_node] at hk; omega)
    obtain ⟨hinv, hlevel⟩ := hrlr.split_skew (a := b) hrr hrllr
      (.inr (by omega : k = rr.level)) (by omega)
    -- the node that comes up keeps its level whatever `skew` did
    have hmid : ((node k rlr b rr).skew).level = k := by
      unfold AATree.skew
      split
      next lvl ll b' lr a' r' heq =>
        injection heq with h1 h2 h3 h4
        subst h1
        split_ifs with hcond
        · exact hcond
        · rfl
      next => rfl
    obtain ⟨x, d, y, hx⟩ := exists_node (t := (node k rlr b rr).skew) (by omega)
    rw [hmid] at hx
    rw [rebalance, hdec, hskew, mapRight, skew_node, mapRight, hx, split_node, mapRight, ← hx]
    refine ⟨⟨⟨hl, hrll, hk, .inl hrlll⟩, hinv, rfl, ?_⟩, .inl ⟨rfl, fun hlt => ?_⟩⟩
    · rcases hlevel with hdown | ⟨hup, hs, -⟩
      · exact .inl (by omega)
      · exact .inr ⟨hup.symm, hs⟩
    · rw [level_node] at hlt
      omega

/-- The right subtree is one level too low. -/
theorem rebalance_right (hl : l.Inv) (hr : r.Inv) (hlv : lv = l.level + 1)
    (hlvr : lv = r.level + 2) :
    (node lv l a r).rebalance.Inv ∧
      ((node lv l a r).rebalance.level = lv ∧ (node lv l a r).rebalance.Single ∨
        (node lv l a r).rebalance.level + 1 = lv) := by
  obtain ⟨k, rfl⟩ : ∃ k, lv = k + 1 := ⟨r.level + 1, hlvr⟩
  have hk : k = r.level + 1 := by omega
  obtain ⟨ll, b, lr, hnode⟩ := exists_node (t := l) (by omega)
  have hlk : l.level = k := by omega
  rw [hlk] at hnode
  subst hnode
  obtain ⟨hll, hlr, hlll, hllr⟩ := hl
  have hdec : (node (k + 1) (node k ll b lr) a r).decLevel = node k (node k ll b lr) a r := by
    have hshould : min k r.level + 1 = k := by omega
    simp only [decLevel, level_node, hshould]
    rw [if_pos (Nat.lt_succ_self k)]
    cases r with
    | nil => rfl
    | node lvr rl c rr =>
        dsimp only
        rw [if_neg (by rw [level_node] at hk; omega)]
  rcases hllr with hlower | ⟨hsame, hsingle⟩
  · -- the left child comes up, and the node becomes its right child
    have hright : (node k lr a r).Inv := ⟨hlr, hr, hlower, .inl hk⟩
    have hinv : (node k ll b (node k lr a r)).Inv :=
      ⟨hll, hright, hlll, .inr ⟨rfl, by rw [single_node]; omega⟩⟩
    rw [rebalance, hdec, skew_node, mapRight, skew_eq_self hright, mapRight, skew_eq_self hr,
      split_eq_self hinv, mapRight, split_eq_self hright]
    exact ⟨hinv, .inr rfl⟩
  · -- the left child's right child comes up between them
    obtain ⟨x, c, y, hx⟩ := exists_node (t := lr) (by omega)
    rw [← hsame] at hx
    subst hx
    obtain ⟨hxi, hyi, hxl, hyl⟩ := hlr
    rw [single_node] at hsingle
    have hright : (node k y a r).Inv := ⟨hyi, hr, by omega, .inl hk⟩
    rw [rebalance, hdec, skew_node, mapRight, skew_node, mapRight, skew_eq_self hright, split_node,
      mapRight, split_eq_self hright]
    refine ⟨⟨⟨hll, hxi, hlll, .inl hxl⟩, hright, rfl, .inl rfl⟩, .inl ⟨rfl, ?_⟩⟩
    rw [single_node, level_node]
    omega

theorem Shrinks.left {l' : AATree α} {b : α} (h : (node lv l a r).Inv) (hl : l.Shrinks l') :
    (node lv l a r).Shrinks (node lv l' b r).rebalance := by
  obtain ⟨-, hr, hlv, hlvr⟩ := h
  obtain ⟨hl', ⟨hsame, -⟩ | hdown⟩ := hl
  · have hinv : (node lv l' b r).Inv := ⟨hl', hr, by omega, hlvr⟩
    rw [rebalance_eq_self hinv]
    exact ⟨hinv, .inl ⟨rfl, id⟩⟩
  · exact rebalance_left hl' hr (by omega) hlvr

theorem Shrinks.right {r' : AATree α} {b : α} (h : (node lv l a r).Inv) (hr : r.Shrinks r') :
    (node lv l a r).Shrinks (node lv l b r').rebalance := by
  obtain ⟨hl, -, hlv, hlvr⟩ := h
  obtain ⟨hr', hlevel⟩ := hr
  by_cases hlow : lv = r'.level + 2
  · obtain ⟨hinv, hsize⟩ := rebalance_right (a := b) hl hr' hlv hlow
    exact ⟨hinv, hsize.imp_left fun ⟨hsame, hs⟩ => ⟨hsame, fun _ => hs⟩⟩
  · have hkeep : lv = r'.level + 1 ∨ lv = r'.level ∧ r'.Single := by
      rcases hlevel with ⟨hsame, hs⟩ | hdown
      · rw [hsame]
        exact hlvr.imp_right fun h => ⟨h.1, hs h.2⟩
      · exact .inl (by omega)
    have hinv : (node lv l b r').Inv := ⟨hl, hr', hlv, hkeep⟩
    rw [rebalance_eq_self hinv]
    refine ⟨hinv, .inl ⟨rfl, fun hs => ?_⟩⟩
    rw [single_node] at hs ⊢
    rcases hlevel with ⟨hsame, -⟩ | hdown <;> omega

/-! ## The values after an insertion and a removal -/

theorem last?_eq (t : AATree α) : t.last? = t.toList.getLast? := by
  induction t with
  | nil => rfl
  | node lv l a r ihl ihr =>
      cases r with
      | nil => simp [last?]
      | node lvr rl b rr =>
          have hne : (node lvr rl b rr).toList ≠ [] := by simp
          rw [last?, ihr, toList_node _ l, List.getLast?_append_of_ne_nil _ (List.cons_ne_nil _ _),
            List.getLast?_cons_of_ne_nil hne]
          exact fun h => nomatch h

theorem first?_eq (t : AATree α) : t.first? = t.toList.head? := by
  induction t with
  | nil => rfl
  | node lv l a r ihl ihr =>
      cases l with
      | nil => rfl
      | node lvl ll b lr =>
          have hne : (node lvl ll b lr).toList ≠ [] := by simp
          rw [first?, ihl, toList_node _ _ _ r, List.head?_append_of_ne_nil _ hne]
          exact fun h => nomatch h

theorem exists_of_last? {p : α} (h : t.last? = some p) : ∃ init, t.toList = init ++ [p] := by
  rw [last?_eq] at h
  obtain ⟨init, hp⟩ := List.getLast?_eq_some_iff.mp h
  exact ⟨init, hp⟩

theorem exists_of_first? {p : α} (h : t.first? = some p) : ∃ tail, t.toList = p :: tail := by
  rw [first?_eq] at h
  exact List.head?_eq_some_iff.mp h

theorem eq_nil_of_last? (h : t.last? = none) : t = nil := by
  rw [last?_eq, List.getLast?_eq_none_iff] at h
  cases t with
  | nil => rfl
  | node lv l a r => simp at h

theorem eq_nil_of_first? (h : t.first? = none) : t = nil := by
  rw [first?_eq, List.head?_eq_none_iff] at h
  cases t with
  | nil => rfl
  | node lv l a r => simp at h

section Values

variable {κ : Type v} [LinearOrder κ] {key : α → κ} {x y : α}

theorem ordered_nil : (nil : AATree α).Ordered key := List.Pairwise.nil

theorem ordered_node : (node lv l a r).Ordered key ↔
    l.Ordered key ∧ r.Ordered key ∧ (∀ b ∈ l.toList, key b < key a) ∧
      ∀ b ∈ r.toList, key a < key b := by
  unfold Ordered
  rw [toList_node, List.pairwise_append, List.pairwise_cons]
  constructor
  · rintro ⟨hl, ⟨har, hr⟩, hlr⟩
    exact ⟨hl, hr, fun b hb => hlr b hb a (List.mem_cons_self ..), har⟩
  · rintro ⟨hl, hr, hla, har⟩
    refine ⟨hl, ⟨har, hr⟩, fun b hb c hc => ?_⟩
    rcases List.mem_cons.mp hc with rfl | hc
    · exact hla b hb
    · exact (hla b hb).trans (har c hc)

/-- An insertion of a new key adds one value and nothing else. -/
theorem toList_insert_perm (h : ∀ b ∈ t.toList, key b ≠ key x) :
    (t.insert key x).toList.Perm (x :: t.toList) := by
  induction t with
  | nil => exact List.Perm.refl _
  | node lv l a r ihl ihr =>
      rw [toList_node] at h
      have hl := ihl fun b hb => h b (List.mem_append_left _ hb)
      have hr := ihr fun b hb => h b (List.mem_append_right _ (List.mem_cons_of_mem _ hb))
      have ha : key a ≠ key x := h a (List.mem_append_right _ (List.mem_cons_self ..))
      rw [AATree.insert]
      split_ifs with hlt hgt
      · rw [toList_split, toList_skew, toList_node, toList_node]
        refine ((hr.cons a).append_left l.toList).trans ?_
        refine ((List.Perm.swap x a r.toList).append_left l.toList).trans ?_
        exact List.perm_middle
      · rw [toList_split, toList_skew, toList_node, toList_node]
        exact hl.append_right (a :: r.toList)
      · exact absurd (le_antisymm (not_lt.mp hgt) (not_lt.mp hlt)) ha

theorem mem_insert (h : ∀ b ∈ t.toList, key b ≠ key x) :
    y ∈ (t.insert key x).toList ↔ y = x ∨ y ∈ t.toList := by
  rw [(toList_insert_perm h).mem_iff, List.mem_cons]

theorem Ordered.insert (ho : t.Ordered key) (h : ∀ b ∈ t.toList, key b ≠ key x) :
    (t.insert key x).Ordered key := by
  induction t with
  | nil => exact List.pairwise_singleton ..
  | node lv l a r ihl ihr =>
      obtain ⟨hol, hor, hla, har⟩ := ordered_node.mp ho
      rw [toList_node] at h
      have hl : ∀ b ∈ l.toList, key b ≠ key x := fun b hb => h b (List.mem_append_left _ hb)
      have hr : ∀ b ∈ r.toList, key b ≠ key x := fun b hb =>
        h b (List.mem_append_right _ (List.mem_cons_of_mem _ hb))
      rw [AATree.insert]
      split_ifs with hlt hgt
      · unfold Ordered
        rw [toList_split, toList_skew]
        refine ordered_node.mpr ⟨hol, ihr hor hr, hla, fun b hb => ?_⟩
        rcases (mem_insert hr).mp hb with rfl | hb
        · exact hlt
        · exact har b hb
      · unfold Ordered
        rw [toList_split, toList_skew]
        refine ordered_node.mpr ⟨ihl hol hl, hor, fun b hb => ?_, har⟩
        rcases (mem_insert hl).mp hb with rfl | hb
        · exact hgt
        · exact hla b hb
      · exact ho

theorem filter_ne_eq_self {vs : List α} (h : ∀ b ∈ vs, key b ≠ key x) :
    vs.filter (fun b => key b ≠ key x) = vs :=
  List.filter_eq_self.mpr fun b hb => decide_eq_true (h b hb)

/-- A removal takes the value of the key away and nothing else. -/
theorem toList_remove (ho : t.Ordered key) :
    (t.remove key x).toList = t.toList.filter fun b => key b ≠ key x := by
  induction t generalizing x with
  | nil => rfl
  | node lv l a r ihl ihr =>
      obtain ⟨hol, hor, hla, har⟩ := ordered_node.mp ho
      rw [AATree.remove, toList_node, List.filter_append]
      split_ifs with hlt hgt
      · have hl : ∀ b ∈ l.toList, key b ≠ key x := fun b hb => ((hla b hb).trans hlt).ne
        rw [toList_rebalance, toList_node, ihr hor, filter_ne_eq_self hl,
          List.filter_cons_of_pos (by simpa using hlt.ne)]
      · have hr : ∀ b ∈ r.toList, key b ≠ key x := fun b hb => (hgt.trans (har b hb)).ne'
        rw [toList_rebalance, toList_node, ihl hol,
          List.filter_cons_of_pos (by simpa using hgt.ne'), filter_ne_eq_self hr]
      · have ha : key a = key x := le_antisymm (not_lt.mp hgt) (not_lt.mp hlt)
        have hl : ∀ b ∈ l.toList, key b ≠ key x := fun b hb => ha ▸ (hla b hb).ne
        have hr : ∀ b ∈ r.toList, key b ≠ key x := fun b hb => ha ▸ (har b hb).ne'
        rw [toList_rebalance, filter_ne_eq_self hl, List.filter_cons_of_neg (by simp [ha]),
          filter_ne_eq_self hr]
        cases hlast : l.last? with
        | some p =>
            obtain ⟨init, hp⟩ := exists_of_last? hlast
            have hinit : ∀ b ∈ init, key b ≠ key p := by
              intro b hb
              have hord := hol
              rw [Ordered, hp, List.pairwise_append] at hord
              exact (hord.2.2 b hb p (List.mem_singleton_self p)).ne
            dsimp only
            rw [toList_node, ihl hol, hp, List.filter_append, filter_ne_eq_self hinit,
              List.filter_cons_of_neg (by simp), List.filter_nil, List.append_nil,
              List.append_assoc, List.singleton_append]
        | none =>
            rw [eq_nil_of_last? hlast, toList_nil, List.nil_append]
            cases hfirst : r.first? with
            | some s =>
                obtain ⟨tail, hs⟩ := exists_of_first? hfirst
                have htail : ∀ b ∈ tail, key b ≠ key s := by
                  intro b hb
                  have hord := hor
                  rw [Ordered, hs, List.pairwise_cons] at hord
                  exact (hord.1 b hb).ne'
                dsimp only
                rw [toList_node, toList_nil, List.nil_append, ihr hor, hs,
                  List.filter_cons_of_neg (by simp), filter_ne_eq_self htail]
            | none =>
                rw [eq_nil_of_first? hfirst]

theorem Ordered.remove (ho : t.Ordered key) : (t.remove key x).Ordered key := by
  rw [Ordered, toList_remove ho]
  exact List.Pairwise.filter _ ho

theorem Inv.remove (h : t.Inv) : t.Shrinks (t.remove key x) := by
  induction t generalizing x with
  | nil => exact Shrinks.refl h
  | node lv l a r ihl ihr =>
      obtain ⟨hl, hr, hlv, hlvr⟩ := id h
      rw [AATree.remove]
      split_ifs
      · exact Shrinks.right h (ihr hr)
      · exact Shrinks.left h (ihl hl)
      · cases hlast : l.last? with
        | some p => exact Shrinks.left h (ihl hl)
        | none =>
            have hnil := eq_nil_of_last? hlast
            subst hnil
            cases hfirst : r.first? with
            | some s => exact Shrinks.right h (ihr hr)
            | none =>
                have hrnil := eq_nil_of_first? hfirst
                subst hrnil
                exact ⟨trivial, .inr hlv.symm⟩

end Values

/-! ## Subtrees -/

/-- `u` hangs somewhere in the tree. -/
inductive Sub (u : AATree α) : AATree α → Prop
  | refl : Sub u u
  | left {lv : Nat} {l r : AATree α} {a : α} (h : Sub u l) : Sub u (node lv l a r)
  | right {lv : Nat} {l r : AATree α} {a : α} (h : Sub u r) : Sub u (node lv l a r)

variable {u w : AATree α}

theorem Sub.trans (h : Sub u w) (h' : Sub w t) : Sub u t := by
  induction h' with
  | refl => exact h
  | left _ ih => exact ih.left
  | right _ ih => exact ih.right

theorem Sub.height_le (h : Sub u t) : u.height ≤ t.height := by
  induction h with
  | refl => exact Nat.le_refl _
  | left _ ih =>
      rw [height]
      omega
  | right _ ih =>
      rw [height]
      omega

theorem Sub.toList (h : Sub u t) : ∃ pre post, t.toList = pre ++ u.toList ++ post := by
  induction h with
  | refl => exact ⟨[], [], by simp⟩
  | @left lv l r a _ ih =>
      obtain ⟨pre, post, hl⟩ := ih
      exact ⟨pre, post ++ a :: r.toList, by rw [toList_node, hl]; simp⟩
  | @right lv l r a _ ih =>
      obtain ⟨pre, post, hr⟩ := ih
      exact ⟨l.toList ++ a :: pre, post, by rw [toList_node, hr]; simp⟩

theorem Sub.mem (h : Sub u t) {a : α} (ha : a ∈ u.toList) : a ∈ t.toList := by
  obtain ⟨pre, post, ht⟩ := h.toList
  rw [ht]
  exact List.mem_append_left _ (List.mem_append_right _ ha)

theorem exists_sub {a : α} (h : a ∈ t.toList) : ∃ lv l r, Sub (node lv l a r) t := by
  induction t with
  | nil => exact nomatch h
  | node lv l b r ihl ihr =>
      rcases List.mem_append.mp h with h | h
      · obtain ⟨lv', l', r', hsub⟩ := ihl h
        exact ⟨lv', l', r', hsub.left⟩
      · rcases List.mem_cons.mp h with rfl | h
        · exact ⟨lv, l, r, .refl⟩
        · obtain ⟨lv', l', r', hsub⟩ := ihr h
          exact ⟨lv', l', r', hsub.right⟩

/-! ## Search from below -/

/-- The last value with the property, found by one descent. -/
def findBelow (p : α → Bool) : AATree α → Option α
  | nil => none
  | node _ l a r => if p a then (r.findBelow p).or (some a) else l.findBelow p

/-- Where the values with the property come first, the descent finds the last of them. -/
theorem findBelow_eq {p : α → Bool} (h : t.toList.Pairwise fun a b => p b → p a) :
    t.findBelow p = (t.toList.filter p).getLast? := by
  induction t with
  | nil => rfl
  | node lv l a r ihl ihr =>
      rw [toList_node, List.pairwise_append, List.pairwise_cons] at h
      obtain ⟨hl, ⟨har, hr⟩, hla⟩ := h
      rw [findBelow, toList_node, List.filter_append]
      by_cases ha : p a
      · rw [if_pos ha, List.filter_cons_of_pos ha, ihr hr, List.getLast?_append,
          List.getLast?_cons]
        cases (r.toList.filter p).getLast? <;> rfl
      · have hnone : r.toList.filter p = [] :=
          List.filter_eq_nil_iff.mpr fun b hb hpb => ha (har b hb hpb)
        rw [if_neg ha, List.filter_cons_of_neg ha, hnone, List.append_nil, ihl hl]

end AATree

end Lib
