import Mathlib.Data.List.Induction
import Mathlib.Data.List.Nodup
import Mathlib.Data.List.Perm.Subperm
import Mathlib.Logic.Function.Basic

/-!
# Doubly linked queues in memory

The nodes are addresses with a link to the next and to the previous node, and `0` is null. Several
queues share the links, each with the address of its first and of its last node.

* `Links.push`, `Links.append`, `Links.remove`: a node is put first or last or taken out, by at most
  four writes of links.
* `Holds`: a queue in memory holds a list of nodes.
* `Queues`: a family of queues without a common node. `Queues.push`, `Queues.append` and
  `Queues.remove` change the list of one queue and leave the others.
-/

namespace Lib

/-- The links of the nodes in memory. -/
@[ext] structure Links where
  next : Nat → Nat
  prev : Nat → Nat

/-- The first and the last node, both null in an empty queue. -/
@[ext] structure Queue where
  head : Nat
  tail : Nat
  deriving DecidableEq, Repr

namespace Links

def setNext (l : Links) (x y : Nat) : Links := { l with next := Function.update l.next x y }

def setPrev (l : Links) (x y : Nat) : Links := { l with prev := Function.update l.prev x y }

/-- `x` is put before the first node. -/
def push (l : Links) (q : Queue) (x : Nat) : Links :=
  ((if q.head = 0 then l else l.setPrev q.head x).setPrev x 0).setNext x q.head

/-- `x` is put behind the last node. -/
def append (l : Links) (q : Queue) (x : Nat) : Links :=
  ((if q.head = 0 then l else l.setNext q.tail x).setPrev x q.tail).setNext x 0

/-- The node before `x` is linked to the one behind it. -/
def skipNext (l : Links) (x : Nat) : Links :=
  if l.prev x = 0 then l else l.setNext (l.prev x) (l.next x)

/-- The node behind `x` is linked to the one before it. -/
def skipPrev (l : Links) (x : Nat) : Links :=
  if l.next x = 0 then l else l.setPrev (l.next x) (l.prev x)

/-- `x` is taken out. -/
def remove (l : Links) (x : Nat) : Links := (l.skipNext x).skipPrev x

end Links

namespace Queue

/-- The empty queue. -/
def empty : Queue := ⟨0, 0⟩

def push (q : Queue) (x : Nat) : Queue := ⟨x, if q.tail = 0 then x else q.tail⟩

def append (q : Queue) (x : Nat) : Queue := ⟨if q.head = 0 then x else q.head, x⟩

/-- The queue without `x`, whose links are those of `l`. -/
def remove (q : Queue) (l : Links) (x : Nat) : Queue :=
  ⟨if l.prev x = 0 then l.next x else q.head, if l.next x = 0 then l.prev x else q.tail⟩

end Queue

namespace Links

variable {l l' : Links} {p n x y : Nat} {as bs xs : List Nat}

@[simp] theorem setNext_next : (l.setNext x y).next = Function.update l.next x y := rfl
@[simp] theorem setNext_prev : (l.setNext x y).prev = l.prev := rfl
@[simp] theorem setPrev_next : (l.setPrev x y).next = l.next := rfl
@[simp] theorem setPrev_prev : (l.setPrev x y).prev = Function.update l.prev x y := rfl

theorem headD_eq_zero_iff (h : ∀ x ∈ xs, x ≠ 0) : xs.headD 0 = 0 ↔ xs = [] := by
  cases xs with
  | nil => simp
  | cons a xs => simpa using h a List.mem_cons_self

theorem getLastD_eq_zero_iff (h : ∀ x ∈ xs, x ≠ 0) : xs.getLastD 0 = 0 ↔ xs = [] := by
  induction xs using List.reverseRecOn with
  | nil => simp
  | append_singleton xs a _ => simpa using h a (by simp)

/-! ## Segments -/

/-- The nodes of the list follow each other, behind `p` and before `n`. -/
def Seg (l : Links) : Nat → List Nat → Nat → Prop
  | _, [], _ => True
  | p, x :: xs, n => x ≠ 0 ∧ l.prev x = p ∧ l.next x = xs.headD n ∧ l.Seg x xs n

/-- At most `n` elements from `x` on, as `next` lists them. -/
def walk (l : Links) : Nat → Nat → List Nat
  | 0, _ => []
  | n + 1, x => if x = 0 then [] else x :: l.walk n (l.next x)

theorem Seg.walk (h : l.Seg p xs 0) {m : Nat} (hm : xs.length ≤ m) :
    l.walk m (xs.headD 0) = xs := by
  induction xs generalizing p m with
  | nil => cases m <;> rfl
  | cons a xs ih =>
      obtain ⟨ha, -, hnext, hrest⟩ := h
      cases m with
      | zero => exact absurd hm (by simp)
      | succ m =>
          rw [List.headD_cons, Links.walk, if_neg ha, hnext, ih hrest (Nat.le_of_succ_le_succ hm)]

theorem Seg.ne_zero (h : l.Seg p xs n) (hx : x ∈ xs) : x ≠ 0 := by
  induction xs generalizing p with
  | nil => exact nomatch hx
  | cons a xs ih =>
      rcases List.mem_cons.mp hx with rfl | hx
      · exact h.1
      · exact ih h.2.2.2 hx

theorem Seg.congr (h : l.Seg p xs n)
    (heq : ∀ x ∈ xs, l'.next x = l.next x ∧ l'.prev x = l.prev x) : l'.Seg p xs n := by
  induction xs generalizing p with
  | nil => trivial
  | cons a xs ih =>
      obtain ⟨ha, hp, hn, hs⟩ := h
      obtain ⟨hnext, hprev⟩ := heq a List.mem_cons_self
      exact ⟨ha, hprev.trans hp, hnext.trans hn,
        ih hs fun x hx => heq x (List.mem_cons_of_mem a hx)⟩

theorem seg_append :
    l.Seg p (as ++ bs) n ↔ l.Seg p as (bs.headD n) ∧ l.Seg (as.getLastD p) bs n := by
  induction as generalizing p with
  | nil => simp [Seg]
  | cons a as ih =>
      rw [List.cons_append, Seg, Seg, ih, List.getLastD_cons]
      cases as with
      | nil => simp [Seg, and_assoc]
      | cons b as => simp [and_assoc]

theorem Seg.setNext (h : l.Seg p xs n) (hx : x ∉ xs) : (l.setNext x y).Seg p xs n :=
  h.congr fun _ hz => ⟨Function.update_of_ne (ne_of_mem_of_not_mem hz hx) .., rfl⟩

theorem Seg.setPrev (h : l.Seg p xs n) (hx : x ∉ xs) : (l.setPrev x y).Seg p xs n :=
  h.congr fun _ hz => ⟨rfl, Function.update_of_ne (ne_of_mem_of_not_mem hz hx) ..⟩

theorem Seg.setPrev_head (h : l.Seg p (x :: xs) n) (hx : x ∉ xs) :
    (l.setPrev x y).Seg y (x :: xs) n := by
  obtain ⟨hx0, -, hn, hs⟩ := h
  exact ⟨hx0, Function.update_self .., hn, hs.setPrev hx⟩

theorem Seg.setNext_last (h : l.Seg p (xs ++ [x]) n) (hx : x ∉ xs) :
    (l.setNext x y).Seg p (xs ++ [x]) y := by
  rw [seg_append] at h ⊢
  obtain ⟨hxs, hx0, hp, -, -⟩ := h
  exact ⟨hxs.setNext hx, hx0, hp, Function.update_self .., trivial⟩

end Links

/-! ## One queue -/

/-- The queue `q` in memory holds the nodes `xs`. -/
structure Holds (l : Links) (q : Queue) (xs : List Nat) : Prop where
  head : q.head = xs.headD 0
  tail : q.tail = xs.getLastD 0
  seg : l.Seg 0 xs 0
  nodup : xs.Nodup

namespace Holds

open Links

variable {l l' : Links} {q : Queue} {xs : List Nat} {x y : Nat}

theorem empty : Holds l .empty [] := ⟨rfl, rfl, trivial, List.nodup_nil⟩

theorem ne_zero (h : Holds l q xs) (hx : x ∈ xs) : x ≠ 0 := h.seg.ne_zero hx

theorem congr (h : Holds l q xs) (heq : ∀ x ∈ xs, l'.next x = l.next x ∧ l'.prev x = l.prev x) :
    Holds l' q xs :=
  ⟨h.head, h.tail, h.seg.congr heq, h.nodup⟩

theorem head_eq_zero_iff (h : Holds l q xs) : q.head = 0 ↔ xs = [] := by
  rw [h.head, headD_eq_zero_iff fun _ => h.ne_zero]

theorem tail_eq_zero_iff (h : Holds l q xs) : q.tail = 0 ↔ xs = [] := by
  rw [h.tail, getLastD_eq_zero_iff fun _ => h.ne_zero]

theorem head_mem (h : Holds l q xs) (hq : q.head ≠ 0) : q.head ∈ xs := by
  cases xs with
  | nil => exact absurd h.head hq
  | cons a xs => simp [h.head]

theorem tail_mem (h : Holds l q xs) (hq : q.head ≠ 0) : q.tail ∈ xs := by
  induction xs using List.reverseRecOn with
  | nil => exact absurd h.head hq
  | append_singleton xs a _ => simp [h.tail]

/-- Nothing precedes the first node. -/
theorem prev_head (h : Holds l q xs) (hq : q.head ≠ 0) : l.prev q.head = 0 := by
  cases xs with
  | nil => exact absurd h.head hq
  | cons a xs =>
      rw [h.head]
      exact h.seg.2.1

theorem push (h : Holds l q xs) (hx0 : x ≠ 0) (hx : x ∉ xs) :
    Holds (l.push q x) (q.push x) (x :: xs) := by
  have hnodup := List.nodup_cons.mpr ⟨hx, h.nodup⟩
  refine ⟨rfl, ?_, ?_, hnodup⟩
  · rw [Queue.push, List.getLastD_cons, h.tail]
    induction xs using List.reverseRecOn with
    | nil => simp
    | append_singleton xs a _ => simpa using fun h0 => absurd h0 (h.ne_zero (x := a) (by simp))
  · rw [Links.push, h.head]
    cases xs with
    | nil => exact ⟨hx0, by simp, by simp, trivial⟩
    | cons a xs =>
        have ha := h.ne_zero List.mem_cons_self
        have hxa : a ≠ x := fun heq => hx (heq ▸ List.mem_cons_self)
        rw [List.headD_cons, if_neg ha]
        refine ⟨hx0, by simp, by simp, ?_⟩
        exact ((h.seg.setPrev_head (List.nodup_cons.mp h.nodup).1).setPrev hx).setNext hx

theorem append (h : Holds l q xs) (hx0 : x ≠ 0) (hx : x ∉ xs) :
    Holds (l.append q x) (q.append x) (xs ++ [x]) := by
  have hnodup : (xs ++ [x]).Nodup := List.nodup_append.mpr ⟨h.nodup, List.nodup_singleton x, by
    intro a ha b hb hab
    rw [List.mem_singleton.mp hb] at hab
    exact hx (hab ▸ ha)⟩
  refine ⟨?_, by simp [Queue.append], ?_, hnodup⟩
  · rw [Queue.append, h.head]
    cases xs with
    | nil => simp
    | cons a xs => simpa using fun h0 => absurd h0 (h.ne_zero List.mem_cons_self)
  · rw [Links.append, seg_append, h.tail]
    induction xs using List.reverseRecOn with
    | nil =>
        rw [h.head]
        exact ⟨trivial, hx0, by simp, by simp, trivial⟩
    | append_singleton xs a _ =>
        have hq : q.head ≠ 0 := fun h0 => by simpa using h.head_eq_zero_iff.mp h0
        have ha : a ∉ xs := by
          have := (List.nodup_append.mp h.nodup).2.2
          exact fun hmem => this a hmem a (List.mem_singleton_self a) rfl
        rw [if_neg hq]
        refine ⟨?_, hx0, by simp, by simp, trivial⟩
        have hseg : (l.setNext a x).Seg 0 (xs ++ [a]) x := h.seg.setNext_last ha
        simpa using (hseg.setPrev hx).setNext hx

/-- The neighbours of a node are in its queue. -/
theorem prev_mem (h : Holds l q xs) (hx : x ∈ xs) (hp : l.prev x ≠ 0) : l.prev x ∈ xs := by
  obtain ⟨as, bs, rfl⟩ := List.append_of_mem hx
  obtain ⟨-, -, hprev, -, -⟩ := seg_append.mp h.seg
  rw [hprev] at hp ⊢
  induction as using List.reverseRecOn with
  | nil => exact absurd rfl hp
  | append_singleton as a _ => simp

theorem next_mem (h : Holds l q xs) (hx : x ∈ xs) (hn : l.next x ≠ 0) : l.next x ∈ xs := by
  obtain ⟨as, bs, rfl⟩ := List.append_of_mem hx
  obtain ⟨-, -, -, hnext, -⟩ := seg_append.mp h.seg
  rw [hnext] at hn ⊢
  cases bs with
  | nil => exact absurd rfl hn
  | cons b bs => simp

/-- No node is linked to itself. -/
theorem prev_ne (h : Holds l q xs) (hx : x ∈ xs) (hp : l.prev x ≠ 0) : l.prev x ≠ x := by
  obtain ⟨as, bs, rfl⟩ := List.append_of_mem hx
  obtain ⟨-, -, hprev, -, -⟩ := seg_append.mp h.seg
  rw [hprev] at hp ⊢
  induction as using List.reverseRecOn with
  | nil => exact absurd rfl hp
  | append_singleton as a _ =>
      rw [List.getLastD_concat]
      exact (List.nodup_append.mp h.nodup).2.2 a (by simp) x List.mem_cons_self

/-- A queue is no longer than there are places for its nodes. -/
theorem length_le (h : Holds l q xs) (place : Nat → Nat) {n : Nat}
    (hinj : ∀ x ∈ xs, ∀ y ∈ xs, place x = place y → x = y) (hlt : ∀ x ∈ xs, place x < n) :
    xs.length ≤ n := by
  have hnodup : (xs.map place).Nodup :=
    h.nodup.map_on fun x hx y hy hxy => hinj x hx y hy hxy
  have hsub : xs.map place ⊆ List.range n := by
    intro y hy
    obtain ⟨x, hx, rfl⟩ := List.mem_map.mp hy
    exact List.mem_range.mpr (hlt x hx)
  have hle := (List.subperm_of_subset hnodup hsub).length_le
  rwa [List.length_map, List.length_range] at hle

/-- Taking a node out writes the links of its neighbours only. -/
theorem remove_frame (h : Holds l q xs) (hx : x ∈ xs) (hy : y ∉ xs) :
    (l.remove x).next y = l.next y ∧ (l.remove x).prev y = l.prev y := by
  have hnext : (l.skipNext x).next y = l.next y ∧ (l.skipNext x).prev y = l.prev y := by
    rw [skipNext]
    split_ifs with hp
    · exact ⟨rfl, rfl⟩
    · exact ⟨Function.update_of_ne (ne_of_mem_of_not_mem (h.prev_mem hx hp) hy).symm .., rfl⟩
  have hx' : (l.skipNext x).next x = l.next x := by
    rw [skipNext]
    split_ifs with hp
    · rfl
    · exact Function.update_of_ne (h.prev_ne hx hp).symm ..
  rw [Links.remove, skipPrev, hx']
  split_ifs with hn
  · exact hnext
  · have hne := (ne_of_mem_of_not_mem (h.next_mem hx hn) hy).symm
    exact ⟨hnext.1, (Function.update_of_ne hne ..).trans hnext.2⟩

theorem remove (h : Holds l q xs) (hx : x ∈ xs) :
    Holds (l.remove x) (q.remove l x) (xs.erase x) := by
  obtain ⟨as, bs, rfl⟩ := List.append_of_mem hx
  obtain ⟨hna, hnxb, hdisj⟩ := List.nodup_append.mp h.nodup
  obtain ⟨hxb, hnb⟩ := List.nodup_cons.mp hnxb
  have hxa : x ∉ as := fun hmem => hdisj x hmem x List.mem_cons_self rfl
  have hab : ∀ a ∈ as, a ∉ bs := fun a ha hb => hdisj a ha a (List.mem_cons_of_mem x hb) rfl
  obtain ⟨hsa, hx0, hprev, hnext, hsb⟩ := seg_append.mp h.seg
  have ha0 : ∀ a ∈ as, a ≠ 0 := fun a ha => h.ne_zero (List.mem_append_left _ ha)
  have hb0 : ∀ b ∈ bs, b ≠ 0 := fun b hb =>
    h.ne_zero (List.mem_append_right _ (List.mem_cons_of_mem x hb))
  have herase : (as ++ x :: bs).erase x = as ++ bs := by
    rw [List.erase_append_right _ hxa, List.erase_cons_head]
  rw [herase]
  refine ⟨?_, ?_, ?_, List.nodup_append.mpr ⟨hna, hnb, fun a ha b hb hab' => hab a ha (hab' ▸ hb)⟩⟩
  · rw [Queue.remove, hprev, hnext, h.head]
    cases as with
    | nil => simp
    | cons a as =>
        rw [if_neg (by rw [getLastD_eq_zero_iff ha0]; simp)]
        rfl
  · rw [Queue.remove, hprev, hnext, h.tail]
    induction bs using List.reverseRecOn with
    | nil => simp
    | append_singleton bs b _ =>
        have hb : (bs ++ [b]).headD 0 ≠ 0 := by
          rw [Ne, headD_eq_zero_iff hb0]
          simp
        rw [if_neg hb, ← List.cons_append, ← List.append_assoc, ← List.append_assoc,
          List.getLastD_concat, List.getLastD_concat]
  · -- the node before `x` and the one behind it are linked
    have hskip : (l.skipNext x).Seg 0 as (bs.headD 0) ∧ (l.skipNext x).Seg x bs 0 ∧
        (l.skipNext x).next x = bs.headD 0 := by
      rw [skipNext, hprev, hnext]
      induction as using List.reverseRecOn with
      | nil => exact ⟨trivial, hsb, hnext⟩
      | append_singleton as a _ =>
          have ha := List.mem_append_right as (List.mem_singleton_self a)
          have haa : a ∉ as := fun hmem =>
            (List.nodup_append.mp hna).2.2 a hmem a (List.mem_singleton_self a) rfl
          rw [List.getLastD_concat, if_neg (ha0 a ha)]
          refine ⟨hsa.setNext_last haa, hsb.setNext (hab a ha), ?_⟩
          exact (Function.update_of_ne (ne_of_mem_of_not_mem ha hxa).symm ..).trans hnext
    have hprev' : (l.skipNext x).prev x = as.getLastD 0 := by
      rw [← hprev, skipNext]
      split_ifs <;> rfl
    obtain ⟨hsa', hsb', hnext'⟩ := hskip
    rw [Links.remove, skipPrev, hnext', hprev', seg_append]
    cases bs with
    | nil => exact ⟨hsa', trivial⟩
    | cons b bs =>
        have hb := hb0 b List.mem_cons_self
        rw [List.headD_cons, if_neg hb]
        refine ⟨hsa'.setPrev fun hmem => hab b hmem List.mem_cons_self, ?_⟩
        exact hsb'.setPrev_head (List.nodup_cons.mp hnb).1

end Holds

/-! ## Several queues -/

/-- The queues in memory hold the lists, and no node is in two of them. -/
structure Queues {ι : Type*} (l : Links) (q : ι → Queue) (xs : ι → List Nat) : Prop where
  holds : ∀ i, Holds l (q i) (xs i)
  unique : ∀ i j x, x ∈ xs i → x ∈ xs j → i = j

namespace Queues

open Function

variable {ι : Type*} [DecidableEq ι] {l l' : Links} {q : ι → Queue} {xs : ι → List Nat} {i : ι}
  {x : Nat}

omit [DecidableEq ι] in
theorem empty : Queues l (fun _ : ι => .empty) (fun _ => []) :=
  ⟨fun _ => .empty, fun _ _ _ hx => nomatch hx⟩

omit [DecidableEq ι] in
theorem congr (h : Queues l q xs)
    (heq : ∀ i, ∀ x ∈ xs i, l'.next x = l.next x ∧ l'.prev x = l.prev x) : Queues l' q xs :=
  ⟨fun i => (h.holds i).congr (heq i), h.unique⟩

/-- One of the queues is changed. The links of the others' nodes stay. -/
theorem update (h : Queues l q xs) {q' : Queue} {ys : List Nat} (hi : Holds l' q' ys)
    (hlinks : ∀ j, j ≠ i → ∀ y ∈ xs j, l'.next y = l.next y ∧ l'.prev y = l.prev y)
    (hys : ∀ y ∈ ys, ∀ j, j ≠ i → y ∉ xs j) :
    Queues l' (Function.update q i q') (Function.update xs i ys) := by
  constructor
  · intro j
    by_cases hj : j = i
    · subst hj
      rw [update_self, update_self]
      exact hi
    · rw [update_of_ne hj, update_of_ne hj]
      exact (h.holds j).congr (hlinks j hj)
  · intro j k y hyj hyk
    by_cases hj : j = i <;> by_cases hk : k = i
    · rw [hj, hk]
    · subst hj
      rw [update_self] at hyj
      rw [update_of_ne hk] at hyk
      exact absurd hyk (hys y hyj k hk)
    · subst hk
      rw [update_self] at hyk
      rw [update_of_ne hj] at hyj
      exact absurd hyj (hys y hyk j hj)
    · rw [update_of_ne hj] at hyj
      rw [update_of_ne hk] at hyk
      exact h.unique j k y hyj hyk

theorem push (h : Queues l q xs) (hx0 : x ≠ 0) (hx : ∀ j, x ∉ xs j) :
    Queues (l.push (q i) x) (Function.update q i ((q i).push x))
      (Function.update xs i (x :: xs i)) := by
  refine h.update ((h.holds i).push hx0 (hx i)) (fun j hj y hy => ?_) fun y hy j hj hyj => ?_
  · have hyx : y ≠ x := ne_of_mem_of_not_mem hy (hx j)
    rw [Links.push]
    split_ifs with hq
    · simp [hyx]
    · have hyh : y ≠ (q i).head := fun heq =>
        hj (h.unique j i y hy (heq ▸ (h.holds i).head_mem hq))
      simp [hyx, hyh]
  · rcases List.mem_cons.mp hy with rfl | hy
    · exact hx j hyj
    · exact hj (h.unique j i y hyj hy)

theorem append (h : Queues l q xs) (hx0 : x ≠ 0) (hx : ∀ j, x ∉ xs j) :
    Queues (l.append (q i) x) (Function.update q i ((q i).append x))
      (Function.update xs i (xs i ++ [x])) := by
  refine h.update ((h.holds i).append hx0 (hx i)) (fun j hj y hy => ?_) fun y hy j hj hyj => ?_
  · have hyx : y ≠ x := ne_of_mem_of_not_mem hy (hx j)
    rw [Links.append]
    split_ifs with hq
    · simp [hyx]
    · have hyt : y ≠ (q i).tail := fun heq =>
        hj (h.unique j i y hy (heq ▸ (h.holds i).tail_mem hq))
      simp [hyx, hyt]
  · rcases List.mem_append.mp hy with hy | hy
    · exact hj (h.unique j i y hyj hy)
    · exact hx j (List.mem_singleton.mp hy ▸ hyj)

theorem remove (h : Queues l q xs) (hx : x ∈ xs i) :
    Queues (l.remove x) (Function.update q i ((q i).remove l x))
      (Function.update xs i ((xs i).erase x)) := by
  refine h.update ((h.holds i).remove hx) (fun j hj y hy => ?_) fun y hy j hj hyj => ?_
  · have hyi : y ∉ xs i := fun hyi => hj (h.unique j i y hy hyi)
    exact (h.holds i).remove_frame hx hyi
  · exact hj (h.unique j i y hyj (List.mem_of_mem_erase hy))

theorem clear (h : Queues l q xs) (i : ι) :
    Queues l (Function.update q i .empty) (Function.update xs i []) :=
  h.update .empty (fun _ _ _ _ => ⟨rfl, rfl⟩) fun _ hy => nomatch hy

end Queues

end Lib
