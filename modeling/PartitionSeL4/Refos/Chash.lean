import PartitionSeL4.Refos.Cvector
import Mathlib.Logic.Function.Basic

/-!
# `chash.c`: the hash table

A table of vectors. The entries are on the heap, and the vector of a bucket holds their addresses.
`chash_set` overwrites the entry of its key where there is one and allocates one otherwise,
`chash_remove` frees it and deletes its address from the vector.

`Chash.Ok` is what the operations keep: the vectors hold lists of addresses, the key of an entry
has the hash of the bucket it is in, and no two entries of a bucket have one key. An address is
therefore in one bucket only, and there once. `Chash.Maps` adds that the entries are those of a
map, which in a run is the map of the last `chash_set` for each key that returned 0
(`chash_is_map`). One that finds no memory for an entry returns `-ENOMEM` and leaves the old item.

Whether `char` is signed makes other hashes, and no other difference.
-/

namespace PartitionSeL4.Refos

open Lib

/-- `chash_entry_t`. A null item is 0. -/
structure ChashEntry where
  key : Nat
  item : Nat
  deriving DecidableEq

/-- `chash_t`, and the entries of the heap by address. -/
structure Chash where
  table : List (Cvector Nat)
  tableSize : Nat
  entries : Nat → Option ChashEntry

namespace Chash

/-! ## The hash -/

/-- A `char` as an `unsigned int`. -/
def charWord (signed : Bool) (c : Nat) : Nat :=
  if signed = true ∧ 128 ≤ c then c + (2 ^ 32 - 2 ^ 8) else c

/-- `__DEKHash` -/
def dekHash (signed : Bool) (str : List Nat) : Nat :=
  str.foldl (fun hash c => (u32 (hash <<< 5) ^^^ (hash >>> 27)) ^^^ charWord signed c) str.length

/-- The bytes of a key, the lowest first. -/
def keyBytes (key : Nat) : List Nat := (List.range 4).map fun i => (key >>> (8 * i)) % 2 ^ 8

/-- `chash_hash` -/
def hash (signed : Bool) (key md : Nat) : Nat := dekHash signed (keyBytes key) % md

/-! ## The operations -/

/-- `chash_init`. The loop over the vectors leaves their block where its size, 16 bytes for each,
does not fit in a word. -/
def init (sz : Nat) (granted : Bool) : Except Failure Chash :=
  if Cvector.adjustSize (u32 (16 * sz)) && granted then
    if sz ≤ u32 (16 * sz) / 16 then
      .ok { table := List.replicate sz Cvector.init, tableSize := sz, entries := fun _ => none }
    else .error .fault
  else .error .assertion

/-- `t->table[h]` -/
def bucket (t : Chash) (h : Nat) : Except Failure (Cvector Nat) :=
  match t.table[h]? with
  | some v => .ok v
  | none => .error .fault

/-- `*entry` -/
def entry (t : Chash) (p : Nat) : Except Failure ChashEntry :=
  match t.entries p with
  | some e => .ok e
  | none => .error .fault

/-- `chash_get_entry`: the index of the entry in its bucket and its address. -/
def getEntry (t : Chash) (h key : Nat) : Except Failure (Option (Nat × Nat)) := do
  let v ← t.bucket h
  (List.range' 0 v.count).findSomeM? fun (i : Nat) => do
    let p ← v.get i
    if p = 0 then throw .assertion
    let e ← t.entry p
    return if e.key = key then some (i, p) else none

variable (signed : Bool)

/-- `chash_get` -/
def get (t : Chash) (key : Nat) : Except Failure Nat := do
  let h := hash signed key t.tableSize
  if ¬h < t.tableSize then throw .assertion
  match ← t.getEntry h key with
  | some (_, p) => return (← t.entry p).item
  | none => return 0

/-- `ENOMEM` -/
def eNoMem : Int := 12

/-- `chash_set`. `mem` is what `kmalloc` returns if it is called, 0 where it has no memory, and
`granted` whether the vector gets what it asks for. -/
def set (t : Chash) (key obj mem : Nat) (granted : Bool) : Except Failure (Int × Chash) := do
  let h := hash signed key t.tableSize
  if ¬h < t.tableSize then throw .assertion
  match ← t.getEntry h key with
  | some (_, p) =>
      let e ← t.entry p
      return (0, { t with entries := Function.update t.entries p (some { e with item := obj }) })
  | none =>
      if mem = 0 then return (-eNoMem, t)
      let v ← t.bucket h
      let (_, v) ← v.add mem granted
      return (0, { t with
        entries := Function.update t.entries mem (some { key := key, item := obj })
        table := t.table.set h v })

/-- `chash_remove` -/
def remove (t : Chash) (key : Nat) (granted : Bool) : Except Failure Chash := do
  let h := hash signed key t.tableSize
  if ¬h < t.tableSize then throw .assertion
  match ← t.getEntry h key with
  | some (index, p) =>
      let v ← t.bucket h
      let v ← v.delete index granted
      return { t with entries := Function.update t.entries p none, table := t.table.set h v }
  | none => return t

/-- `chash_find_free` -/
def findFree (t : Chash) (rangeStart rangeEnd : Nat) : Except Failure Int := do
  let found ← (List.range' rangeStart (rangeEnd - rangeStart)).findSomeM? fun (i : Nat) => do
    match ← t.getEntry (hash signed i t.tableSize) i with
    | some _ => return none
    | none => return some (i32 i)
  return found.getD (-1)

/-! ## The entries of a bucket -/

/-- The key of the entry at an address. -/
def keyAt (t : Chash) (p : Nat) : Option Nat := (t.entries p).map ChashEntry.key

/-- What the operations keep. `ps h` are the addresses in the bucket `h`. -/
structure Ok (t : Chash) (ps : Nat → List Nat) : Prop where
  size_pos : 0 < t.tableSize
  length : t.table.length = t.tableSize
  held : ∀ (h : Nat) (v : Cvector Nat), t.table[h]? = some v → v.Holds (ps h)
  ne_null : ∀ h, ∀ p ∈ ps h, p ≠ 0
  key : ∀ h, ∀ p ∈ ps h, ∃ k, t.keyAt p = some k ∧ hash signed k t.tableSize = h
  distinct : ∀ h, ((ps h).map t.keyAt).Nodup

variable {signed : Bool} {t : Chash} {ps : Nat → List Nat} {h key p : Nat}

theorem exists_of_keyAt {k : Nat} (hkey : t.keyAt p = some k) :
    ∃ e, t.entries p = some e ∧ e.key = k :=
  Option.map_eq_some_iff.1 hkey

theorem Ok.bucket (ok : t.Ok signed ps) (hlt : h < t.tableSize) :
    ∃ v, t.bucket h = .ok v ∧ t.table[h]? = some v ∧ v.Holds (ps h) := by
  have hin : h < t.table.length := ok.length ▸ hlt
  have hsome : t.table[h]? = some t.table[h] := List.getElem?_eq_getElem hin
  refine ⟨t.table[h], ?_, hsome, ok.held h _ hsome⟩
  rw [Chash.bucket, hsome]

/-- `chash_get_entry` finds the entry of the key in the bucket, or there is none. -/
theorem Ok.getEntry (ok : t.Ok signed ps) (hlt : h < t.tableSize) (key : Nat) :
    (t.getEntry h key = .ok none ∧ ∀ p ∈ ps h, t.keyAt p ≠ some key) ∨
      ∃ i p, t.getEntry h key = .ok (some (i, p)) ∧ (ps h)[i]? = some p ∧
        t.keyAt p = some key := by
  obtain ⟨v, hv, -, hheld⟩ := ok.bucket hlt
  -- what one round of the loop finds
  let g : Nat → Option (Nat × Nat) := fun i =>
    (ps h)[i]?.bind fun p => if t.keyAt p = some key then some (i, p) else none
  have hloop : t.getEntry h key = .ok ((List.range' 0 (ps h).length).findSome? g) := by
    rw [Chash.getEntry, hv]
    show List.findSomeM? _ (List.range' 0 v.count) = _
    rw [hheld.count]
    refine findSomeM?_ok fun i hi => ?_
    have hin : i < (ps h).length := by
      have := (List.mem_range'_1.1 hi).2
      omega
    have hmem := List.getElem_mem hin
    obtain ⟨k, hk, -⟩ := ok.key h _ hmem
    obtain ⟨e, he, rfl⟩ := exists_of_keyAt hk
    have hentry : t.entry (ps h)[i] = .ok e := by rw [entry, he]
    simp only [hheld.get hin, bind, Except.bind, if_neg (ok.ne_null h _ hmem), pure, Except.pure,
      hentry, g, List.getElem?_eq_getElem hin, Option.bind_some, hk, Option.some.injEq]
  rw [hloop]
  cases hfound : (List.range' 0 (ps h).length).findSome? g with
  | none =>
      refine Or.inl ⟨rfl, fun p hp hkey => ?_⟩
      obtain ⟨i, hi⟩ := List.mem_iff_getElem?.1 hp
      obtain ⟨hin, -⟩ := List.getElem?_eq_some_iff.1 hi
      have hnone := List.findSome?_eq_none_iff.1 hfound i
        (List.mem_range'_1.2 ⟨Nat.zero_le i, by omega⟩)
      simp [g, hi, hkey] at hnone
  | some r =>
      obtain ⟨i, -, hi⟩ := List.exists_of_findSome?_eq_some hfound
      obtain ⟨p, hp, hr⟩ := Option.bind_eq_some_iff.1 hi
      by_cases hkey : t.keyAt p = some key
      · rw [if_pos hkey] at hr
        cases hr
        exact Or.inr ⟨i, p, rfl, hp, hkey⟩
      · rw [if_neg hkey] at hr
        cases hr

/-! ## The map -/

/-- The items of the entries are those of the map. -/
def Maps (signed : Bool) (t : Chash) (ps : Nat → List Nat) (m : Nat → Option Nat) : Prop :=
  ∀ key item, m key = some item ↔
    ∃ p ∈ ps (hash signed key t.tableSize), t.entries p = some ⟨key, item⟩

variable {m : Nat → Option Nat} {item : Nat}

theorem Ok.hash_lt (ok : t.Ok signed ps) (key : Nat) :
    hash signed key t.tableSize < t.tableSize := Nat.mod_lt _ ok.size_pos

theorem Ok.eq_of_keyAt (ok : t.Ok signed ps) {p q : Nat} (hp : p ∈ ps h) (hq : q ∈ ps h)
    (hkey : t.keyAt p = t.keyAt q) : p = q :=
  List.inj_on_of_nodup_map (ok.distinct h) hp hq hkey

theorem keyAt_eq {e : ChashEntry} (he : t.entries p = some e) : t.keyAt p = some e.key := by
  rw [keyAt, he]
  rfl

theorem Ok.getEntry_map (ok : t.Ok signed ps) (hm : Maps signed t ps m) (key : Nat) :
    (t.getEntry (hash signed key t.tableSize) key = .ok none ∧ m key = none) ∨
      ∃ i p e, t.getEntry (hash signed key t.tableSize) key = .ok (some (i, p)) ∧
        (ps (hash signed key t.tableSize))[i]? = some p ∧ t.entries p = some e ∧ e.key = key ∧
        m key = some e.item := by
  rcases ok.getEntry (ok.hash_lt key) key with ⟨hnone, hother⟩ | ⟨i, p, hsome, hi, hkey⟩
  · refine Or.inl ⟨hnone, Option.eq_none_iff_forall_ne_some.2 fun item hitem => ?_⟩
    obtain ⟨p, hp, he⟩ := (hm key item).1 hitem
    exact hother p hp (keyAt_eq he)
  · obtain ⟨e, he, rfl⟩ := exists_of_keyAt hkey
    exact Or.inr ⟨i, p, e, hsome, hi, he, rfl,
      (hm e.key e.item).2 ⟨p, List.mem_of_getElem? hi, he⟩⟩

/-- `chash_get` returns what the map has, and a null pointer if that is nothing. -/
theorem Ok.get (ok : t.Ok signed ps) (hm : Maps signed t ps m) (key : Nat) :
    t.get signed key = .ok ((m key).getD 0) := by
  have hlt := ok.hash_lt key
  rw [Chash.get]
  rcases ok.getEntry_map hm key with ⟨hnone, hkey⟩ | ⟨i, p, e, hsome, -, he, -, hkey⟩
  · simp only [hlt, not_true_eq_false, if_false, hnone, hkey]
    rfl
  · have hentry : t.entry p = .ok e := by rw [entry, he]
    simp only [hlt, not_true_eq_false, if_false, hsome, hkey]
    show (do return (← t.entry p).item) = _
    rw [hentry]
    rfl

/-- `chash_find_free` returns the least key of the range that the map does not have, or -1. -/
theorem Ok.findFree (ok : t.Ok signed ps) (hm : Maps signed t ps m) {a b : Nat} (hb : b < 2 ^ 31) :
    (∃ k : Nat, t.findFree signed a b = .ok (k : Int) ∧ a ≤ k ∧ k < b ∧ m k = none ∧
        ∀ j, a ≤ j → j < k → m j ≠ none) ∨
      t.findFree signed a b = .ok (-1) ∧ ∀ k, a ≤ k → k < b → m k ≠ none := by
  let g : Nat → Option Int := fun i => if m i = none then some (i32 i) else none
  have hloop : t.findFree signed a b =
      .ok (((List.range' a (b - a)).findSome? g).getD (-1)) := by
    rw [Chash.findFree, findSomeM?_ok (g := g)]
    · rfl
    · intro i hi
      rcases ok.getEntry_map hm i with ⟨hnone, hkey⟩ | ⟨j, p, e, hsome, -, -, -, hkey⟩
      · simp only [hnone, bind, Except.bind, g, hkey, if_true]
        rfl
      · simp only [hsome, bind, Except.bind, g, hkey, reduceCtorEq, if_false]
        rfl
  rw [hloop]
  cases hfound : (List.range' a (b - a)).findSome? g with
  | none =>
      refine Or.inr ⟨rfl, fun k hak hkb hk => ?_⟩
      have hnone := List.findSome?_eq_none_iff.1 hfound k (List.mem_range'_1.2 ⟨hak, by omega⟩)
      simp [g, hk] at hnone
  | some r =>
      obtain ⟨before, k, after, hrange, hk, hbefore⟩ := List.findSome?_eq_some_iff.1 hfound
      have hmem := List.mem_range'_1.1 (hrange ▸ List.mem_append_right before List.mem_cons_self)
      by_cases hfree : m k = none
      · simp only [g, hfree, if_true, Option.some.injEq] at hk
        have hi32 : i32 (k : Int) = k := i32_eq (by omega) (by omega)
        refine Or.inl ⟨k, ?_, hmem.1, by omega, hfree, fun j haj hjk hj => ?_⟩
        · rw [← hk, hi32]
          rfl
        · -- the range is ascending, so that `j` is one of those tried before
          have hsorted := List.pairwise_lt_range' (s := a) (n := b - a)
          rw [hrange, List.pairwise_append, List.pairwise_cons] at hsorted
          have hj' : j ∈ before ++ k :: after :=
            hrange ▸ List.mem_range'_1.2 ⟨haj, by omega⟩
          rcases List.mem_append.1 hj' with hin | hin
          · have hnone := hbefore j hin
            simp [g, hj] at hnone
          · rcases List.mem_cons.1 hin with rfl | hin
            · omega
            · have := hsorted.2.1.1 j hin
              omega
      · simp [g, hfree] at hk

/-! ## Changes -/

theorem not_mem_of_free (ok : t.Ok signed ps) (hfree : t.entries p = none) (h : Nat) :
    p ∉ ps h := by
  intro hp
  obtain ⟨k, hk, -⟩ := ok.key h p hp
  rw [keyAt, hfree] at hk
  cases hk

theorem Ok.of_keys {u : Chash} (ok : t.Ok signed ps) (htable : u.table = t.table)
    (hsize : u.tableSize = t.tableSize) (hkeys : ∀ p, u.keyAt p = t.keyAt p) : u.Ok signed ps := by
  have hmap : u.keyAt = t.keyAt := funext hkeys
  refine ⟨hsize ▸ ok.size_pos, ?_, htable ▸ ok.held, ok.ne_null, ?_, ?_⟩
  · rw [htable, hsize]
    exact ok.length
  · rw [hmap, hsize]
    exact ok.key
  · rw [hmap]
    exact ok.distinct

/-- Another list of addresses in a bucket, where the keys in the other buckets stay. -/
theorem Ok.of_bucket {u : Chash} {v : Cvector Nat} {xs : List Nat} (ok : t.Ok signed ps)
    (htable : u.table = t.table.set h v) (hsize : u.tableSize = t.tableSize) (hheld : v.Holds xs)
    (hne : ∀ p ∈ xs, p ≠ 0)
    (hkey : ∀ p ∈ xs, ∃ k, u.keyAt p = some k ∧ hash signed k t.tableSize = h)
    (hdistinct : (xs.map u.keyAt).Nodup)
    (hother : ∀ h', h' ≠ h → ∀ p ∈ ps h', u.keyAt p = t.keyAt p) :
    u.Ok signed (Function.update ps h xs) := by
  refine ⟨hsize ▸ ok.size_pos, ?_, ?_, ?_, ?_, ?_⟩
  · rw [htable, hsize, List.length_set]
    exact ok.length
  · intro h' v' hv'
    rw [htable] at hv'
    by_cases heq : h' = h
    · subst heq
      rw [Function.update_self]
      obtain ⟨hlt, -⟩ := List.getElem?_eq_some_iff.1 hv'
      rw [List.getElem?_set_self (by simpa using hlt)] at hv'
      exact Option.some.inj hv' ▸ hheld
    · rw [List.getElem?_set_ne (Ne.symm heq)] at hv'
      rw [Function.update_of_ne heq]
      exact ok.held h' v' hv'
  · intro h' p hp
    by_cases heq : h' = h
    · subst heq
      rw [Function.update_self] at hp
      exact hne p hp
    · rw [Function.update_of_ne heq] at hp
      exact ok.ne_null h' p hp
  · intro h' p hp
    rw [hsize]
    by_cases heq : h' = h
    · subst heq
      rw [Function.update_self] at hp
      exact hkey p hp
    · rw [Function.update_of_ne heq] at hp
      rw [hother h' heq p hp]
      exact ok.key h' p hp
  · intro h'
    by_cases heq : h' = h
    · subst heq
      rw [Function.update_self]
      exact hdistinct
    · rw [Function.update_of_ne heq, List.map_congr_left (hother h' heq)]
      exact ok.distinct h'

/-- The map is changed at one key, where the entries of the other keys stay. -/
theorem Maps.update {u : Chash} {ps' : Nat → List Nat} {new : Option Nat} (hm : Maps signed t ps m)
    (hsize : u.tableSize = t.tableSize)
    (hself : ∀ item, new = some item ↔
      ∃ q ∈ ps' (hash signed key t.tableSize), u.entries q = some ⟨key, item⟩)
    (hother : ∀ h q e, e.key ≠ key →
      (q ∈ ps' h ∧ u.entries q = some e ↔ q ∈ ps h ∧ t.entries q = some e)) :
    Maps signed u ps' (Function.update m key new) := by
  intro key' item
  rw [hsize]
  by_cases heq : key' = key
  · subst heq
    rw [Function.update_self]
    exact hself item
  · rw [Function.update_of_ne heq, hm]
    exact exists_congr fun q => (hother _ q ⟨key', item⟩ heq).symm

theorem Ok.overwrite {e : ChashEntry} (ok : t.Ok signed ps) (hm : Maps signed t ps m)
    (hp : p ∈ ps (hash signed e.key t.tableSize)) (he : t.entries p = some e) (obj : Nat) :
    let u := { t with entries := Function.update t.entries p (some { e with item := obj }) }
    u.Ok signed ps ∧ Maps signed u ps (Function.update m e.key (some obj)) := by
  intro u
  have hself : u.entries p = some ⟨e.key, obj⟩ := Function.update_self _ _ _
  have hkeys : ∀ q, u.keyAt q = t.keyAt q := by
    intro q
    by_cases hq : q = p
    · rw [hq, keyAt_eq hself, keyAt_eq he]
    · simp [u, keyAt, Function.update_of_ne hq]
  refine ⟨ok.of_keys rfl rfl hkeys, hm.update rfl (fun item => ?_) fun h q e' hne => ?_⟩
  · constructor
    · rintro ⟨⟩
      exact ⟨p, hp, hself⟩
    · rintro ⟨q, hq, hqe⟩
      have hsame : q = p := ok.eq_of_keyAt hq hp (by rw [← hkeys, keyAt_eq hqe, keyAt_eq he])
      rw [hsame, hself] at hqe
      cases hqe
      rfl
  · refine and_congr_right fun _ => ?_
    by_cases hq : q = p
    · rw [hq, hself, he]
      refine iff_of_false ?_ ?_
      · rintro ⟨⟩
        exact hne rfl
      · rintro ⟨⟩
        exact hne rfl
    · rw [show u.entries q = t.entries q from Function.update_of_ne hq _ _]

/-- An entry at a free address is added to its bucket. -/
theorem Ok.insert {v : Cvector Nat} {mem : Nat} (ok : t.Ok signed ps)
    (hm : Maps signed t ps m) (hkey : m key = none) (hfree : t.entries mem = none) (hnull : mem ≠ 0)
    (hheld : v.Holds (ps (hash signed key t.tableSize) ++ [mem])) (obj : Nat) :
    let h := hash signed key t.tableSize
    let u := { t with
      entries := Function.update t.entries mem (some { key := key, item := obj })
      table := t.table.set h v }
    let ps' := Function.update ps h (ps h ++ [mem])
    u.Ok signed ps' ∧ Maps signed u ps' (Function.update m key (some obj)) := by
  intro h u ps'
  have hself : u.entries mem = some ⟨key, obj⟩ := Function.update_self _ _ _
  have hold : ∀ h', ∀ q ∈ ps h', u.entries q = t.entries q := by
    intro h' q hq
    refine Function.update_of_ne ?_ _ _
    rintro rfl
    exact not_mem_of_free ok hfree h' hq
  have hkeys : ∀ h', ∀ q ∈ ps h', u.keyAt q = t.keyAt q := fun h' q hq =>
    congrArg (Option.map ChashEntry.key) (hold h' q hq)
  have habsent : ∀ q ∈ ps h, t.keyAt q ≠ some key := by
    intro q hq hqkey
    obtain ⟨e, he, rfl⟩ := exists_of_keyAt hqkey
    cases hkey.symm.trans ((hm e.key e.item).2 ⟨q, hq, he⟩)
  have hin : ∀ h' q, q ∈ ps' h' ↔ q ∈ ps h' ∨ h' = h ∧ q = mem := by
    intro h' q
    by_cases heq : h' = h
    · subst heq
      simp [ps']
    · simp [ps', heq]
  refine ⟨ok.of_bucket rfl rfl hheld ?_ ?_ ?_ fun h' _ => hkeys h',
    hm.update rfl (fun item => ?_) fun h' q e hne => ?_⟩
  · intro q hq
    rcases List.mem_append.1 hq with hq | hq
    · exact ok.ne_null h q hq
    · exact List.mem_singleton.1 hq ▸ hnull
  · intro q hq
    rcases List.mem_append.1 hq with hq | hq
    · rw [hkeys h q hq]
      exact ok.key h q hq
    · rw [List.mem_singleton.1 hq]
      exact ⟨key, keyAt_eq hself, rfl⟩
  · rw [List.map_append, List.map_congr_left (hkeys h), List.map_singleton, keyAt_eq hself,
      ← List.concat_eq_append]
    refine (ok.distinct h).concat fun hmem => ?_
    obtain ⟨q, hq, hqkey⟩ := List.mem_map.1 hmem
    exact habsent q hq hqkey
  · constructor
    · rintro ⟨⟩
      exact ⟨mem, (hin _ _).2 (Or.inr ⟨rfl, rfl⟩), hself⟩
    · rintro ⟨q, hq, hqe⟩
      rcases (hin _ _).1 hq with hq | ⟨-, rfl⟩
      · exact absurd (hkeys _ q hq ▸ keyAt_eq hqe) (habsent q hq)
      · cases hself.symm.trans hqe
        rfl
  · rw [hin]
    constructor
    · rintro ⟨hq | ⟨-, rfl⟩, hqe⟩
      · exact ⟨hq, (hold h' q hq).symm.trans hqe⟩
      · cases hself.symm.trans hqe
        exact absurd rfl hne
    · rintro ⟨hq, hqe⟩
      exact ⟨Or.inl hq, (hold h' q hq).trans hqe⟩

theorem Ok.hash_eq {e : ChashEntry} (ok : t.Ok signed ps) (hp : p ∈ ps h)
    (he : t.entries p = some e) : hash signed e.key t.tableSize = h := by
  obtain ⟨k, hk, hhash⟩ := ok.key h p hp
  rw [keyAt_eq he] at hk
  cases hk
  exact hhash

theorem Ok.mem_eraseIdx {i q : Nat} (ok : t.Ok signed ps) (hi : (ps h)[i]? = some p) :
    q ∈ (ps h).eraseIdx i ↔ q ∈ ps h ∧ q ≠ p := by
  have hnodup : (ps h).Nodup := List.Nodup.of_map _ (ok.distinct h)
  obtain ⟨hlt, rfl⟩ := List.getElem?_eq_some_iff.1 hi
  rw [← hnodup.erase_getElem i hlt, hnodup.mem_erase_iff, and_comm]

theorem Ok.erase {v : Cvector Nat} {i : Nat} {e : ChashEntry} (ok : t.Ok signed ps)
    (hm : Maps signed t ps m) (hi : (ps (hash signed e.key t.tableSize))[i]? = some p)
    (he : t.entries p = some e)
    (hheld : v.Holds ((ps (hash signed e.key t.tableSize)).eraseIdx i)) :
    let h := hash signed e.key t.tableSize
    let u := { t with entries := Function.update t.entries p none, table := t.table.set h v }
    let ps' := Function.update ps h ((ps h).eraseIdx i)
    u.Ok signed ps' ∧ Maps signed u ps' (Function.update m e.key none) := by
  intro h u ps'
  have hp : p ∈ ps h := List.mem_of_getElem? hi
  have hin : ∀ h' q, q ∈ ps' h' ↔ q ∈ ps h' ∧ q ≠ p := by
    intro h' q
    by_cases heq : h' = h
    · rw [heq, show ps' h = _ from Function.update_self _ _ _, ok.mem_eraseIdx hi]
    · rw [show ps' h' = _ from Function.update_of_ne heq _ _]
      refine (and_iff_left_of_imp fun hq hqp => heq ?_).symm
      exact (ok.hash_eq (hqp ▸ hq) he).symm
  have hold : ∀ q, q ≠ p → u.entries q = t.entries q := fun q hne =>
    Function.update_of_ne hne _ _
  have hkeys : ∀ q, q ≠ p → u.keyAt q = t.keyAt q := fun q hne =>
    congrArg (Option.map ChashEntry.key) (hold q hne)
  have hleft : ∀ q ∈ (ps h).eraseIdx i, q ∈ ps h ∧ u.keyAt q = t.keyAt q := by
    intro q hq
    obtain ⟨hq, hne⟩ := (ok.mem_eraseIdx hi).1 hq
    exact ⟨hq, hkeys q hne⟩
  refine ⟨ok.of_bucket rfl rfl hheld (fun q hq => ok.ne_null h q (hleft q hq).1) ?_ ?_ ?_,
    hm.update rfl (fun item => ?_) fun h' q e' hne => ?_⟩
  · intro q hq
    rw [(hleft q hq).2]
    exact ok.key h q (hleft q hq).1
  · rw [List.map_congr_left fun q hq => (hleft q hq).2]
    exact (ok.distinct h).sublist ((List.eraseIdx_sublist _ _).map _)
  · intro h' heq q hq
    refine hkeys q ?_
    rintro rfl
    exact heq (ok.hash_eq hq he).symm
  · refine iff_of_false (by simp) ?_
    rintro ⟨q, hq, hqe⟩
    obtain ⟨hq, hne⟩ := (hin _ q).1 hq
    rw [hold q hne] at hqe
    exact hne (ok.eq_of_keyAt hq hp (by rw [keyAt_eq hqe, keyAt_eq he]))
  · rw [hin]
    constructor
    · rintro ⟨⟨hq, hqp⟩, hqe⟩
      exact ⟨hq, (hold q hqp).symm.trans hqe⟩
    · rintro ⟨hq, hqe⟩
      have hqp : q ≠ p := by
        rintro rfl
        cases he.symm.trans hqe
        exact hne rfl
      exact ⟨⟨hq, hqp⟩, (hold q hqp).trans hqe⟩

/-- The vector of the key's bucket gets the memory that an addition asks for. -/
def Grants (signed : Bool) (t : Chash) (key : Nat) (granted : Bool) : Prop :=
  ∀ v : Cvector Nat, t.table[hash signed key t.tableSize]? = some v → v.Grants granted

/-- The table is the one of a map. -/
def Is (signed : Bool) (t : Chash) (m : Nat → Option Nat) : Prop :=
  ∃ ps, t.Ok signed ps ∧ Maps signed t ps m

/-- `chash_set` sets the item of its key, or returns `-ENOMEM` where there is no entry and no memory
for one. -/
theorem Ok.set {mem : Nat} (ok : t.Ok signed ps) (hm : Maps signed t ps m)
    (hfree : mem = 0 ∨ t.entries mem = none) (key obj : Nat) (granted : Bool) :
    Settles .assertion (Grants signed t key granted) (t.set signed key obj mem granted) fun r =>
      (r = (-eNoMem, t) ∧ m key = none) ∨
        r.1 = 0 ∧ Is signed r.2 (Function.update m key (some obj)) := by
  have hlt := ok.hash_lt key
  simp only [Chash.set, hlt, not_true_eq_false, if_false]
  rcases ok.getEntry_map hm key with ⟨hnone, hkey⟩ | ⟨i, p, e, hsome, hi, he, rfl, -⟩
  · simp only [hnone, bind, Except.bind]
    by_cases hnull : mem = 0
    · rw [if_pos hnull]
      exact Settles.ok (Or.inl ⟨rfl, hkey⟩)
    · obtain ⟨v, hv, hsome, hheld⟩ := ok.bucket hlt
      simp only [if_neg hnull, hv]
      refine ((hheld.add mem granted).mono fun hgrants => hgrants v hsome).bind
        fun r ⟨_, hr⟩ => ?_
      have hinserted := ok.insert hm hkey (hfree.resolve_left hnull) hnull hr obj
      exact Settles.ok (Or.inr ⟨rfl, _, hinserted⟩)
  · have hentry : t.entry p = .ok e := by rw [entry, he]
    simp only [hsome, bind, Except.bind, hentry]
    exact Settles.ok (Or.inr ⟨rfl, ps, ok.overwrite hm (List.mem_of_getElem? hi) he obj⟩)

/-- `chash_remove` takes the key out, if it is there. -/
theorem Ok.remove (ok : t.Ok signed ps) (hm : Maps signed t ps m) (key : Nat) (granted : Bool) :
    Settles .assertion (granted = true) (t.remove signed key granted) fun u =>
      Is signed u (Function.update m key none) := by
  have hlt := ok.hash_lt key
  simp only [Chash.remove, hlt, not_true_eq_false, if_false]
  rcases ok.getEntry_map hm key with ⟨hnone, hkey⟩ | ⟨i, p, e, hsome, hi, he, rfl, -⟩
  · simp only [hnone, bind, Except.bind]
    rw [← hkey, Function.update_eq_self]
    exact Settles.ok ⟨ps, ok, hm⟩
  · obtain ⟨v, hv, -, hheld⟩ := ok.bucket hlt
    obtain ⟨hin, -⟩ := List.getElem?_eq_some_iff.1 hi
    simp only [hsome, bind, Except.bind, hv]
    exact (hheld.delete hin granted).bind fun u hu => Settles.ok ⟨_, ok.erase hm hi he hu⟩

theorem is_init {sz : Nat} {granted : Bool} (hpos : 0 < sz) (hinit : init sz granted = .ok t) :
    Is signed t fun _ => none := by
  rw [init] at hinit
  split_ifs at hinit
  cases hinit
  refine ⟨fun _ => [],
    ⟨hpos, List.length_replicate, ?_, by simp, by simp, fun _ => List.nodup_nil⟩, ?_⟩
  · intro h v hv
    rw [List.eq_of_mem_replicate (List.mem_of_getElem? hv)]
    exact Cvector.Holds.init
  · simp [Maps]

end Chash

/-! ## Runs -/

/-- A call, and what the heap does about it. -/
inductive ChashCall where
  | set (key obj mem : Nat) (granted : Bool)
  | remove (key : Nat) (granted : Bool)
  | get (key : Nat)
  | findFree (rangeStart rangeEnd : Nat)
  deriving DecidableEq

/-- A table, and the item of the last `chash_set` of each key that returned 0 and was not followed
by a removal. -/
structure ChashRun where
  table : Chash
  last : Nat → Option Nat

/-- A new table. -/
def ChashRun.init (t : Chash) : ChashRun := ⟨t, fun _ => none⟩

/-- One call. -/
def chashStep (signed : Bool) (w : ChashRun) : ChashCall → Except Failure ChashRun
  | .set key obj mem granted => do
      let (ret, t) ← w.table.set signed key obj mem granted
      if ret = 0 then return ⟨t, Function.update w.last key (some obj)⟩
      return ⟨t, w.last⟩
  | .remove key granted => do
      let t ← w.table.remove signed key granted
      return ⟨t, Function.update w.last key none⟩
  | .get key => do
      let _ ← w.table.get signed key
      return w
  | .findFree rangeStart rangeEnd => do
      let _ ← w.table.findFree signed rangeStart rangeEnd
      return w

namespace ChashCall

/-- `kmalloc` returns an address that is not in use, and a range is one of positive `int`s. -/
def Allowed (w : ChashRun) : ChashCall → Prop
  | .set _ _ mem _ => mem = 0 ∨ w.table.entries mem = none
  | .findFree rangeStart rangeEnd => rangeStart < 2 ^ 31 ∧ rangeEnd < 2 ^ 31
  | _ => True

instance (w : ChashRun) (call : ChashCall) : Decidable (call.Allowed w) := by
  cases call <;> unfold Allowed <;> infer_instance

/-- The key that a call changes. -/
def key : ChashCall → Option Nat
  | .set key _ _ _ => some key
  | .remove key _ => some key
  | _ => none

/-- The memory for the vectors is granted. -/
def Granted (signed : Bool) (w : ChashRun) : ChashCall → Prop
  | .set key _ _ granted => w.table.Grants signed key granted
  | .remove _ granted => granted = true
  | _ => True

end ChashCall

variable {signed : Bool} {t : Chash} {w u : ChashRun} {calls : List ChashCall}

/-- A call changes the map at its key only, or ends in an assertion because a vector was refused
memory. -/
theorem chashStep_spec (his : w.table.Is signed w.last) {call : ChashCall}
    (hallowed : call.Allowed w) :
    Settles .assertion (call.Granted signed w) (chashStep signed w call) fun u =>
      u.table.Is signed u.last ∧ ∀ key, call.key ≠ some key → u.last key = w.last key := by
  obtain ⟨ps, ok, hm⟩ := his
  cases call with
  | set key obj mem granted =>
      refine (ok.set hm hallowed key obj granted).bind ?_
      rintro ⟨ret, t⟩ (⟨heq, -⟩ | ⟨rfl, hnext⟩)
      · cases heq
        exact Settles.ok ⟨⟨ps, ok, hm⟩, fun _ _ => rfl⟩
      · refine Settles.ok ⟨hnext, fun key' hne => Function.update_of_ne ?_ _ _⟩
        exact fun heq => hne (congrArg some heq.symm)
  | remove key granted =>
      refine (ok.remove hm key granted).bind fun t hnext =>
        Settles.ok ⟨hnext, fun key' hne => Function.update_of_ne ?_ _ _⟩
      exact fun heq => hne (congrArg some heq.symm)
  | get key => exact Settles.bind_ok (ok.get hm key) (Settles.ok ⟨⟨ps, ok, hm⟩, fun _ _ => rfl⟩)
  | findFree rangeStart rangeEnd =>
      have hsame := Settles.ok (e := Failure.assertion)
        (g := ChashCall.Granted signed w (.findFree rangeStart rangeEnd))
        (Q := fun u : ChashRun => u.table.Is signed u.last ∧
          ∀ key, ChashCall.key (.findFree rangeStart rangeEnd) ≠ some key →
            u.last key = w.last key) (a := w) ⟨⟨ps, ok, hm⟩, fun _ _ => rfl⟩
      rcases ok.findFree hm hallowed.2 with ⟨k, hk, -⟩ | ⟨hnone, -⟩
      · exact Settles.bind_ok hk hsame
      · exact Settles.bind_ok hnone hsame

theorem chash_run_is {sz : Nat} {granted : Bool} (hpos : 0 < sz)
    (hinit : Chash.init sz granted = .ok t)
    (h : Run (chashStep signed) (fun w call => call.Allowed w) (.init t) calls w) :
    w.table.Is signed w.last :=
  h.invariant (I := fun w => w.table.Is signed w.last) (Chash.is_init hpos hinit)
    fun _ _ _ his hallowed hstep => ((chashStep_spec his hallowed).of_ok hstep).1

/-- The table is a finite map. `chash_get` returns the item of the last `chash_set` of the key that
returned 0, a call changes nothing for other keys, a bucket has one entry for a key, and
`chash_find_free` returns the least key of the range that has none. No call ends in a fault, and one
that gets the memory for its vector returns. -/
theorem chash_is_map {sz : Nat} {granted : Bool} (hpos : 0 < sz)
    (hinit : Chash.init sz granted = .ok t)
    (h : Run (chashStep signed) (fun w call => call.Allowed w) (.init t) calls w) :
    (∀ key, w.table.get signed key = .ok ((w.last key).getD 0)) ∧
      (∀ (call : ChashCall) (u : ChashRun), call.Allowed w → chashStep signed w call = .ok u →
        ∀ key, call.key ≠ some key → u.table.get signed key = w.table.get signed key) ∧
      (∀ (b : Nat) (v : Cvector Nat), w.table.table[b]? = some v →
        ∀ i j p q e e', i < v.count → j < v.count → v.get i = .ok p → v.get j = .ok q →
          w.table.entries p = some e → w.table.entries q = some e' → e.key = e'.key → i = j) ∧
      (∀ rangeStart rangeEnd : Nat, rangeStart < 2 ^ 31 → rangeEnd < 2 ^ 31 →
        (∃ k : Nat, w.table.findFree signed rangeStart rangeEnd = .ok (k : Int) ∧
            rangeStart ≤ k ∧ k < rangeEnd ∧ w.last k = none ∧
            ∀ j, rangeStart ≤ j → j < k → w.last j ≠ none) ∨
          w.table.findFree signed rangeStart rangeEnd = .ok (-1) ∧
            ∀ k, rangeStart ≤ k → k < rangeEnd → w.last k ≠ none) ∧
      ∀ call : ChashCall, call.Allowed w →
        chashStep signed w call ≠ .error .fault ∧
          (call.Granted signed w → ∃ u, chashStep signed w call = .ok u) := by
  have his := chash_run_is hpos hinit h
  obtain ⟨ps, ok, hm⟩ := chash_run_is hpos hinit h
  refine ⟨ok.get hm, fun call u hallowed hu key hkey => ?_, fun b v hv => ?_,
    fun rangeStart rangeEnd _ hend => ok.findFree hm hend, fun call hallowed => ?_⟩
  · obtain ⟨⟨ps', ok', hm'⟩, hsame⟩ := (chashStep_spec his hallowed).of_ok hu
    rw [ok'.get hm', ok.get hm, hsame key hkey]
  · have hheld := ok.held b v hv
    intro i j p q e e' hi hj hp hq he he' hkey
    rw [hheld.count] at hi hj
    rw [hheld.get hi] at hp
    rw [hheld.get hj] at hq
    cases hp
    cases hq
    have hsame := ok.eq_of_keyAt (List.getElem_mem hi) (List.getElem_mem hj)
      (by rw [Chash.keyAt_eq he, Chash.keyAt_eq he', hkey])
    exact (List.Nodup.of_map _ (ok.distinct b)).getElem_inj_iff.1 hsame
  · have hspec := chashStep_spec his hallowed
    refine ⟨hspec.ne_error (by decide), fun hgranted => ?_⟩
    obtain ⟨u, hu, -⟩ := hspec.exists_ok hgranted
    exact ⟨u, hu⟩

/-- Three keys are set, one of them again, and one is removed. -/
def collidingCalls : List ChashCall :=
  [.set 3 70 100 true, .set 4 80 200 true, .set 6 90 300 true, .set 3 71 400 true, .remove 4 true,
    .get 6, .findFree 3 7]

theorem chash_is_map_oneBucket :
    ∃ t w, Chash.init 1 true = .ok t ∧
      Run (chashStep true) (fun w call => call.Allowed w) (.init t) collidingCalls w ∧
      w.table.get true 3 = .ok 71 ∧ w.table.get true 4 = .ok 0 ∧ w.table.get true 6 = .ok 90 := by
  have hinit : Chash.init 1 true = .ok ⟨[Cvector.init], 1, fun _ => none⟩ := rfl
  obtain ⟨w, hrun, h3, h4, h6⟩ := Run.exists_of_exec
    (P := fun w : ChashRun => w.last 3 = some 71 ∧ w.last 4 = none ∧ w.last 6 = some 90)
    (show ((Run.exec (chashStep true) (fun w call => call.Allowed w) collidingCalls
      (.init ⟨[Cvector.init], 1, fun _ => none⟩)).any fun w =>
        w.last 3 = some 71 ∧ w.last 4 = none ∧ w.last 6 = some 90) = true by decide +kernel)
  have hget := (chash_is_map (by decide) hinit hrun).1
  refine ⟨_, w, hinit, hrun, ?_, ?_, ?_⟩
  · rw [hget, h3]
    rfl
  · rw [hget, h4]
    rfl
  · rw [hget, h6]
    rfl

/-- There is no memory for the entry of a key: after `chash_set` of an item, the item is null. -/
theorem chash_set_no_memory :
    ∃ t w, Chash.init 4 true = .ok t ∧
      Run (chashStep false) (fun w call => call.Allowed w) (.init t) [.set 7 5 0 true] w ∧
      w.table.get false 7 = .ok 0 :=
  ⟨_, _, rfl, .single (Or.inl rfl) rfl, rfl⟩

end PartitionSeL4.Refos
