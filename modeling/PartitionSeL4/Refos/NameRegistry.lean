import PartitionSeL4.Refos.Naming
import PartitionSeL4.Lib.Run

/-!
# The registration list over whole runs

`nameserv_add` replaces a registration by deleting the entry there was and creating a new one. The
list is compared with a map from names to endpoints, in which a registration takes the place of the
one before and a deletion leaves nothing.

`registry_right`: as long as no registration of a registered name runs out of memory, the list is
that map from the first call to the last. A path with a separator is then resolved by the map where
there is memory for the segment, and a registration that fails changes nothing. A registration that
runs out of memory has already deleted the entry of its name (`NameRegistry.add_nomem`).

Memory may be short at any allocation: for the entry and its name, for the path segment, and for the
vector of the entries. Where the vector cannot grow, `cvector_add` ends in an assertion. Where the
memory it shrinks to is refused, its data pointer is null from then on, and the next access to it is
a fault.
-/

namespace PartitionSeL4.Refos

open Lib

/-! ## The list and its vector -/

/-- The registration list. `lost` says that the data pointer of its vector is null although the
vector has a size. -/
structure NameRegistry where
  names : NameservState
  lost : Bool

/-- Which allocations of `nameserv_add` and `nameserv_delete` succeed, as far as they are made: the
entry and its name, the growth of the vector, and its shrinking. -/
structure RegistryMemory where
  entry : Bool
  grow : Bool
  shrink : Bool
  deriving DecidableEq, Repr

namespace NameRegistry

/-- `nameserv_init` -/
def init : NameRegistry where
  names := .init
  lost := false

/-- `nameserv_find_entry_index`, which does not touch the vector where the count is 0. -/
def findEntryIndex (n : NameRegistry) : Option (List UInt8) → Except Failure (Option Nat)
  | none => .ok none
  | some name =>
      if n.lost = true ∧ n.names.entries ≠ [] then .error .fault
      else .ok (n.names.findEntryIndex name)

/-- `nameserv_delete` -/
def delete (n : NameRegistry) (name : Option (List UInt8)) (memory : RegistryMemory) :
    Except Failure NameRegistry :=
  match name with
  | none => .ok n
  | some name => do
      match ← n.findEntryIndex (some name) with
      | none => return n
      | some _ => return { names := n.names.delete name, lost := !memory.shrink }

/-- `nameserv_add`. The deletion is part of `NameservState.add`. -/
def add (n : NameRegistry) (name : Option (List UInt8)) (anonEP : Nat) (memory : RegistryMemory) :
    Except Failure (Err × NameRegistry) :=
  match name with
  | none => .ok (.invalidParam, n)
  | some name =>
      if anonEP = 0 then .ok (.invalidParam, n)
      else do
        let deleted ← n.delete (some name) memory
        match n.names.add name anonEP memory.entry with
        | (.success, names) =>
            if deleted.lost = true then .error .fault
            else if memory.grow = false then .error .assertion
            else .ok (.success, { deleted with names := names })
        | (err, _) => .ok (err, deleted)

/-- `nameserv_resolve`. The length of a path is an `int`, and nothing is resolved where it is
negative. -/
def resolve (n : NameRegistry) (path : Option (List UInt8)) (malloc : Bool) :
    Except Failure (Int × Option Nat) :=
  match path with
  | none => .ok (0, none)
  | some path =>
      if 2 ^ 31 ≤ path.length then .ok (0, none)
      else if n.lost = true ∧ n.names.entries ≠ [] ∧ malloc = true ∧
          (scanSegment (skipSlash path)).2 = true then .error .fault
      else nameservResolve n.names (some path) malloc

end NameRegistry

/-! ## The map -/

/-- The endpoint of a name in a registration list. -/
def NameservState.lookup (n : NameservState) (name : List UInt8) : Option Nat :=
  (n.entries.find? fun entry => entry.name = name).map NameservEntry.anonEP

/-- A list and the registrations so far: for every name the one that was added last and has not been
deleted. -/
structure RegistryRun where
  registry : NameRegistry
  added : List UInt8 → Option Nat

inductive RegistryEvent where
  | add (name : Option (List UInt8)) (anonEP : Nat) (memory : RegistryMemory)
  | delete (name : Option (List UInt8)) (memory : RegistryMemory)
  | resolve (path : Option (List UInt8)) (malloc : Bool)
  deriving DecidableEq, Repr

/-- Nothing is registered. -/
def registryInit : RegistryRun where
  registry := .init
  added _ := none

/-- One call. A registration counts if it returns `ESUCCESS`. -/
def registryStep (x : RegistryRun) : RegistryEvent → Except Failure RegistryRun
  | .add name anonEP memory => do
      let (err, registry) ← x.registry.add name anonEP memory
      match err, name with
      | .success, some name =>
          return { registry := registry, added := Function.update x.added name (some anonEP) }
      | _, _ => return { x with registry := registry }
  | .delete name memory => do
      let registry ← x.registry.delete name memory
      match name with
      | some name => return { registry := registry, added := Function.update x.added name none }
      | none => return { x with registry := registry }
  | .resolve path malloc => do
      let _ ← x.registry.resolve path malloc
      return x

/-! ## The property and the condition -/

/-- What a path with a separator is resolved to: the endpoint of its first segment and the number of
bytes before the separator that ends it, or 0. One leading slash belongs to neither. -/
def ResolvesTo (added : List UInt8 → Option Nat) (path : List UInt8) (answer : Int × Option Nat) :
    Prop :=
  ∀ lead segment rest, lead = [slash] ∨ lead = [] ∧ segment ≠ [] → slash ∉ segment →
    path = lead ++ segment ++ slash :: rest →
      answer = match added segment with
        | some anonEP => (((lead ++ segment).length : Nat), some anonEP)
        | none => (0, none)

/-- What one call does: a registration that fails changes nothing, and a path is resolved by what
was added, if there is memory for its segment, and otherwise not at all. -/
def RegistryRun.CallRight (x : RegistryRun) : RegistryEvent → Prop
  | .add name anonEP memory => ∀ err registry,
      x.registry.add name anonEP memory = .ok (err, registry) → err ≠ .success →
        registry = x.registry
  | .delete _ _ => True
  | .resolve path malloc => ∀ answer, x.registry.resolve path malloc = .ok answer →
      (malloc = false → answer = (0, none)) ∧
        ∀ bytes, path = some bytes → bytes.length < 2 ^ 31 → malloc = true →
          ResolvesTo x.added bytes answer

/-- A registration that runs out of memory is not of a registered name. -/
def RegistryRun.ReplacesWithMemory (x : RegistryRun) : RegistryEvent → Prop
  | .add (some name) anonEP memory =>
      anonEP ≠ 0 → memory.entry = false → ∀ entry ∈ x.registry.names.entries, entry.name ≠ name
  | .add none _ _ | .delete _ _ | .resolve _ _ => True

instance (x : RegistryRun) : (e : RegistryEvent) → Decidable (x.ReplacesWithMemory e)
  | .add (some _) _ _ => inferInstanceAs (Decidable (_ → _ → _))
  | .add none _ _ | .delete _ _ | .resolve _ _ => inferInstanceAs (Decidable True)

/-! ## The list as a map -/

theorem scanSegment_append {segment : List UInt8} (rest : List UInt8) (hslash : slash ∉ segment) :
    scanSegment (segment ++ slash :: rest) = (segment, true) := by
  induction segment with
  | nil => rw [List.nil_append, scanSegment, if_pos rfl]
  | cons c segment ih =>
      rw [List.mem_cons, not_or] at hslash
      rw [List.cons_append, scanSegment, if_neg (Ne.symm hslash.1), ih hslash.2]

namespace NameservState

variable {n : NameservState} {name key : List UInt8} {anonEP : Nat}

theorem lookup_eq_none : n.lookup name = none ↔ ∀ entry ∈ n.entries, entry.name ≠ name := by
  simp [lookup]

/-- The index of a name leads to the entry that the map gives. -/
theorem findEntryIndex_cases (n : NameservState) (name : List UInt8) :
    n.findEntryIndex name = none ∧ n.lookup name = none ∨
      ∃ idx entry, n.findEntryIndex name = some idx ∧ n.entries[idx]? = some entry ∧
        entry.name = name ∧ n.lookup name = some entry.anonEP := by
  cases hidx : n.findEntryIndex name with
  | none =>
      refine Or.inl ⟨rfl, lookup_eq_none.2 fun entry hentry hname => ?_⟩
      have := List.findIdx?_eq_none_iff.1 hidx entry hentry
      simp [hname] at this
  | some idx =>
      obtain ⟨hlt, hname, hbefore⟩ := List.findIdx?_eq_some_iff_getElem.1 hidx
      refine Or.inr ⟨idx, n.entries[idx], rfl, List.getElem?_eq_getElem hlt,
        of_decide_eq_true hname, ?_⟩
      have hfind : n.entries.find? (fun entry => entry.name = name) = some n.entries[idx] :=
        List.find?_eq_some_iff_getElem.2
          ⟨hname, idx, hlt, rfl, fun j hj => by simpa using hbefore j hj⟩
      rw [lookup, hfind]
      rfl

theorem lookup_delete (n : NameservState) (name : List UInt8) :
    (n.delete name).lookup = Function.update n.lookup name none := by
  funext key
  by_cases hkey : key = name
  · subst hkey
    rw [Function.update_self, lookup_eq_none]
    exact n.not_mem_delete key
  rw [Function.update_of_ne hkey]
  obtain ⟨hidx, _⟩ | ⟨idx, entry, hidx, hentry, hname, _⟩ := n.findEntryIndex_cases name
  · rw [delete, hidx]
  · obtain ⟨hlt, rfl⟩ := List.getElem?_eq_some_iff.1 hentry
    have hsplit : n.entries = n.entries.take idx ++ n.entries[idx] :: n.entries.drop (idx + 1) := by
      rw [← List.drop_eq_getElem_cons hlt, List.take_append_drop]
    have hother : decide (n.entries[idx].name = key) = false := by
      simp [hname, Ne.symm hkey]
    rw [delete, hidx, lookup, lookup]
    dsimp only
    conv_rhs => rw [hsplit]
    simp only [List.eraseIdx_eq_take_drop_succ, List.find?_append, List.find?_cons, hother]

/-- What `nameserv_add` returns, and the map then. -/
theorem add_cases (n : NameservState) (name : List UInt8) (hanonEP : anonEP ≠ 0) (malloc : Bool) :
    (n.add name anonEP malloc).1 = .nomem ∧ (malloc = false ∨ name = []) ∨
      (n.add name anonEP malloc).1 = .success ∧
        (n.add name anonEP malloc).2.lookup = Function.update n.lookup name (some anonEP) := by
  rw [add, if_neg hanonEP]
  split
  · rename_i hcreate
    refine Or.inl ⟨rfl, ?_⟩
    simp only [nameservCreateEntry] at hcreate
    split_ifs at hcreate with hmake
    by_contra hnot
    obtain ⟨hmalloc, hne⟩ := not_or.1 hnot
    exact hmake ⟨hne, hanonEP, Bool.not_eq_false _ ▸ hmalloc⟩
  · rename_i entry hcreate
    refine Or.inr ⟨rfl, ?_⟩
    have hentry : entry.name = name ∧ entry.anonEP = anonEP := by
      simp only [nameservCreateEntry] at hcreate
      split_ifs at hcreate
      obtain rfl := Option.some.inj hcreate
      exact ⟨rfl, rfl⟩
    obtain ⟨hname, rfl⟩ := hentry
    have hnone := lookup_eq_none.2 (n.not_mem_delete name)
    funext key
    have hdelete := congrFun (lookup_delete n name) key
    show ((((n.delete name).entries ++ [entry]).find? fun entry => entry.name = key).map
      NameservEntry.anonEP) = _
    by_cases hkey : key = name
    · subst hkey
      rw [lookup, Option.map_eq_none_iff] at hnone
      rw [Function.update_self, List.find?_append, hnone]
      simp [hname]
    · rw [Function.update_of_ne hkey, lookup] at hdelete
      rw [Function.update_of_ne hkey, ← hdelete, List.find?_append]
      simp [hname, Ne.symm hkey]

theorem resolve_without_memory (n : NameservState) (path : List UInt8) :
    nameservResolve n (some path) false = .ok (0, none) := by
  by_cases hne : path = []
  · exact if_pos hne
  · exact (if_neg hne).trans (if_pos rfl)

theorem resolve_eq (n : NameservState) {path lead segment rest : List UInt8}
    (hlead : lead = [slash] ∨ lead = [] ∧ segment ≠ []) (hslash : slash ∉ segment)
    (hpath : path = lead ++ segment ++ slash :: rest) :
    nameservResolve n (some path) true = .ok (match n.lookup segment with
      | some anonEP => (((lead ++ segment).length : Nat), some anonEP)
      | none => (0, none)) := by
  have hne : path ≠ [] := by
    rw [hpath]
    exact List.append_ne_nil_of_right_ne_nil _ (List.cons_ne_nil _ _)
  have hskip : skipSlash path = segment ++ slash :: rest := by
    obtain rfl | ⟨rfl, hsegment⟩ := hlead
    · rw [hpath, List.append_assoc, List.singleton_append, skipSlash, if_pos rfl]
    · obtain ⟨c, cs, rfl⟩ := List.exists_cons_of_ne_nil hsegment
      have hc : c ≠ slash := fun h => hslash (h ▸ List.mem_cons_self)
      rw [hpath, List.nil_append, List.cons_append, skipSlash, if_neg hc]
  have hlen : path.length - (segment ++ slash :: rest).length = lead.length := by
    rw [hpath]
    simp only [List.length_append, List.length_cons]
    omega
  simp only [nameservResolve, if_neg hne, Bool.true_eq_false, if_false, hskip, hlen,
    scanSegment_append rest hslash]
  obtain ⟨hidx, hlookup⟩ | ⟨idx, entry, hidx, hentry, _, hlookup⟩ := n.findEntryIndex_cases segment
  · rw [hidx, hlookup]
  · have hinside : ¬path.length ≤ lead.length + segment.length := by
      rw [hpath]
      simp only [List.length_append, List.length_cons]
      omega
    simp only [hidx, hlookup, hentry, if_neg hinside, List.length_append]

end NameservState

/-! ## One call -/

namespace NameRegistry

variable {n n' : NameRegistry} {name : List UInt8} {anonEP : Nat} {memory : RegistryMemory}

theorem of_delete (h : n.delete (some name) memory = .ok n') :
    n'.names.lookup = Function.update n.names.lookup name none ∧
      (n.names.lookup name = none → n' = n) := by
  obtain ⟨found, hfind, hrest⟩ := bind_eq_ok_iff.1 h
  rw [findEntryIndex] at hfind
  split_ifs at hfind
  obtain rfl := Except.ok.inj hfind
  obtain ⟨hidx, hlookup⟩ | ⟨idx, entry, hidx, _, _, hlookup⟩ := n.names.findEntryIndex_cases name
  · rw [hidx] at hrest
    obtain rfl := Except.ok.inj hrest
    refine ⟨?_, fun _ => rfl⟩
    rw [← hlookup, Function.update_eq_self]
  · rw [hidx] at hrest
    obtain rfl := Except.ok.inj hrest
    refine ⟨n.names.lookup_delete name, fun hnone => ?_⟩
    rw [hlookup] at hnone
    cases hnone

/-- A registration is refused, it runs out of memory after the deletion, or it is made. -/
theorem add_cases {err : Err} (h : n.add (some name) anonEP memory = .ok (err, n')) :
    anonEP = 0 ∧ err = .invalidParam ∧ n' = n ∨
      anonEP ≠ 0 ∧ err = .nomem ∧ (memory.entry = false ∨ name = []) ∧
        n.delete (some name) memory = .ok n' ∨
      err = .success ∧ n'.names.lookup = Function.update n.names.lookup name (some anonEP) := by
  rw [add] at h
  by_cases hzero : anonEP = 0
  · rw [if_pos hzero] at h
    obtain ⟨rfl, rfl⟩ := Prod.mk.inj (Except.ok.inj h)
    exact Or.inl ⟨hzero, rfl, rfl⟩
  rw [if_neg hzero] at h
  obtain ⟨deleted, hdelete, hrest⟩ := bind_eq_ok_iff.1 h
  obtain ⟨herr, hmemory⟩ | ⟨herr, hlookup⟩ := n.names.add_cases name hzero memory.entry
  · cases hadd : n.names.add name anonEP memory.entry with
    | mk err' names =>
        rw [hadd] at herr hrest
        obtain rfl := herr
        obtain ⟨rfl, rfl⟩ := Prod.mk.inj (Except.ok.inj hrest)
        exact Or.inr (Or.inl ⟨hzero, rfl, hmemory, hdelete⟩)
  · cases hadd : n.names.add name anonEP memory.entry with
    | mk err' names =>
        rw [hadd] at herr hrest hlookup
        obtain rfl := herr
        dsimp only at hrest
        split_ifs at hrest
        obtain ⟨rfl, rfl⟩ := Prod.mk.inj (Except.ok.inj hrest)
        exact Or.inr (Or.inr ⟨rfl, hlookup⟩)

/-- A registration that runs out of memory leaves nothing under its name: the entry there was is
lost. -/
theorem add_nomem (h : n.add (some name) anonEP memory = .ok (.nomem, n')) :
    n'.names.lookup = Function.update n.names.lookup name none := by
  obtain ⟨-, herr, -⟩ | ⟨-, -, -, hdelete⟩ | ⟨herr, -⟩ := add_cases h
  · cases herr
  · exact (of_delete hdelete).1
  · cases herr

theorem exists_delete (n : NameRegistry) (name : Option (List UInt8)) (hlost : n.lost = false)
    (hshrink : memory.shrink = true) :
    ∃ n', n.delete name memory = .ok n' ∧ n'.lost = false := by
  cases name with
  | none => exact ⟨n, rfl, hlost⟩
  | some name =>
      have hfind : n.findEntryIndex (some name) = .ok (n.names.findEntryIndex name) :=
        if_neg (by simp [hlost])
      rw [delete, hfind]
      cases n.names.findEntryIndex name with
      | none => exact ⟨n, rfl, hlost⟩
      | some idx => exact ⟨_, rfl, congrArg Bool.not hshrink⟩

theorem exists_add (n : NameRegistry) (name : Option (List UInt8)) (anonEP : Nat)
    (hlost : n.lost = false) (hgrow : memory.grow = true) (hshrink : memory.shrink = true) :
    ∃ err n', n.add name anonEP memory = .ok (err, n') ∧ n'.lost = false := by
  cases name with
  | none => exact ⟨_, n, rfl, hlost⟩
  | some name =>
      rw [add]
      by_cases hzero : anonEP = 0
      · exact ⟨_, n, if_pos hzero, hlost⟩
      obtain ⟨deleted, hdelete, hkept⟩ := n.exists_delete (some name) hlost hshrink
      rw [if_neg hzero, hdelete]
      cases hadd : n.names.add name anonEP memory.entry with
      | mk err names =>
          cases err with
          | success =>
              refine ⟨.success, { deleted with names := names }, ?_, hkept⟩
              simp [bind, Except.bind, hkept, hgrow]
          | _ => exact ⟨_, deleted, rfl, hkept⟩

theorem exists_resolve (n : NameRegistry) (path : Option (List UInt8)) (malloc : Bool)
    (hlost : n.lost = false) : ∃ answer, n.resolve path malloc = .ok answer := by
  cases path with
  | none => exact ⟨_, rfl⟩
  | some path =>
      rw [resolve]
      by_cases hlong : 2 ^ 31 ≤ path.length
      · exact ⟨_, if_pos hlong⟩
      rw [if_neg hlong, if_neg (by simp [hlost])]
      by_cases hne : path = []
      · exact ⟨_, if_pos hne⟩
      obtain ⟨_, _, hr⟩ | ⟨_, hr⟩ | ⟨_, _, _, _, _, _, _, _, hr⟩ :=
        nameservResolve_cases n.names hne malloc
      all_goals exact ⟨_, hr⟩

theorem lookup_nil (n : NameRegistry) : n.names.lookup [] = none :=
  NameservState.lookup_eq_none.2 fun entry _ => entry.name_ne

end NameRegistry

namespace RegistryRun

/-- The list is the map. -/
def Ok (x : RegistryRun) : Prop := x.added = x.registry.names.lookup

variable {x y : RegistryRun}

theorem Ok.init : registryInit.Ok := rfl

/-- A registration that fails with enough memory for what it replaces changes nothing. -/
theorem add_unchanged {name : Option (List UInt8)} {anonEP : Nat} {memory : RegistryMemory}
    {err : Err} {registry : NameRegistry} (hmemory : x.ReplacesWithMemory (.add name anonEP memory))
    (hadd : x.registry.add name anonEP memory = .ok (err, registry)) (herr : err ≠ .success) :
    registry = x.registry := by
  cases name with
  | none => exact (Prod.mk.inj (Except.ok.inj hadd)).2.symm
  | some name =>
      obtain ⟨_, _, hsame⟩ | ⟨hne, _, hshort, hdelete⟩ | ⟨hsuccess, _⟩ :=
        NameRegistry.add_cases hadd
      · exact hsame
      · apply (NameRegistry.of_delete hdelete).2
        rcases hshort with hshort | rfl
        · exact NameservState.lookup_eq_none.2 (hmemory hne hshort)
        · exact x.registry.lookup_nil
      · exact absurd hsuccess herr

theorem Ok.resolve (h : x.Ok) {path : Option (List UInt8)} {malloc : Bool}
    {answer : Int × Option Nat} (hresolve : x.registry.resolve path malloc = .ok answer) :
    (malloc = false → answer = (0, none)) ∧
      ∀ bytes, path = some bytes → bytes.length < 2 ^ 31 → malloc = true →
        ResolvesTo x.added bytes answer := by
  cases path with
  | none =>
      refine ⟨fun _ => (Except.ok.inj hresolve).symm, fun bytes hbytes => ?_⟩
      cases hbytes
  | some path =>
      rw [NameRegistry.resolve] at hresolve
      by_cases hlong : 2 ^ 31 ≤ path.length
      · rw [if_pos hlong] at hresolve
        refine ⟨fun _ => (Except.ok.inj hresolve).symm, fun bytes hbytes hshort => ?_⟩
        obtain rfl := Option.some.inj hbytes
        exact absurd hshort (Nat.not_lt.2 hlong)
      rw [if_neg hlong] at hresolve
      split_ifs at hresolve
      constructor
      · rintro rfl
        rw [NameservState.resolve_without_memory] at hresolve
        exact (Except.ok.inj hresolve).symm
      · rintro bytes hbytes _ rfl lead segment rest hlead hslash hpath
        obtain rfl := Option.some.inj hbytes
        rw [NameservState.resolve_eq _ hlead hslash hpath] at hresolve
        rw [h]
        exact (Except.ok.inj hresolve).symm

/-- One call keeps the list and the map the same, and it does what it should. -/
theorem Ok.step (h : x.Ok) {e : RegistryEvent} (hmemory : x.ReplacesWithMemory e)
    (hy : registryStep x e = .ok y) : y.Ok ∧ x.CallRight e := by
  cases e with
  | add name anonEP memory =>
      refine ⟨?_, fun err registry hadd herr => add_unchanged hmemory hadd herr⟩
      obtain ⟨⟨err, registry⟩, hadd, hret⟩ := bind_eq_ok_iff.1 hy
      by_cases hsuccess : err = .success
      · subst hsuccess
        cases name with
        | none => cases (Prod.mk.inj (Except.ok.inj hadd)).1
        | some name =>
            obtain rfl := Except.ok.inj hret
            obtain ⟨_, herr, _⟩ | ⟨_, herr, _⟩ | ⟨_, hlookup⟩ := NameRegistry.add_cases hadd
            · cases herr
            · cases herr
            · show Function.update x.added name (some anonEP) = _
              rw [hlookup, h]
      · obtain rfl := add_unchanged hmemory hadd hsuccess
        have hsame : y = x := by
          cases err with
          | success => exact absurd rfl hsuccess
          | _ => exact (Except.ok.inj hret).symm
        exact hsame ▸ h
  | delete name memory =>
      refine ⟨?_, trivial⟩
      obtain ⟨registry, hdelete, hret⟩ := bind_eq_ok_iff.1 hy
      cases name with
      | none =>
          obtain rfl := Except.ok.inj hdelete
          obtain rfl := Except.ok.inj hret
          exact h
      | some name =>
          obtain rfl := Except.ok.inj hret
          show Function.update x.added name none = _
          rw [(NameRegistry.of_delete hdelete).1, h]
  | resolve path malloc =>
      obtain ⟨answer, _, hret⟩ := bind_eq_ok_iff.1 hy
      obtain rfl := Except.ok.inj hret
      exact ⟨h, fun answer hresolve => h.resolve hresolve⟩

/-- The memory of the vector is there whenever it is asked for. -/
def KeepsVector : RegistryEvent → Prop
  | .add _ _ memory => memory.grow = true ∧ memory.shrink = true
  | .delete _ memory => memory.shrink = true
  | .resolve _ _ => True

/-- Where the vector has its memory, every call returns. -/
theorem exists_step {e : RegistryEvent} (hlost : x.registry.lost = false) (he : KeepsVector e) :
    ∃ y, registryStep x e = .ok y ∧ y.registry.lost = false := by
  cases e with
  | add name anonEP memory =>
      obtain ⟨err, registry, hadd, hkept⟩ := x.registry.exists_add name anonEP hlost he.1 he.2
      cases err with
      | success =>
          cases name with
          | none => exact ⟨_, by rw [registryStep, hadd]; rfl, hkept⟩
          | some name => exact ⟨_, by rw [registryStep, hadd]; rfl, hkept⟩
      | _ => exact ⟨_, by rw [registryStep, hadd]; rfl, hkept⟩
  | delete name memory =>
      obtain ⟨registry, hdelete, hkept⟩ := x.registry.exists_delete name hlost he
      cases name with
      | none => exact ⟨_, by rw [registryStep, hdelete]; rfl, hkept⟩
      | some name => exact ⟨_, by rw [registryStep, hdelete]; rfl, hkept⟩
  | resolve path malloc =>
      obtain ⟨answer, hresolve⟩ := x.registry.exists_resolve path malloc hlost
      exact ⟨x, by rw [registryStep, hresolve]; rfl, hlost⟩

end RegistryRun

/-! ## Every run -/

theorem registry_run_exists {evs : List RegistryEvent}
    (hvector : ∀ e ∈ evs, RegistryRun.KeepsVector e) :
    ∃ x, Run registryStep (fun _ e => RegistryRun.KeepsVector e) registryInit evs x ∧
      x.registry.lost = false :=
  Run.exists_of_progress rfl (fun _ e _ he => hvector e he) fun _ _ hlost he =>
    RegistryRun.exists_step hlost he

/-- **The registration list is a map.** In every run in which no registration of a registered name
runs out of memory: the registered names are distinct and not empty, a path with a separator is
resolved by the registration of its first segment if there is memory for the segment, and otherwise
not at all, and a registration that fails leaves the list as it was. -/
theorem registry_right {evs : List RegistryEvent} {x : RegistryRun}
    (hrun : Run registryStep RegistryRun.ReplacesWithMemory registryInit evs x) :
    Steps registryStep (fun x e y => x.CallRight e ∧
      (y.registry.names.entries.map NameservEntry.name).Nodup ∧
      ∀ entry ∈ y.registry.names.entries, entry.name ≠ []) evs registryInit :=
  (hrun.steps_invariant RegistryRun.Ok.init fun _ _ _ hok hmemory hy =>
    ⟨(hok.step hmemory hy).1, (hok.step hmemory hy).2, NameservState.nodup _,
      fun entry _ => entry.name_ne⟩).2

/-- All allocations succeed. -/
def RegistryMemory.enough : RegistryMemory := ⟨true, true, true⟩

/-- Two servers, one of them replaced and one deleted, and a registration that fails. -/
theorem registry_right_replaced :
    ∃ x, Run registryStep RegistryRun.ReplacesWithMemory registryInit
        [.add (some [97]) 5 .enough, .add (some [98]) 6 .enough, .add (some [97]) 7 .enough,
          .add (some [99]) 8 ⟨false, true, true⟩, .delete (some [98]) .enough,
          .resolve (some [47, 97, 47]) true] x ∧ x.added [97] = some 7 ∧
      Steps registryStep (fun x e y => x.CallRight e ∧
          (y.registry.names.entries.map NameservEntry.name).Nodup ∧
          ∀ entry ∈ y.registry.names.entries, entry.name ≠ [])
        [.add (some [97]) 5 .enough, .add (some [98]) 6 .enough, .add (some [97]) 7 .enough,
          .add (some [99]) 8 ⟨false, true, true⟩, .delete (some [98]) .enough,
          .resolve (some [47, 97, 47]) true] registryInit := by
  obtain ⟨x, hrun, hadded⟩ : ∃ x, Run registryStep RegistryRun.ReplacesWithMemory registryInit
      [.add (some [97]) 5 .enough, .add (some [98]) 6 .enough, .add (some [97]) 7 .enough,
        .add (some [99]) 8 ⟨false, true, true⟩, .delete (some [98]) .enough,
        .resolve (some [47, 97, 47]) true] x ∧ x.added [97] = some 7 := by
    apply Run.exists_of_exec
    decide
  exact ⟨x, hrun, hadded, registry_right hrun⟩

/-- The server `a` is registered. Without memory for the segment, `a/b` is not resolved; and without
memory for the entry, a registration fails after the one there was has been deleted. -/
theorem registry_short_of_memory :
    ∃ x, Run registryStep (fun _ _ => True) registryInit [.add (some [97]) 5 .enough] x ∧
      (∃ answer, x.registry.resolve (some [97, 47, 98]) false = .ok answer ∧
        ¬ResolvesTo x.added [97, 47, 98] answer) ∧
      ∃ registry, x.registry.add (some [97]) 6 ⟨false, true, true⟩ = .ok (.nomem, registry) ∧
        registry.names.lookup [97] = none ∧ x.registry.names.lookup [97] = some 5 := by
  obtain ⟨x, hrun, hadded, hresolve, hadd⟩ :
      ∃ x, Run registryStep (fun _ _ => True) registryInit [.add (some [97]) 5 .enough] x ∧
        x.added [97] = some 5 ∧
        (x.registry.resolve (some [97, 47, 98]) false).toOption = some (0, none) ∧
        ((x.registry.add (some [97]) 6 ⟨false, true, true⟩).toOption.any fun r =>
          r.1 = .nomem ∧ r.2.names.lookup [97] = none ∧
            x.registry.names.lookup [97] = some 5) = true := by
    apply Run.exists_of_exec
    decide
  refine ⟨x, hrun, ⟨_, eq_ok_of_toOption hresolve, fun hto => ?_⟩, ?_⟩
  · have heq := hto [] [97] [98] (Or.inr ⟨rfl, by decide⟩) (by decide) rfl
    rw [hadded] at heq
    cases heq
  · obtain ⟨⟨err, registry⟩, hr, hP⟩ := (Option.any_eq_true _ _).1 hadd
    obtain ⟨rfl, hnone, hsome⟩ := of_decide_eq_true hP
    exact ⟨registry, eq_ok_of_toOption hr, hnone, hsome⟩

end PartitionSeL4.Refos
