import PartitionSeL4.Refos.Dataspace
import Mathlib.Data.List.Nodup

/-!
# Name servers

Naming is distributed: a name server resolves one segment of a path and answers with the endpoint of
the server registered under it, and with the number of bytes that are resolved. The client asks the
next server for the rest of the path, until nothing is left to resolve. Client and server take the
path apart separately, and each skips one leading slash.

`name_resolution` says that they agree on what a resolved path is, as long as the server has memory
for its copy of the segment; that the client always comes to an end; and that what it then has is a
division of the path in two, whose first part leads from the root to the server.

A string is the list of its characters before the zero. An endpoint is the number of its server, in
every cspace.
-/

namespace PartitionSeL4.Refos

/-! ## The registration list -/

/-- `struct nameserv_entry`, as `nameserv_create_entry` makes it. -/
structure NameservEntry where
  name : List UInt8
  anonEP : Nat
  name_ne : name ≠ []
  anonEP_ne : anonEP ≠ 0

/-- `nameserv_create_entry` -/
def nameservCreateEntry (name : List UInt8) (anonEP : Nat) (malloc : Bool) : Option NameservEntry :=
  if h : name ≠ [] ∧ anonEP ≠ 0 ∧ malloc = true then some ⟨name, anonEP, h.1, h.2.1⟩ else none

/-- `nameserv_state_t`. There is one entry for a name. -/
structure NameservState where
  entries : List NameservEntry
  nodup : (entries.map NameservEntry.name).Nodup

namespace NameservState

/-- `nameserv_init` -/
def init : NameservState where
  entries := []
  nodup := List.nodup_nil

/-- `nameserv_find_entry_index` -/
def findEntryIndex (n : NameservState) (name : List UInt8) : Option Nat :=
  n.entries.findIdx? fun entry => entry.name = name

/-- `nameserv_delete` -/
def delete (n : NameservState) (name : List UInt8) : NameservState :=
  match n.findEntryIndex name with
  | none => n
  | some idx =>
      { entries := n.entries.eraseIdx idx
        nodup := n.nodup.sublist ((List.eraseIdx_sublist _ _).map _) }

theorem not_mem_delete (n : NameservState) (name : List UInt8) :
    ∀ entry ∈ (n.delete name).entries, entry.name ≠ name := by
  intro entry hentry hname
  cases hidx : n.findEntryIndex name with
  | none =>
      rw [delete, hidx] at hentry
      have := List.findIdx?_eq_none_iff.1 hidx entry hentry
      simp [hname] at this
  | some idx =>
      rw [delete, hidx] at hentry
      obtain ⟨hlt, heq, _⟩ := List.findIdx?_eq_some_iff_getElem.1 hidx
      obtain ⟨j, hj, hne, rfl⟩ := List.mem_eraseIdx_iff_getElem.1 hentry
      have hj' : j < (n.entries.map NameservEntry.name).length := by simpa
      have hidx' : idx < (n.entries.map NameservEntry.name).length := by simpa
      have hsame : (n.entries.map NameservEntry.name)[j] =
          (n.entries.map NameservEntry.name)[idx] := by
        rw [List.getElem_map, List.getElem_map, hname, of_decide_eq_true heq]
      exact hne (n.nodup.getElem_inj_iff.1 hsame)

/-- `nameserv_add`, which first deletes the entry there was. -/
def add (n : NameservState) (name : List UInt8) (anonEP : Nat) (malloc : Bool) :
    Err × NameservState :=
  if anonEP = 0 then (.invalidParam, n)
  else
    match h : nameservCreateEntry name anonEP malloc with
    | none => (.nomem, n.delete name)
    | some entry =>
        (.success,
          { entries := (n.delete name).entries ++ [entry]
            nodup := by
              have hentry : entry.name = name := by
                simp only [nameservCreateEntry] at h
                split_ifs at h
                rw [← Option.some.inj h]
              rw [List.map_append, List.map_singleton, hentry]
              refine (n.delete name).nodup.append (List.nodup_singleton _) ?_
              rw [List.disjoint_singleton]
              rintro hmem
              obtain ⟨other, hother, hsame⟩ := List.mem_map.1 hmem
              exact n.not_mem_delete name other hother hsame })

end NameservState

/-! ## Paths -/

/-- `'/'` -/
def slash : UInt8 := 47

/-- One leading slash is ignored. -/
def skipSlash : List UInt8 → List UInt8
  | [] => []
  | c :: path => if c = slash then path else c :: path

/-- The loop of `nameserv_resolve`: the next segment, and whether a slash follows it. -/
def scanSegment : List UInt8 → List UInt8 × Bool
  | [] => ([], false)
  | c :: path => if c = slash then ([], true) else (c :: (scanSegment path).1, (scanSegment path).2)

/-- `REFOS_NAMESERV_RESOLVED`, and `NAMESERV_RESOLVED` -/
def nameservResolved : Int := -1

/-- `nameserv_resolve`: the number of bytes, and the endpoint in `outAnonCap` if it is set. -/
def nameservResolve (n : NameservState) (path : Option (List UInt8)) (malloc : Bool) :
    Except Failure (Int × Option Nat) :=
  match path with
  | none => .ok (0, none)
  | some path =>
      if path = [] then .ok (0, none)
      else if malloc = false then .ok (0, none)
      else
        let rest := skipSlash path
        let segment := scanSegment rest
        if segment.2 = false then .ok (nameservResolved, none)
        else
          match n.findEntryIndex segment.1 with
          | none => .ok (0, none)
          | some idx =>
              match n.entries[idx]? with
              | none => .error .assertion
              | some entry =>
                  let offset := path.length - rest.length + segment.1.length
                  if path.length ≤ offset then .error .assertion
                  else .ok (offset, some entry.anonEP)

/-- `nsv_check_path_resolved` -/
def nsvCheckPathResolved : Option (List UInt8) → Bool
  | none => false
  | some path => (skipSlash path).all fun c => c ≠ slash

/-! ## The client -/

/-- `REFOS_NAMESERV_EP` -/
def refosNameservEp : Nat := 3

/-- `NAMESERV_PATH_MAXLEN` -/
def nameservPathMaxlen : Nat := 512

/-- `nsv_mountpoint_t`. The two buffers are given by what was copied into them. -/
structure NsvMountpoint where
  success : Bool
  serverAnon : Nat
  dspaceName : List UInt8
  nameservRoot : Nat
  nameservPathPrefix : List UInt8
  deriving DecidableEq, Repr

/-- What `memset` leaves. -/
def NsvMountpoint.empty : NsvMountpoint where
  success := false
  serverAnon := 0
  dspaceName := []
  nameservRoot := 0
  nameservPathPrefix := []

/-- The error numbers that `nsv_resolve` sets. -/
inductive NsvErrno where
  | success
  | invalidParam
  | serverNotFound
  deriving DecidableEq, Repr

/-- The name servers, by their endpoints. -/
abbrev NameServers := Nat → NameservState

/-- `nsv_resolve_segment`: the call is served by `nsv_resolve_segment_internal_handler`, with or
without memory. -/
def nsvResolveSegment (servers : NameServers) (memory : List UInt8 → Bool) (nameserv : Nat)
    (path : List UInt8) : Except Failure (Int × Option Nat) :=
  nameservResolve (servers nameserv) (some path) (memory path)

/-- The leaf of the path is reached. Copying a string that is too long runs past the buffer. -/
def nsvLeaf (path cpath : List UInt8) (nameServer : Nat) :
    Except Failure (NsvErrno × NsvMountpoint) :=
  let pathPrefix := path.take (path.length - cpath.length)
  if nameservPathMaxlen ≤ cpath.length ∨ nameservPathMaxlen < pathPrefix.length then .error .fault
  else .ok (.success, { success := true, serverAnon := nameServer, dspaceName := cpath,
                        nameservRoot := refosNameservEp, nameservPathPrefix := pathPrefix })

/-- The loop of `nsv_resolve`; `none` means that it is still running. The endpoint that the server
answers with is looked at only if some bytes are resolved. -/
def nsvLoop (servers : NameServers) (memory : List UInt8 → Bool) (path : List UInt8) :
    Nat → List UInt8 → Nat → Option (Except Failure (NsvErrno × NsvMountpoint))
  | 0, _, _ => none
  | fuel + 1, cpath, nameServer =>
      if nsvCheckPathResolved (some cpath) then some (nsvLeaf path cpath nameServer)
      else
        match nsvResolveSegment servers memory nameServer cpath with
        | .error f => some (.error f)
        | .ok (resolvedBytes, nextNameServer) =>
            if resolvedBytes = nameservResolved then some (nsvLeaf path cpath nameServer)
            else if resolvedBytes = 0 then some (.ok (.serverNotFound, .empty))
            else
              match nextNameServer with
              | none | some 0 => some (.error .assertion)
              | some next =>
                  nsvLoop servers memory path fuel (skipSlash (cpath.drop resolvedBytes.toNat)) next

/-- `nsv_resolve`, for as many rounds of its loop -/
def nsvResolve (servers : NameServers) (memory : List UInt8 → Bool) (fuel : Nat) :
    Option (List UInt8) → Option (Except Failure (NsvErrno × NsvMountpoint))
  | none => some (.ok (.invalidParam, .empty))
  | some path => nsvLoop servers memory path fuel path refosNameservEp

/-! ## What a path means -/

/-- The parts of a path between its slashes. -/
def components (path : List UInt8) : List (List UInt8) :=
  (path.splitOn slash).filter fun segment => segment ≠ []

/-- The entries registered under the segments lead from one server to another. -/
inductive NameServers.Follow (servers : NameServers) : Nat → List (List UInt8) → Nat → Prop
  | here (s : Nat) : Follow servers s [] s
  | next {s t : Nat} {segments : List (List UInt8)} (entry : NameservEntry)
      (registered : entry ∈ (servers s).entries) (rest : Follow servers entry.anonEP segments t) :
      Follow servers s (entry.name :: segments) t

theorem NameServers.Follow.snoc {servers : NameServers} {s t : Nat} {segments : List (List UInt8)}
    (h : servers.Follow s segments t) {entry : NameservEntry}
    (hentry : entry ∈ (servers t).entries) :
    servers.Follow s (segments ++ [entry.name]) entry.anonEP := by
  induction h with
  | here s => exact .next entry hentry (.here _)
  | next first registered _ ih => exact .next first registered (ih hentry)

theorem components_append (xs ys : List UInt8) :
    components (xs ++ slash :: ys) = components xs ++ components ys := by
  rw [components, List.splitOn_append_cons_self, List.filter_append]
  rfl

theorem components_segment {segment : List UInt8} (hslash : slash ∉ segment) (hne : segment ≠ []) :
    components segment = [segment] := by
  simp [components, List.splitOn_eq_singleton hslash, hne]

/-- A prefix that a loop of the client has consumed ends with a slash. -/
def WholeSegments (consumed : List UInt8) : Prop :=
  consumed = [] ∨ ∃ front, consumed = front ++ [slash]

/-- One more segment, with or without a slash before it. -/
theorem components_snoc {consumed lead segment : List UInt8} (h : WholeSegments consumed)
    (hlead : lead = [] ∨ lead = [slash]) (hslash : slash ∉ segment) (hne : segment ≠ []) :
    components (consumed ++ (lead ++ segment ++ [slash])) = components consumed ++ [segment] := by
  have hlast : components (segment ++ [slash]) = [segment] := by
    rw [components_append, components_segment hslash hne]
    rfl
  obtain rfl | rfl := hlead
  · obtain rfl | ⟨front, rfl⟩ := h
    · exact hlast
    · have hfront : components (front ++ [slash]) = components front := by
        rw [components_append]
        exact List.append_nil _
      rw [hfront, ← hlast, ← components_append, List.append_assoc]
      rfl
  · rw [← hlast, ← components_append]
    simp

/-! ## One segment -/

theorem skipSlash_spec (path : List UInt8) :
    ∃ lead, (lead = [] ∨ lead = [slash]) ∧ path = lead ++ skipSlash path := by
  cases path with
  | nil => exact ⟨[], .inl rfl, rfl⟩
  | cons c path =>
      rw [skipSlash]
      split_ifs with hc
      · exact ⟨[slash], .inr rfl, by rw [hc]; rfl⟩
      · exact ⟨[], .inl rfl, rfl⟩

theorem scanSegment_spec (path : List UInt8) :
    slash ∉ (scanSegment path).1 ∧
      ((scanSegment path).2 = false ∧ path = (scanSegment path).1 ∨
        (scanSegment path).2 = true ∧ ∃ rest, path = (scanSegment path).1 ++ slash :: rest) := by
  induction path with
  | nil => simp [scanSegment]
  | cons c path ih =>
      rw [scanSegment]
      split_ifs with hc
      · exact ⟨List.not_mem_nil, .inr ⟨rfl, path, by rw [hc]; rfl⟩⟩
      · obtain ⟨hslash, hcase⟩ := ih
        refine ⟨?_, ?_⟩
        · rw [List.mem_cons]
          rintro (rfl | hmem)
          · exact hc rfl
          · exact hslash hmem
        · obtain ⟨hend, hpath⟩ | ⟨hfound, rest, hpath⟩ := hcase
          · exact .inl ⟨hend, congrArg (c :: ·) hpath⟩
          · exact .inr ⟨hfound, rest, congrArg (c :: ·) hpath⟩

theorem nsvCheckPathResolved_iff (path : List UInt8) :
    nsvCheckPathResolved (some path) = true ↔ slash ∉ skipSlash path := by
  rw [nsvCheckPathResolved, List.all_eq_true]
  constructor
  · intro h hmem
    exact of_decide_eq_true (h slash hmem) rfl
  · rintro h c hc
    refine decide_eq_true ?_
    rintro rfl
    exact h hc

/-- A path is resolved if no slash ends the segment. -/
theorem nsvCheckPathResolved_eq_not (path : List UInt8) :
    nsvCheckPathResolved (some path) = true ↔ (scanSegment (skipSlash path)).2 = false := by
  rw [nsvCheckPathResolved_iff]
  obtain ⟨hslash, ⟨hend, hpath⟩ | ⟨hfound, rest, hpath⟩⟩ := scanSegment_spec (skipSlash path)
  · rw [hend, hpath]
    simpa using hslash
  · rw [hfound, hpath]
    simp

/-- What the server answers for a path that is not empty: it is resolved; the segment is not found;
or there is an entry for it. -/
theorem nameservResolve_cases (n : NameservState) {path : List UInt8} (hne : path ≠ [])
    (malloc : Bool) :
    (malloc = true ∧ nsvCheckPathResolved (some path) = true ∧
        nameservResolve n (some path) malloc = .ok (nameservResolved, none)) ∨
      ((malloc = true → nsvCheckPathResolved (some path) = false) ∧
        nameservResolve n (some path) malloc = .ok (0, none)) ∨
      nsvCheckPathResolved (some path) = false ∧
        ∃ lead, (lead = [] ∨ lead = [slash]) ∧ ∃ entry ∈ n.entries, slash ∉ entry.name ∧
          ∃ rest, path = lead ++ entry.name ++ slash :: rest ∧
            nameservResolve n (some path) malloc =
              .ok (((lead ++ entry.name).length : Nat), some entry.anonEP) := by
  simp only [nameservResolve, if_neg hne]
  cases malloc with
  | false => exact .inr (.inl ⟨fun h => absurd h Bool.false_ne_true, rfl⟩)
  | true =>
      have hcheck := nsvCheckPathResolved_eq_not path
      obtain ⟨lead, hlead, hpath⟩ := skipSlash_spec path
      obtain ⟨hslash, ⟨hend, _⟩ | ⟨hfound, rest, hrest⟩⟩ := scanSegment_spec (skipSlash path)
      · refine .inl ⟨rfl, hcheck.2 hend, ?_⟩
        rw [if_neg Bool.noConfusion, if_pos hend]
      · have hopen : nsvCheckPathResolved (some path) = false := by
          rw [← Bool.not_eq_true, hcheck, hfound]
          exact Bool.noConfusion
        simp only [hfound, Bool.true_eq_false, if_false]
        cases hidx : n.findEntryIndex (scanSegment (skipSlash path)).1 with
        | none => exact .inr (.inl ⟨fun _ => hopen, rfl⟩)
        | some idx =>
            obtain ⟨hlt, hname, _⟩ := List.findIdx?_eq_some_iff_getElem.1 hidx
            have hname := of_decide_eq_true hname
            refine .inr (.inr ⟨hopen, lead, hlead, n.entries[idx], List.getElem_mem hlt, ?_⟩)
            rw [← hname] at hslash hrest
            rw [hrest] at hpath
            refine ⟨hslash, rest, by rw [hpath, List.append_assoc], ?_⟩
            have hoffset : path.length - (skipSlash path).length + n.entries[idx].name.length =
                (lead ++ n.entries[idx].name).length := by
              rw [hrest, hpath]
              simp only [List.length_append, List.length_cons]
              omega
            have hinside : ¬path.length ≤ (lead ++ n.entries[idx].name).length := by
              rw [hpath]
              simp only [List.length_append, List.length_cons]
              omega
            simp only [List.getElem?_eq_getElem hlt, ← hname, hoffset, if_neg hinside]

/-! ## The loop of the client -/

/-- What a successful result of `nsv_resolve` is. -/
structure NsvMountpoint.Right (servers : NameServers) (path : List UInt8) (m : NsvMountpoint) :
    Prop where
  whole : m.nameservPathPrefix ++ m.dspaceName = path
  leaf : slash ∉ m.dspaceName.tail
  server : servers.Follow refosNameservEp (components m.nameservPathPrefix) m.serverAnon

/-- The loop ends in a result, and a success is right. -/
def nsvResult (servers : NameServers) (path : List UInt8)
    (r : Except Failure (NsvErrno × NsvMountpoint)) : Prop :=
  path.length < nameservPathMaxlen →
    ∃ errno m, r = .ok (errno, m) ∧ (m.success = true → m.Right servers path)

section Loop

variable {servers : NameServers} {path cpath consumed : List UInt8} {s : Nat}

theorem slash_not_mem_tail (h : nsvCheckPathResolved (some cpath) = true) :
    slash ∉ cpath.tail := by
  rw [nsvCheckPathResolved_iff] at h
  cases cpath with
  | nil => exact List.not_mem_nil
  | cons c cpath =>
      rw [skipSlash] at h
      split_ifs at h
      · exact h
      · exact fun hmem => h (List.mem_cons_of_mem _ hmem)

theorem nsvLeaf_result (hpath : path = consumed ++ cpath)
    (hfollow : servers.Follow refosNameservEp (components consumed) s)
    (hresolved : nsvCheckPathResolved (some cpath) = true) :
    nsvResult servers path (nsvLeaf path cpath s) := by
  intro hshort
  have hprefix : path.take (path.length - cpath.length) = consumed := by
    rw [hpath, List.length_append, Nat.add_sub_cancel, List.take_left]
  have hlen : path.length = consumed.length + cpath.length := by
    rw [hpath, List.length_append]
  have hfits : ¬(nameservPathMaxlen ≤ cpath.length ∨ nameservPathMaxlen < consumed.length) := by
    omega
  simp only [nsvLeaf, hprefix, if_neg hfits]
  exact ⟨_, _, rfl, fun _ => ⟨hpath.symm, slash_not_mem_tail hresolved, hfollow⟩⟩

/-- Every round consumes something, so that the loop ends, with a result that is right. -/
theorem nsvLoop_result (memory : List UInt8 → Bool) (hpath : path = consumed ++ cpath)
    (hconsumed : WholeSegments consumed)
    (hfollow : servers.Follow refosNameservEp (components consumed) s) :
    ∃ r, (∀ fuel > cpath.length, nsvLoop servers memory path fuel cpath s = some r) ∧
      nsvResult servers path r := by
  induction hn : cpath.length using Nat.strongRecOn generalizing cpath consumed s with
  | _ n ih =>
    subst hn
    by_cases hresolved : nsvCheckPathResolved (some cpath) = true
    · refine ⟨_, ?_, nsvLeaf_result hpath hfollow hresolved⟩
      intro fuel hfuel
      obtain ⟨fuel, rfl⟩ := Nat.exists_eq_add_of_lt hfuel
      rw [nsvLoop, if_pos hresolved]
    have hne : cpath ≠ [] := by
      rintro rfl
      exact hresolved rfl
    obtain ⟨_, hcheck, _⟩ | ⟨_, hnone⟩ |
        ⟨_, lead, hlead, entry, hentry, hslash, rest, hcut, hfound⟩ :=
      nameservResolve_cases (servers s) hne (memory cpath)
    · exact absurd hcheck hresolved
    · refine ⟨.ok (.serverNotFound, .empty), ?_, fun _ => ⟨_, _, rfl, ?_⟩⟩
      · intro fuel hfuel
        obtain ⟨fuel, rfl⟩ := Nat.exists_eq_add_of_lt hfuel
        rw [nsvLoop, if_neg hresolved, nsvResolveSegment, hnone]
        rfl
      · intro h
        cases h
    · have hdrop : skipSlash (cpath.drop (lead ++ entry.name).length) = rest := by
        rw [hcut, List.drop_left]
        rfl
      have hlt : rest.length < cpath.length := by
        rw [hcut]
        simp only [List.length_append, List.length_cons]
        omega
      have hwhole : WholeSegments (consumed ++ (lead ++ entry.name ++ [slash])) :=
        .inr ⟨consumed ++ (lead ++ entry.name), by simp⟩
      have hnext : servers.Follow refosNameservEp
          (components (consumed ++ (lead ++ entry.name ++ [slash]))) entry.anonEP := by
        rw [components_snoc hconsumed hlead hslash entry.name_ne]
        exact hfollow.snoc hentry
      obtain ⟨r, hloop, hright⟩ := ih _ hlt (by rw [hpath, hcut]; simp) hwhole hnext rfl
      refine ⟨r, ?_, hright⟩
      intro fuel hfuel
      obtain ⟨fuel, rfl⟩ := Nat.exists_eq_add_of_lt hfuel
      rw [nsvLoop, if_neg hresolved, nsvResolveSegment, hfound]
      have hbytes : ((lead ++ entry.name).length : Int) ≠ nameservResolved := by
        simp only [nameservResolved]
        omega
      have hsome : ((lead ++ entry.name).length : Int) ≠ 0 := by
        have := List.length_pos_iff.2 entry.name_ne
        rw [List.length_append]
        omega
      simp only [if_neg hbytes, if_neg hsome, Int.toNat_natCast, hdrop]
      split
      · rename_i heq
        cases heq
      · rename_i heq
        exact absurd (Option.some.inj heq) entry.anonEP_ne
      · rename_i next heq
        obtain rfl := Option.some.inj heq
        exact hloop _ (by omega)

end Loop

/-- **Name resolution.** With memory for the segment, the server says that a path is resolved
exactly if the client says so. Whatever the registration lists and the memory of the servers, the
loop of the client ends; and for a path that is shorter than the buffers, a success divides it into
a prefix, which leads from the root to the server by the entries registered under its segments, and
a name without a slash, except for a first one. -/
theorem name_resolution :
    (∀ (n : NameservState) (path : List UInt8), path ≠ [] →
      (nsvCheckPathResolved (some path) = true ↔
        ∃ cap, nameservResolve n (some path) true = .ok (nameservResolved, cap))) ∧
    ∀ (servers : NameServers) (memory : List UInt8 → Bool) (path : List UInt8),
      ∃ r, (∀ fuel > path.length, nsvResolve servers memory fuel (some path) = some r) ∧
        (path.length < nameservPathMaxlen → ∃ errno m, r = .ok (errno, m) ∧
          (m.success = true →
            m.nameservPathPrefix ++ m.dspaceName = path ∧ slash ∉ m.dspaceName.tail ∧
              servers.Follow refosNameservEp (components m.nameservPathPrefix) m.serverAnon)) := by
  constructor
  · intro n path hne
    obtain ⟨_, hcheck, hr⟩ | ⟨hcheck, hr⟩ | ⟨hcheck, lead, _, entry, _, _, rest, _, hr⟩ :=
      nameservResolve_cases n hne true
    · simp [hcheck, hr]
    · simp [hcheck rfl, hr, nameservResolved]
    · simp only [hcheck, hr, Bool.false_eq_true, false_iff]
      rintro ⟨cap, heq⟩
      have hbytes := (Prod.mk.inj (Except.ok.inj heq)).1
      simp only [nameservResolved] at hbytes
      omega
  · intro servers memory path
    have hpath : path = [] ++ path := rfl
    have hroot : servers.Follow refosNameservEp (components []) refosNameservEp := .here _
    obtain ⟨r, hloop, hresult⟩ := nsvLoop_result memory hpath (.inl rfl) hroot
    refine ⟨r, hloop, fun hshort => ?_⟩
    obtain ⟨errno, m, hr, hsuccess⟩ := hresult hshort
    exact ⟨errno, m, hr, fun hm => ⟨(hsuccess hm).whole, (hsuccess hm).leaf, (hsuccess hm).server⟩⟩

/-- A root that has one server, number 5, registered under `fs`. -/
def oneMount : NameServers := fun _ => (NameservState.init.add [102, 115] 5 true).2

/-- The path `/fs/a` leads to the server. -/
theorem name_resolution_mounted :
    nsvResolve oneMount (fun _ => true) 6 (some [47, 102, 115, 47, 97]) =
      some (.ok (.success, ⟨true, 5, [97], 3, [47, 102, 115, 47]⟩)) ∧
    oneMount.Follow refosNameservEp (components [47, 102, 115, 47]) 5 := by
  have heval : nsvResolve oneMount (fun _ => true) 6 (some [47, 102, 115, 47, 97]) =
      some (.ok (.success, ⟨true, 5, [97], 3, [47, 102, 115, 47]⟩)) := by
    rfl
  obtain ⟨r, hloop, hr⟩ := name_resolution.2 oneMount (fun _ => true) [47, 102, 115, 47, 97]
  obtain ⟨errno, m, rfl, hright⟩ := hr (by decide)
  rw [hloop 6 (by decide)] at heval
  obtain ⟨rfl, rfl⟩ := Prod.mk.inj (Except.ok.inj (Option.some.inj heval))
  exact ⟨hloop 6 (by decide), (hright rfl).2.2⟩

/-- Without memory for the segment the server does not resolve the path `x`, which the client
considers resolved. -/
theorem resolved_path_without_memory :
    ¬∀ (n : NameservState) (path : List UInt8) (malloc : Bool), path ≠ [] →
      (nsvCheckPathResolved (some path) = true ↔
        ∃ cap, nameservResolve n (some path) malloc = .ok (nameservResolved, cap)) := by
  intro h
  obtain ⟨cap, hcap⟩ := (h .init [120] false (by decide)).1 (by decide)
  have hbytes : (0 : Int) = nameservResolved := (Prod.mk.inj (Except.ok.inj hcap)).1
  exact absurd hbytes (by decide)

end PartitionSeL4.Refos
