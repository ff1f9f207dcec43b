import PartitionSeL4.Refos.Session

/-!
# Deferred deletion of clients

A client is not deleted while a message is handled: its id is put on the pending list, and
`client_table_postaction` deletes the clients on the list, each of which it asserts to exist. Ids
are used again. That this assertion holds, and that no new client is deleted in place of an old one,
rests on the list: it has no id twice, and every id on it is the id of a client.

`pending_right` is about runs of all calls in any order. A run is paired with the ids for which
deletion was requested since the last `client_table_postaction`.
-/

namespace PartitionSeL4.Refos

open Lib

/-! ## The calls -/

/-- `client_alloc`: the new client, if any, and the table. -/
def clientAlloc (ct : ClientTable) (liveness : Nat) (resources : Bool) :
    Option SrvClient × ClientTable :=
  match ct.allocTable.alloc (clientOatCreate liveness resources) with
  | (none, allocTable) => (none, { ct with allocTable := allocTable })
  | (some (_, c), allocTable) => (some c, { ct with allocTable := allocTable })

/-- The clients that the loop of `client_table_postaction` passes to `client_oat_delete`. -/
def freedPending : List Int → ClientTable → List SrvClient
  | [], _ => []
  | id :: pending, ct =>
      (ct.allocTable.toDelete id.toNat).toList ++ freedPending pending (freeClient ct id)

inductive PendingEvent where
  | clientAlloc (liveness : Nat) (resources : Bool)
  /-- The server that watches a client stores its `deathID`. -/
  | watched (id : Nat) (deathID : Int)
  | clientQueueDelete (id : Int)
  | clientQueueDeleteDeathID (deathID : Int)
  | clientTablePostaction
  deriving DecidableEq, Repr

/-- A table and the clients whose deletion was requested. -/
structure PendingTable where
  ct : ClientTable
  requested : List Int

/-- The clients that a call asks to delete. -/
def PendingEvent.requests (ct : ClientTable) : PendingEvent → List Int
  | .clientQueueDelete id => if (clientGet ct id).isSome then [id] else []
  | .clientQueueDeleteDeathID deathID =>
      (((List.range ct.maxClients).findSome? fun i : Nat =>
        (clientGet ct i).filter fun c => c.deathID = deathID).map fun c => (c.cID : Int)).toList
  | _ => []

/-- One call. -/
def pendingStep (x : PendingTable) (e : PendingEvent) : Except Failure PendingTable :=
  match e with
  | .clientAlloc liveness resources =>
      .ok { x with ct := (clientAlloc x.ct liveness resources).2 }
  | .watched id deathID =>
      match session x.ct id with
      | some c => .ok { x with ct := { x.ct with
          allocTable := x.ct.allocTable.set id { c with deathID := deathID } } }
      | none => .ok x
  | .clientQueueDelete id =>
      .ok { ct := clientQueueDelete x.ct id, requested := x.requested ++ e.requests x.ct }
  | .clientQueueDeleteDeathID deathID =>
      .ok { ct := (clientQueueDeleteDeathID x.ct deathID).getD x.ct
            requested := x.requested ++ e.requests x.ct }
  | .clientTablePostaction => do
      let ct ← clientTablePostaction x.ct
      return { ct := ct, requested := [] }

/-- A new client's id is below the maximum of the table. -/
def BelowMax (x : PendingTable) : PendingEvent → Prop
  | .clientAlloc liveness resources =>
      ∀ c ∈ (clientAlloc x.ct liveness resources).1, c.cID < x.ct.maxClients
  | _ => True

instance (x : PendingTable) : (e : PendingEvent) → Decidable (BelowMax x e)
  | .clientAlloc _ _ => inferInstanceAs (Decidable (∀ c ∈ _, _))
  | .watched _ _ | .clientQueueDelete _ | .clientQueueDeleteDeathID _ | .clientTablePostaction =>
      inferInstanceAs (Decidable True)

/-! ## The property -/

/-- The list holds the requests, each once, and all of clients; `client_table_postaction` returns,
it deletes these clients in this order and no others, and it empties the list. -/
structure PendingRight (x : PendingTable) : Prop where
  once : x.ct.pendingFreeList.Nodup
  allocated : ∀ id ∈ x.ct.pendingFreeList, (clientGet x.ct id).isSome
  requested : ∀ id, id ∈ x.ct.pendingFreeList ↔ id ∈ x.requested
  postaction : ∃ ct', clientTablePostaction x.ct = .ok ct' ∧ ct'.pendingFreeList = [] ∧
    (freedPending x.ct.pendingFreeList x.ct).map some = x.ct.pendingFreeList.map (clientGet x.ct) ∧
    ∀ id, clientGet ct' id = if id ∈ x.ct.pendingFreeList then none else clientGet x.ct id

/-! ## The invariant -/

/-- What the calls keep. -/
structure PendingOk (x : PendingTable) : Prop where
  table : TableOk x.ct
  queue : QueueOk x.ct x.ct.pendingFreeList
  requested : ∀ id, id ∈ x.ct.pendingFreeList ↔ id ∈ x.requested

/-- The loop passes every client on the list to `client_oat_delete`. -/
theorem freedPending_eq {pending : List Int} {ct : ClientTable} (h : TableOk ct)
    (hq : QueueOk ct pending) :
    (freedPending pending ct).map some = pending.map (clientGet ct) := by
  induction pending generalizing ct with
  | nil => rfl
  | cons id pending ih =>
      obtain ⟨n, rfl, hn⟩ := hq.live id (by simp)
      obtain ⟨c, hc⟩ := Option.isSome_iff_exists.1 hn
      obtain ⟨h', hsession⟩ := h.freeClient hn
      have hdelete := h.coat.toDelete_eq hc (by rw [h.stop]; exact (h.id_eq n c hc).2)
      -- the other clients on the list are not affected
      have hsame : pending.map (clientGet (freeClient ct n)) = pending.map (clientGet ct) := by
        refine List.map_congr_left fun id hid => ?_
        obtain ⟨m, rfl, _⟩ := hq.live id (by simp [hid])
        have hne : m ≠ n := by
          rintro rfl
          exact (List.nodup_cons.1 hq.nodup).1 hid
        rw [h'.clientGet_eq, h.clientGet_eq, hsession, if_neg hne]
      rw [freedPending, Int.toNat_natCast, hdelete, Option.toList_some, List.singleton_append,
        List.map_cons, List.map_cons, ih h' (hq.tail h), hsame, h.clientGet_eq, hc]

namespace PendingOk

variable {x y : PendingTable}

theorem init (maxClients : Nat) : PendingOk ⟨clientTableInit maxClients, []⟩ where
  table := .init maxClients
  queue := .nil _
  requested _ := Iff.rfl

theorem right (h : PendingOk x) : PendingRight x where
  once := h.queue.nodup
  allocated id hid := (h.table.clientGet_isSome id).2 (h.queue.live id hid)
  requested := h.requested
  postaction := by
    obtain ⟨ct', hct', hok, hnil, hsession⟩ := clientTablePostaction_spec h.table h.queue
    refine ⟨ct', hct', hnil, freedPending_eq h.table h.queue, fun id => ?_⟩
    by_cases hid : ∃ n : Nat, id = n
    · obtain ⟨n, rfl⟩ := hid
      rw [hok.clientGet_eq, h.table.clientGet_eq, hsession]
    · have hneg : ∀ ct : ClientTable, clientGet ct id = none := by
        intro ct
        rw [clientGet, if_pos (Or.inl ?_)]
        by_contra hpos
        exact hid (Int.eq_ofNat_of_zero_le (by omega))
      rw [hneg, hneg, ite_self]

theorem queueDelete (h : PendingOk x) (id : Int) :
    PendingOk { ct := clientQueueDelete x.ct id
                requested := x.requested ++
                  if (clientGet x.ct id).isSome then [id] else [] } := by
  obtain ⟨htable, hqueue, _⟩ := clientQueueDelete_spec h.table h.queue id
  refine ⟨htable, hqueue, fun i => ?_⟩
  simp only [clientQueueDelete]
  cases hget : clientGet x.ct id with
  | none => simpa using h.requested i
  | some c =>
      by_cases hmem : id ∈ x.ct.pendingFreeList
      · simp only [Option.isNone_some, Bool.false_eq_true, if_false, hmem, if_true,
          Option.isSome_some, List.mem_append, List.mem_singleton, ← h.requested]
        refine ⟨Or.inl, ?_⟩
        rintro (hi | rfl)
        · exact hi
        · exact hmem
      · simp only [Option.isNone_some, Bool.false_eq_true, if_false, hmem, Option.isSome_some,
          if_true, List.mem_append, List.mem_singleton, ← h.requested]

theorem clientAlloc (h : PendingOk x) {liveness : Nat} {resources : Bool}
    (hmax : BelowMax x (.clientAlloc liveness resources)) :
    PendingOk { x with ct := (clientAlloc x.ct liveness resources).2 } := by
  rw [BelowMax, Refos.clientAlloc] at hmax
  rw [Refos.clientAlloc]
  cases halloc : x.ct.allocTable.alloc (clientOatCreate liveness resources) with
  | mk new t =>
      rw [halloc] at hmax
      cases new with
      | none =>
          obtain ⟨htable, hsession⟩ := h.table.of_alloc_none halloc
          exact ⟨htable, h.queue.mono fun i hi => hsession ▸ hi, h.requested⟩
      | some new =>
          obtain ⟨id, c⟩ := new
          obtain ⟨_, _, _, hcreate, _⟩ := h.table.coat.of_alloc_some halloc
          obtain ⟨htable, _, _, hsession⟩ :=
            h.table.of_alloc_some halloc (cID_of_clientOatCreate hcreate ▸ hmax c rfl)
          refine ⟨htable, h.queue.mono fun i hi => ?_, h.requested⟩
          rw [hsession, Function.update_apply]
          split_ifs
          · rfl
          · exact hi

theorem step {e : PendingEvent} (h : PendingOk x) (hmax : BelowMax x e)
    (hy : pendingStep x e = .ok y) : PendingOk y := by
  cases e with
  | clientAlloc liveness resources =>
      obtain rfl := Except.ok.inj hy
      exact h.clientAlloc hmax
  | watched id deathID =>
      simp only [pendingStep] at hy
      cases hc : session x.ct id with
      | none =>
          rw [hc] at hy
          exact Except.ok.inj hy ▸ h
      | some c =>
          rw [hc] at hy
          obtain rfl := Except.ok.inj hy
          obtain ⟨htable, hsession⟩ := h.table.setClient hc { c with deathID := deathID } rfl
          refine ⟨htable, h.queue.mono fun i hi => ?_, h.requested⟩
          rw [hsession, Function.update_apply]
          split_ifs
          · rfl
          · exact hi
  | clientQueueDelete id =>
      obtain rfl := Except.ok.inj hy
      exact h.queueDelete id
  | clientQueueDeleteDeathID deathID =>
      obtain rfl := Except.ok.inj hy
      simp only [PendingEvent.requests, clientQueueDeleteDeathID]
      cases hfind : (List.range x.ct.maxClients).findSome? fun i : Nat =>
          (clientGet x.ct i).filter fun c => c.deathID = deathID with
      | none => simpa using h
      | some c =>
          -- the client found is in the table, under its own id
          obtain ⟨i, _, hi⟩ := List.exists_of_findSome?_eq_some hfind
          rw [h.table.clientGet_eq, Option.filter_eq_some_iff] at hi
          have hget : clientGet x.ct c.cID = some c := by
            rw [h.table.clientGet_eq, (h.table.id_eq i c hi.1).1, hi.1]
          simpa [hget] using h.queueDelete c.cID
  | clientTablePostaction =>
      obtain ⟨ct', hct', htable, hnil, _⟩ := clientTablePostaction_spec h.table h.queue
      simp only [pendingStep, hct'] at hy
      obtain rfl := Except.ok.inj hy
      exact ⟨htable, hnil ▸ .nil ct', fun id => by simp [hnil]⟩

end PendingOk

/-- **Deferred deletion.** In every run of the calls in which no new client has the maximum of the
table for its id: the pending list has no id twice and only ids of clients, and
`client_table_postaction` returns, deletes each client whose deletion was requested once and no
other, and leaves the list empty. -/
theorem pending_right (maxClients : Nat) (evs : List PendingEvent) (x : PendingTable)
    (hrun : Run pendingStep BelowMax ⟨clientTableInit maxClients, []⟩ evs x) : PendingRight x :=
  (hrun.invariant (I := PendingOk) (.init maxClients) fun _ _ _ h hmax hy => h.step hmax hy).right

/-- A client is queued twice and deleted, its id is used again, and the new client is queued. -/
theorem pending_right_reused :
    ∃ x, Run pendingStep BelowMax ⟨clientTableInit 4, []⟩
        [.clientAlloc 10 true, .clientAlloc 11 true, .watched 1 5, .clientQueueDelete 1,
          .clientQueueDeleteDeathID 5, .clientTablePostaction, .clientAlloc 12 true,
          .clientQueueDelete 1] x ∧
      x.ct.pendingFreeList = [1] ∧ PendingRight x := by
  obtain ⟨x, hrun, hpending⟩ : ∃ x, Run pendingStep BelowMax ⟨clientTableInit 4, []⟩
      [.clientAlloc 10 true, .clientAlloc 11 true, .watched 1 5, .clientQueueDelete 1,
        .clientQueueDeleteDeathID 5, .clientTablePostaction, .clientAlloc 12 true,
        .clientQueueDelete 1] x ∧ x.ct.pendingFreeList = [1] := by
    apply Run.exists_of_exec
    decide +kernel
  exact ⟨x, hrun, hpending, pending_right 4 _ x hrun⟩

end PartitionSeL4.Refos
