import PartitionSeL4.Refos.DataStruct
import PartitionSeL4.Lib.Run

/-!
# `serv_connect.c`: client sessions of the system servers

A server keeps one session for every connection, in a table indexed by `cID`. When it connects a
client it asks the process server to watch it and keeps the client's PID as the session's `deathID`.
Deletion is deferred: the handlers queue ids, and `client_table_postaction` deletes them after the
message.

The two servers handle a death in two ways. The console server queues the first session with the
given `deathID` and asserts that there is one; the file server queues the session whose *cID* is the
`deathID`. So the console server cleans up exactly when the process has one session, and the file
server exactly when the two numbers name the same sessions (`death_cleans_up_iff`).
-/

namespace PartitionSeL4.Refos

open Lib

/-! ## The table -/

/-- `struct srv_client` -/
structure SrvClient where
  cID : Nat
  liveness : Nat
  deathID : Int
  deriving DecidableEq, Repr

/-- `struct srv_client_table` -/
structure ClientTable where
  allocTable : Coat SrvClient
  maxClients : Nat
  pendingFreeList : List Int

/-- `client_table_init` -/
def clientTableInit (maxClients : Nat) : ClientTable where
  allocTable := .init 1 maxClients
  maxClients := maxClients
  pendingFreeList := []

/-- `client_get` -/
def clientGet (ct : ClientTable) (id : Int) : Option SrvClient :=
  if id < 0 ∨ (ct.maxClients : Int) ≤ id then none else ct.allocTable.get id.toNat

/-- `client_queue_delete` -/
def clientQueueDelete (ct : ClientTable) (id : Int) : ClientTable :=
  if (clientGet ct id).isNone then ct
  else if id ∈ ct.pendingFreeList then ct
  else { ct with pendingFreeList := ct.pendingFreeList ++ [id] }

/-- `client_queue_delete_deathID`; its result -1 is `none`. -/
def clientQueueDeleteDeathID (ct : ClientTable) (deathID : Int) : Option ClientTable :=
  ((List.range ct.maxClients).findSome? fun i : Nat =>
    (clientGet ct i).filter fun c => c.deathID = deathID).map fun c =>
      clientQueueDelete ct c.cID

/-- `coat_free` of a session. -/
def freeClient (ct : ClientTable) (id : Int) : ClientTable :=
  match ct.allocTable.toDelete id.toNat with
  | some _ => { ct with allocTable := ct.allocTable.remove id.toNat }
  | none => ct

/-- The loop of `client_table_postaction`. -/
def freePending : List Int → ClientTable → Except Failure ClientTable
  | [], ct => .ok ct
  | id :: pending, ct =>
      if (clientGet ct id).isNone then .error .assertion
      else freePending pending (freeClient ct id)

/-- `client_table_postaction` -/
def clientTablePostaction (ct : ClientTable) : Except Failure ClientTable := do
  let ct ← freePending ct.pendingFreeList ct
  return { ct with pendingFreeList := [] }

/-- `client_oat_create`. It fails when memory or capability slots run out. -/
def clientOatCreate (liveness : Nat) (resources : Bool) (id : Nat) : Option SrvClient :=
  if resources then some { cID := id, liveness := liveness, deathID := -1 } else none

theorem cID_of_clientOatCreate {liveness id : Nat} {resources : Bool} {c : SrvClient}
    (h : clientOatCreate liveness resources id = some c) : c.cID = id := by
  rw [clientOatCreate] at h
  split_ifs at h
  rw [← Option.some.inj h]

/-! ## The handlers -/

/-- `srv_ctable_connect_direct_handler`. `watch` is the answer of `proc_watch_client`: the client's
`deathID`, or an error. -/
def srvCtableConnectDirectHandler (ct : ClientTable) (liveness : Nat) (resources : Bool)
    (watch : Option Int) : Except Failure ClientTable :=
  match ct.allocTable.alloc (clientOatCreate liveness resources) with
  | (none, allocTable) => .ok { ct with allocTable := allocTable }
  | (some (id, c), allocTable) =>
      match watch with
      | some deathID =>
          .ok { ct with allocTable := allocTable.set id { c with deathID := deathID } }
      | none => clientTablePostaction
          (clientQueueDelete { ct with allocTable := allocTable } c.cID)

/-- `srv_ctable_disconnect_direct_handler`, for the session that a message's badge names. -/
def srvCtableDisconnectDirectHandler (ct : ClientTable) (id : Int) : ClientTable :=
  match clientGet ct id with
  | some c => clientQueueDelete ct c.cID
  | none => ct

/-- The two servers that handle death notifications. -/
inductive ServerKind where
  | console
  | file
  deriving DecidableEq, Repr

/-- `handle_conserver_death_notification` and `handle_fileserver_death_notification` -/
def handleDeathNotification (ct : ClientTable) (deathID : Int) :
    ServerKind → Except Failure ClientTable
  | .console =>
      match clientQueueDeleteDeathID ct deathID with
      | some ct => .ok ct
      | none => .error .assertion
  | .file => .ok (clientQueueDelete ct deathID)

/-- The loop of `srv_dispatch_notification`, for death notifications. -/
def srvDispatchNotification (server : ServerKind) : List Int → ClientTable →
    Except Failure ClientTable
  | [], ct => .ok ct
  | deathID :: deathIDs, ct => do
      let ct ← handleDeathNotification ct deathID server
      srvDispatchNotification server deathIDs ct

/-! ## Runs -/

/-- The messages that change the table. -/
inductive SessionEvent where
  | connect (liveness : Nat) (resources : Bool) (watch : Option Int)
  | disconnect (id : Int)
  /-- The death notifications that one asynchronous message finds in the buffer. -/
  | notify (deathIDs : List Int)
  deriving DecidableEq, Repr

/-- The handler of a message. -/
def handleSession (server : ServerKind) (ct : ClientTable) :
    SessionEvent → Except Failure ClientTable
  | .connect liveness resources watch =>
      srvCtableConnectDirectHandler ct liveness resources watch
  | .disconnect id => .ok (srvCtableDisconnectDirectHandler ct id)
  | .notify deathIDs => srvDispatchNotification server deathIDs ct

/-- One round of a server's loop: a message, then `client_table_postaction`. -/
def sessionStep (server : ServerKind) (ct : ClientTable) (e : SessionEvent) :
    Except Failure ClientTable := do
  let ct ← handleSession server ct e
  clientTablePostaction ct

/-- The pool hands out an id that `client_get` accepts. -/
def IdsLeft (ct : ClientTable) : SessionEvent → Prop
  | .connect _ _ _ => ∀ new ∈ ct.allocTable.pool.alloc, new.1 < ct.maxClients
  | _ => True

instance (ct : ClientTable) : (e : SessionEvent) → Decidable (IdsLeft ct e)
  | .connect _ _ _ => inferInstanceAs (Decidable (∀ new ∈ _, _))
  | .disconnect _ | .notify _ => inferInstanceAs (Decidable True)

/-- The sessions of a table. -/
def session (ct : ClientTable) (id : Nat) : Option SrvClient := ct.allocTable.table id

/-- Handling the death of `d` and `client_table_postaction` remove the sessions with `deathID` `d`
and no others. -/
def CleansUp (server : ServerKind) (ct : ClientTable) (d : Int) : Prop :=
  ∃ ct', sessionStep server ct (.notify [d]) = .ok ct' ∧
    ∀ id, session ct' id = (session ct id).filter fun c => c.deathID ≠ d

/-- The condition on the sessions under which a server cleans up. -/
def ServerKind.CanCleanUp (ct : ClientTable) (d : Int) : ServerKind → Prop
  | .console => ∃! id, ∃ c, session ct id = some c ∧ c.deathID = d
  | .file => ∀ id c, session ct id = some c → (c.deathID = d ↔ (c.cID : Int) = d)

/-! ## The invariant -/

/-- Every session is kept under its own id, and `client_get` finds it. -/
structure TableOk (ct : ClientTable) : Prop where
  coat : ct.allocTable.Ok
  stop : ct.allocTable.pool.stop = ct.maxClients
  id_eq : ∀ id c, session ct id = some c → c.cID = id ∧ id < ct.maxClients

/-- The queue, without duplicates, holds ids of sessions. -/
structure QueueOk (ct : ClientTable) (pending : List Int) : Prop where
  live : ∀ id ∈ pending, ∃ n : Nat, id = n ∧ (session ct n).isSome
  nodup : pending.Nodup

namespace TableOk

variable {ct : ClientTable} {id : Nat} {c : SrvClient}

theorem init (maxClients : Nat) : TableOk (clientTableInit maxClients) where
  coat := .init (by omega) (by omega)
  stop := rfl
  id_eq id c h := by simp [session, clientTableInit, Coat.init] at h

theorem clientGet_eq (h : TableOk ct) (id : Nat) : clientGet ct id = session ct id := by
  rw [clientGet]
  split_ifs with hout
  · cases hid : session ct id with
    | none => rfl
    | some c =>
        have := (h.id_eq id c hid).2
        omega
  · exact h.coat.get_eq (by rw [h.stop]; omega)

theorem clientGet_eq_some (h : TableOk ct) {id : Int} :
    clientGet ct id = some c ↔ ∃ n : Nat, id = n ∧ session ct n = some c := by
  constructor
  · intro hget
    have hpos : 0 ≤ id := by
      by_contra hneg
      simp [clientGet, show id < 0 by omega] at hget
    obtain ⟨n, rfl⟩ := Int.eq_ofNat_of_zero_le hpos
    exact ⟨n, rfl, (h.clientGet_eq n).symm.trans hget⟩
  · rintro ⟨n, rfl, hn⟩
    exact (h.clientGet_eq n).trans hn

theorem clientGet_isSome (h : TableOk ct) (id : Int) :
    (clientGet ct id).isSome ↔ ∃ n : Nat, id = n ∧ (session ct n).isSome := by
  simp only [Option.isSome_iff_exists, h.clientGet_eq_some]
  exact ⟨fun ⟨c, n, hid, hc⟩ => ⟨n, hid, c, hc⟩, fun ⟨n, hid, c, hc⟩ => ⟨c, n, hid, hc⟩⟩

theorem freeClient_eq (h : TableOk ct) (hid : (session ct id).isSome) :
    freeClient ct id = { ct with allocTable := ct.allocTable.remove id } := by
  obtain ⟨c, hc⟩ := Option.isSome_iff_exists.1 hid
  have hlt := (h.id_eq id c hc).2
  have hdel := h.coat.toDelete_eq hc (by rwa [h.stop])
  simp only [freeClient, Int.toNat_natCast, hdel]

theorem freeClient (h : TableOk ct) (hid : (session ct id).isSome) :
    TableOk (freeClient ct id) ∧
      ∀ i, session (freeClient ct id) i = if i = id then none else session ct i := by
  rw [h.freeClient_eq hid]
  obtain ⟨c, hc⟩ := Option.isSome_iff_exists.1 hid
  obtain ⟨hcoat, _, hstop⟩ := h.coat.remove hc
  have hsession : ∀ i, session { ct with allocTable := ct.allocTable.remove id } i =
      if i = id then none else session ct i := fun i => Function.update_apply _ _ _ _
  refine ⟨⟨hcoat, hstop.trans h.stop, fun i c' hi => ?_⟩, hsession⟩
  rw [hsession] at hi
  split_ifs at hi
  exact h.id_eq i c' hi

theorem of_alloc_none (h : TableOk ct) {create : Nat → Option SrvClient} {t : Coat SrvClient}
    (halloc : ct.allocTable.alloc create = (none, t)) :
    TableOk { ct with allocTable := t } ∧
      session { ct with allocTable := t } = session ct := by
  obtain ⟨hcoat, htable, _, hstop⟩ := h.coat.of_alloc_none halloc
  have hsession : session { ct with allocTable := t } = session ct := htable
  exact ⟨⟨hcoat, hstop.trans h.stop, fun i c hi => h.id_eq i c (hsession ▸ hi)⟩, hsession⟩

theorem of_alloc_some (h : TableOk ct) {liveness : Nat} {resources : Bool} {t : Coat SrvClient}
    (halloc : ct.allocTable.alloc (clientOatCreate liveness resources) = (some (id, c), t))
    (hid : id < ct.maxClients) :
    TableOk { ct with allocTable := t } ∧ c.cID = id ∧ session ct id = none ∧
      session { ct with allocTable := t } = Function.update (session ct) id (some c) := by
  obtain ⟨hcoat, htable, hfree, hcreate, _, _, hstop⟩ := h.coat.of_alloc_some halloc
  have hsession : session { ct with allocTable := t } =
      Function.update (session ct) id (some c) := htable
  have hcID := cID_of_clientOatCreate hcreate
  refine ⟨⟨hcoat, hstop.trans h.stop, fun i c' hi => ?_⟩, hcID, hfree, hsession⟩
  rw [hsession, Function.update_apply] at hi
  split_ifs at hi with heq
  · obtain rfl := Option.some.inj hi
    exact ⟨hcID.trans heq.symm, heq ▸ hid⟩
  · exact h.id_eq i c' hi

theorem setClient (h : TableOk ct) (hc : session ct id = some c) (c' : SrvClient)
    (hcID : c'.cID = c.cID) :
    TableOk { ct with allocTable := ct.allocTable.set id c' } ∧
      session { ct with allocTable := ct.allocTable.set id c' } =
        Function.update (session ct) id (some c') := by
  refine ⟨⟨h.coat.set (show (session ct id).isSome by simp [hc]) c', h.stop, fun i new hi => ?_⟩,
    rfl⟩
  have hi : Function.update (session ct) id (some c') i = some new := hi
  rw [Function.update_apply] at hi
  split_ifs at hi with heq
  · obtain rfl := Option.some.inj hi
    rw [hcID, heq]
    exact h.id_eq id c hc
  · exact h.id_eq i new hi

end TableOk

theorem QueueOk.tail {ct : ClientTable} {n : Nat} {pending : List Int} (h : TableOk ct)
    (hq : QueueOk ct (n :: pending)) : QueueOk (freeClient ct n) pending := by
  obtain ⟨hnotin, hnodup⟩ := List.nodup_cons.1 hq.nodup
  obtain ⟨n', hn', hn⟩ := hq.live n (by simp)
  obtain rfl : n = n' := by exact_mod_cast hn'
  refine ⟨fun id hid => ?_, hnodup⟩
  obtain ⟨m, rfl, hm⟩ := hq.live id (by simp [hid])
  have hne : m ≠ n := by
    rintro rfl
    exact hnotin hid
  exact ⟨m, rfl, by rwa [(h.freeClient hn).2, if_neg hne]⟩

theorem freePending_spec {pending : List Int} {ct : ClientTable} (h : TableOk ct)
    (hq : QueueOk ct pending) :
    ∃ ct', freePending pending ct = .ok ct' ∧ TableOk ct' ∧ ct'.maxClients = ct.maxClients ∧
      ∀ i : Nat, session ct' i = if (i : Int) ∈ pending then none else session ct i := by
  induction pending generalizing ct with
  | nil => exact ⟨ct, rfl, h, rfl, by simp⟩
  | cons id pending ih =>
      obtain ⟨n, rfl, hn⟩ := hq.live id (by simp)
      obtain ⟨h', hsession⟩ := h.freeClient hn
      obtain ⟨ct', hct', hok, hmax, hrest⟩ := ih h' (hq.tail h)
      have hget : (clientGet ct n).isNone = false := by
        rw [h.clientGet_eq, Option.isNone_eq_false_iff]
        exact hn
      refine ⟨ct', ?_, hok, ?_, fun i => ?_⟩
      · rw [freePending, hget]
        exact hct'
      · rw [hmax, h.freeClient_eq hn]
      · rw [hrest, hsession]
        by_cases hi : i = n
        · simp [hi]
        · have hne : (i : Int) ≠ n := by omega
          simp [hi, hne]

/-- `client_table_postaction` removes exactly the sessions queued, and empties the queue. -/
theorem clientTablePostaction_spec {ct : ClientTable} (h : TableOk ct)
    (hq : QueueOk ct ct.pendingFreeList) :
    ∃ ct', clientTablePostaction ct = .ok ct' ∧ TableOk ct' ∧ ct'.pendingFreeList = [] ∧
      ∀ i : Nat, session ct' i =
        if (i : Int) ∈ ct.pendingFreeList then none else session ct i := by
  obtain ⟨ct', hct', hok, _, hsession⟩ := freePending_spec h hq
  refine ⟨{ ct' with pendingFreeList := [] }, ?_, ⟨hok.coat, hok.stop, hok.id_eq⟩, rfl, hsession⟩
  simp only [clientTablePostaction, hct']
  rfl

/-! ## The handlers keep it -/

/-- `client_queue_delete` adds the id of a session to the queue, once. -/
theorem clientQueueDelete_spec {ct : ClientTable} (h : TableOk ct)
    (hq : QueueOk ct ct.pendingFreeList) (id : Int) :
    TableOk (clientQueueDelete ct id) ∧
      QueueOk (clientQueueDelete ct id) (clientQueueDelete ct id).pendingFreeList ∧
      (∀ i, session (clientQueueDelete ct id) i = session ct i) ∧
      ∀ i : Nat, (session ct i).isSome →
        ((i : Int) ∈ (clientQueueDelete ct id).pendingFreeList ↔
          (i : Int) = id ∨ (i : Int) ∈ ct.pendingFreeList) := by
  have hsome := h.clientGet_isSome id
  rw [clientQueueDelete]
  split_ifs with hnone hmem
  · refine ⟨h, hq, fun _ => rfl, fun i hi => ?_⟩
    have hne : (i : Int) ≠ id := by
      rintro rfl
      have hget := hsome.2 ⟨i, rfl, hi⟩
      rw [Option.isNone_iff_eq_none.1 hnone] at hget
      cases hget
    simp [hne]
  · refine ⟨h, hq, fun _ => rfl, fun i _ => ?_⟩
    constructor
    · exact Or.inr
    · rintro (rfl | hi)
      · exact hmem
      · exact hi
  · have hlive := hsome.1 (Option.isSome_iff_ne_none.2 (by simpa using hnone))
    refine ⟨⟨h.coat, h.stop, h.id_eq⟩, ⟨fun x hx => ?_, ?_⟩, fun _ => rfl, fun i _ => ?_⟩
    · rcases List.mem_append.1 hx with hx | hx
      · exact hq.live x hx
      · rw [List.mem_singleton.1 hx]
        exact hlive
    · rw [← List.concat_eq_append]
      exact hq.nodup.concat hmem
    · simp [or_comm]

/-- A table at rest between two messages. -/
def AtRest (ct : ClientTable) : Prop := TableOk ct ∧ ct.pendingFreeList = []

theorem QueueOk.nil (ct : ClientTable) : QueueOk ct [] := ⟨by simp, List.nodup_nil⟩

theorem QueueOk.mono {ct ct' : ClientTable} {pending : List Int} (h : QueueOk ct pending)
    (hmore : ∀ i, (session ct i).isSome → (session ct' i).isSome) : QueueOk ct' pending :=
  ⟨fun id hid => (h.live id hid).imp fun _ hn => ⟨hn.1, hmore _ hn.2⟩, h.nodup⟩

/-- Queueing one id from rest, and `client_table_postaction`. -/
theorem postaction_queueDelete {ct : ClientTable} (h : AtRest ct) (id : Int) :
    ∃ ct', clientTablePostaction (clientQueueDelete ct id) = .ok ct' ∧ AtRest ct' ∧
      ∀ i : Nat, session ct' i = if (i : Int) = id then none else session ct i := by
  obtain ⟨hok, hnil⟩ := h
  obtain ⟨hok', hq', hsame, hmem⟩ := clientQueueDelete_spec hok (hnil ▸ .nil ct) id
  obtain ⟨ct', hct', hok'', hnil', hsession⟩ := clientTablePostaction_spec hok' hq'
  refine ⟨ct', hct', ⟨hok'', hnil'⟩, fun i => ?_⟩
  rw [hsession, hsame]
  cases hi : session ct i with
  | none => simp
  | some c => simp only [hmem i (by simp [hi]), hnil, List.not_mem_nil, or_false]

theorem AtRest.connect {ct ct' : ClientTable} {liveness : Nat} {resources : Bool}
    {watch : Option Int} (h : AtRest ct) (hids : IdsLeft ct (.connect liveness resources watch))
    (hct' : srvCtableConnectDirectHandler ct liveness resources watch = .ok ct') : AtRest ct' := by
  obtain ⟨hok, hnil⟩ := h
  rw [srvCtableConnectDirectHandler] at hct'
  cases halloc : ct.allocTable.alloc (clientOatCreate liveness resources) with
  | mk new t =>
      rw [halloc] at hct'
      cases new with
      | none =>
          obtain rfl := Except.ok.inj hct'
          exact ⟨(hok.of_alloc_none halloc).1, hnil⟩
      | some new =>
          obtain ⟨id, c⟩ := new
          obtain ⟨_, _, _, _, ⟨_, hpool⟩, _⟩ := hok.coat.of_alloc_some halloc
          obtain ⟨hok', _, _, hsession⟩ := hok.of_alloc_some halloc (hids _ hpool)
          have hc : session { ct with allocTable := t } id = some c := by
            rw [hsession, Function.update_self]
          cases watch with
          | some d =>
              obtain rfl := Except.ok.inj hct'
              exact ⟨(hok'.setClient hc { c with deathID := d } rfl).1, hnil⟩
          | none =>
              obtain ⟨ct'', hct'', hrest, _⟩ := postaction_queueDelete ⟨hok', hnil⟩ (c.cID : Int)
              have heq : clientTablePostaction (clientQueueDelete { ct with allocTable := t }
                  c.cID) = .ok ct' := hct'
              rw [hct''] at heq
              exact Except.ok.inj heq ▸ hrest

/-- The first session with a `deathID`, as the console server looks it up. -/
theorem clientQueueDeleteDeathID_cases {ct : ClientTable} (h : TableOk ct) (d : Int) :
    (clientQueueDeleteDeathID ct d = none ∧ ∀ id c, session ct id = some c → c.deathID ≠ d) ∨
      ∃ id c, session ct id = some c ∧ c.deathID = d ∧
        clientQueueDeleteDeathID ct d = some (clientQueueDelete ct id) := by
  simp only [clientQueueDeleteDeathID]
  cases hfind : (List.range ct.maxClients).findSome? fun i : Nat =>
      (clientGet ct i).filter fun c => c.deathID = d with
  | none =>
      refine Or.inl ⟨rfl, fun id c hid hd => ?_⟩
      have hnone := List.findSome?_eq_none_iff.1 hfind id
        (List.mem_range.2 (h.id_eq id c hid).2)
      rw [h.clientGet_eq, hid] at hnone
      simp [Option.filter, hd] at hnone
  | some c =>
      obtain ⟨id, _, hid⟩ := List.exists_of_findSome?_eq_some hfind
      rw [h.clientGet_eq, Option.filter_eq_some_iff] at hid
      obtain ⟨hid, hd⟩ := hid
      refine Or.inr ⟨id, c, hid, of_decide_eq_true hd, ?_⟩
      rw [Option.map_some, (h.id_eq id c hid).1]

theorem handleDeathNotification_ok {server : ServerKind} {ct ct' : ClientTable} {d : Int}
    (h : TableOk ct) (hq : QueueOk ct ct.pendingFreeList)
    (hct' : handleDeathNotification ct d server = .ok ct') :
    TableOk ct' ∧ QueueOk ct' ct'.pendingFreeList := by
  cases server with
  | file =>
      obtain rfl := Except.ok.inj hct'
      obtain ⟨hok, hqueue, _⟩ := clientQueueDelete_spec h hq d
      exact ⟨hok, hqueue⟩
  | console =>
      simp only [handleDeathNotification] at hct'
      rcases clientQueueDeleteDeathID_cases h d with ⟨hnone, _⟩ | ⟨id, c, _, _, hsome⟩
      · simp [hnone] at hct'
      · rw [hsome] at hct'
        obtain rfl := Except.ok.inj hct'
        obtain ⟨hok, hqueue, _⟩ := clientQueueDelete_spec h hq id
        exact ⟨hok, hqueue⟩

theorem srvDispatchNotification_ok {server : ServerKind} {deathIDs : List Int}
    {ct ct' : ClientTable} (h : TableOk ct) (hq : QueueOk ct ct.pendingFreeList)
    (hct' : srvDispatchNotification server deathIDs ct = .ok ct') :
    TableOk ct' ∧ QueueOk ct' ct'.pendingFreeList := by
  induction deathIDs generalizing ct with
  | nil =>
      obtain rfl := Except.ok.inj hct'
      exact ⟨h, hq⟩
  | cons d deathIDs ih =>
      obtain ⟨ct₁, hct₁, hrest⟩ := bind_eq_ok_iff.1 hct'
      obtain ⟨h₁, hq₁⟩ := handleDeathNotification_ok h hq hct₁
      exact ih h₁ hq₁ hrest

theorem AtRest.step {server : ServerKind} {ct ct' : ClientTable} {e : SessionEvent}
    (h : AtRest ct) (hids : IdsLeft ct e) (hct' : sessionStep server ct e = .ok ct') :
    AtRest ct' := by
  obtain ⟨ct₁, hct₁, hpost⟩ := bind_eq_ok_iff.1 hct'
  have h₁ : TableOk ct₁ ∧ QueueOk ct₁ ct₁.pendingFreeList := by
    cases e with
    | connect liveness resources watch =>
        obtain ⟨hok, hnil⟩ := h.connect hids hct₁
        exact ⟨hok, hnil ▸ .nil ct₁⟩
    | disconnect id =>
        obtain rfl := Except.ok.inj hct₁
        simp only [srvCtableDisconnectDirectHandler]
        split
        · obtain ⟨hok, hqueue, _⟩ := clientQueueDelete_spec h.1 (h.2 ▸ .nil ct) _
          exact ⟨hok, hqueue⟩
        · exact ⟨h.1, h.2 ▸ .nil ct⟩
    | notify deathIDs => exact srvDispatchNotification_ok h.1 (h.2 ▸ .nil ct) hct₁
  obtain ⟨ct'', hct'', hok, hnil, _⟩ := clientTablePostaction_spec h₁.1 h₁.2
  rw [hct''] at hpost
  exact Except.ok.inj hpost ▸ ⟨hok, hnil⟩

/-! ## Death notifications -/

/-- Removing one id removes the sessions with a `deathID` exactly when it is the only such one. -/
theorem remove_eq_filter_iff {ct : ClientTable} {d id : Int} :
    (∀ i : Nat, (if (i : Int) = id then none else session ct i) =
        (session ct i).filter fun c => c.deathID ≠ d) ↔
      ∀ (i : Nat) c, session ct i = some c → (c.deathID = d ↔ (i : Int) = id) := by
  refine forall_congr' fun i => ?_
  cases session ct i with
  | none => simp
  | some c =>
      by_cases hi : (i : Int) = id <;> by_cases hd : c.deathID = d <;>
        simp [hi, hd, Option.filter]

/-- What the file server does for a death. -/
theorem cleansUp_file_iff {ct : ClientTable} (h : AtRest ct) (d : Int) :
    CleansUp .file ct d ↔ ServerKind.CanCleanUp ct d .file := by
  obtain ⟨ct', hct', _, hsession⟩ := postaction_queueDelete h d
  have hstep : sessionStep .file ct (.notify [d]) = .ok ct' := hct'
  have hiff : CleansUp .file ct d ↔ ∀ i : Nat,
      (if (i : Int) = d then none else session ct i) =
        (session ct i).filter fun c => c.deathID ≠ d := by
    simp only [CleansUp, hstep, Except.ok.injEq, exists_eq_left', hsession]
  rw [hiff, remove_eq_filter_iff]
  constructor
  · intro hall i c hi
    rw [(h.1.id_eq i c hi).1]
    exact hall i c hi
  · intro hall i c hi
    rw [hall i c hi, (h.1.id_eq i c hi).1]

/-- What the console server does for a death. -/
theorem cleansUp_console_iff {ct : ClientTable} (h : AtRest ct) (d : Int) :
    CleansUp .console ct d ↔ ServerKind.CanCleanUp ct d .console := by
  rcases clientQueueDeleteDeathID_cases h.1 d with ⟨hnone, hno⟩ | ⟨id, c, hid, hd, hsome⟩
  · have hstep : sessionStep .console ct (.notify [d]) = .error .assertion := by
      simp only [sessionStep, handleSession, srvDispatchNotification, handleDeathNotification,
        hnone]
      rfl
    constructor
    · rintro ⟨ct', hct', _⟩
      simp [hstep] at hct'
    · rintro ⟨id, ⟨c, hid, hd⟩, _⟩
      exact absurd hd (hno id c hid)
  · obtain ⟨ct', hct', _, hsession⟩ := postaction_queueDelete h id
    have hstep : sessionStep .console ct (.notify [d]) = .ok ct' := by
      simp only [sessionStep, handleSession, srvDispatchNotification, handleDeathNotification,
        hsome]
      exact hct'
    have hiff : CleansUp .console ct d ↔ ∀ i : Nat,
        (if (i : Int) = id then none else session ct i) =
          (session ct i).filter fun c => c.deathID ≠ d := by
      simp only [CleansUp, hstep, Except.ok.injEq, exists_eq_left', hsession]
    rw [hiff, remove_eq_filter_iff]
    constructor
    · intro hall
      refine ⟨id, ⟨c, hid, hd⟩, ?_⟩
      rintro i ⟨c', hi, hd'⟩
      exact_mod_cast (hall i c' hi).1 hd'
    · rintro ⟨id', _, huniq⟩ i c' hi
      have hid' := huniq id ⟨c, hid, hd⟩
      constructor
      · intro hd'
        rw [huniq i ⟨c', hi, hd'⟩, hid']
      · intro heq
        obtain rfl : i = id := by exact_mod_cast heq
        rw [hid] at hi
        exact Option.some.inj hi ▸ hd

theorem atRest_of_run {server : ServerKind} {maxClients : Nat} {evs : List SessionEvent}
    {ct : ClientTable} (h : Run (sessionStep server) IdsLeft (clientTableInit maxClients) evs ct) :
    AtRest ct :=
  h.invariant (I := AtRest) ⟨.init maxClients, rfl⟩ fun _ _ _ h hids hct' => h.step hids hct'

/-- **Session cleanup.** In every run of connects, disconnects and death notifications, whichever
server it is, and in every table reached: handling the death of `d` and `client_table_postaction`
remove the sessions with `deathID` `d` and no others if and only if, for the console server, exactly
one session has that `deathID`, and for the file server, the sessions with `deathID` `d` are those
with `cID` `d`. -/
theorem death_cleans_up_iff (maxClients : Nat) (server : ServerKind) (evs : List SessionEvent)
    (ct : ClientTable)
    (hrun : Run (sessionStep server) IdsLeft (clientTableInit maxClients) evs ct) (d : Int) :
    CleansUp server ct d ↔ server.CanCleanUp ct d := by
  have hrest := atRest_of_run hrun
  cases server with
  | console => exact cleansUp_console_iff hrest d
  | file => exact cleansUp_file_iff hrest d

/-- The ids and `deathID`s of the sessions. -/
def liveSessions (ct : ClientTable) : List (Nat × Int) :=
  (List.range ct.maxClients).filterMap fun id => (session ct id).map fun c => (id, c.deathID)

theorem TableOk.mem_liveSessions {ct : ClientTable} (h : TableOk ct) {id : Nat} {d : Int} :
    (id, d) ∈ liveSessions ct ↔ ∃ c, session ct id = some c ∧ c.deathID = d := by
  simp only [liveSessions, List.mem_filterMap, List.mem_range, Option.map_eq_some_iff,
    Prod.mk.injEq]
  constructor
  · rintro ⟨i, _, c, hc, rfl, hd⟩
    exact ⟨c, hc, hd⟩
  · rintro ⟨c, hc, hd⟩
    exact ⟨id, (h.id_eq id c hc).2, c, hc, rfl, hd⟩

/-- Process 5 and then process 6 connect to the console server, process 1 connects to the file
server; their deaths are handled as they should be. -/
theorem death_cleans_up_iff_once :
    (∃ ct, Run (sessionStep .console) IdsLeft (clientTableInit 4)
        [.connect 10 true (some 5), .connect 11 true (some 6)] ct ∧ CleansUp .console ct 5) ∧
    ∃ ct, Run (sessionStep .file) IdsLeft (clientTableInit 4) [.connect 10 true (some 1)] ct ∧
      CleansUp .file ct 1 := by
  constructor
  · obtain ⟨ct, hrun, hsessions⟩ : ∃ ct, Run (sessionStep .console) IdsLeft (clientTableInit 4)
        [.connect 10 true (some 5), .connect 11 true (some 6)] ct ∧
          liveSessions ct = [(1, 5), (2, 6)] := by
      apply Run.exists_of_exec
      decide +kernel
    have hmem : ∀ id d, (id, d) ∈ liveSessions ct ↔ _ :=
      fun id d => (atRest_of_run hrun).1.mem_liveSessions
    refine ⟨ct, hrun, (death_cleans_up_iff 4 .console _ ct hrun 5).2 ⟨1, ?_, fun id hid => ?_⟩⟩
    · exact (hmem 1 5).1 (by simp [hsessions])
    · simpa [hsessions] using (hmem id 5).2 hid
  · obtain ⟨ct, hrun, hsessions⟩ : ∃ ct, Run (sessionStep .file) IdsLeft (clientTableInit 4)
        [.connect 10 true (some 1)] ct ∧ liveSessions ct = [(1, 1)] := by
      apply Run.exists_of_exec
      decide +kernel
    have hrest := atRest_of_run hrun
    refine ⟨ct, hrun, (death_cleans_up_iff 4 .file _ ct hrun 1).2 fun id c hc => ?_⟩
    have hin := hrest.1.mem_liveSessions.2 ⟨c, hc, rfl⟩
    obtain ⟨rfl, hd⟩ : id = 1 ∧ c.deathID = 1 := by simpa [hsessions] using hin
    simp [hd, (hrest.1.id_eq 1 c hc).1]

/-- Process 5 connects twice to the console server: after its death its second session is still
there. Process 5 connects to the file server: after its death its session is still there, and the
death of a process 1 that has no session removes it. -/
theorem death_leaves_session :
    (∃ ct, Run (sessionStep .console) IdsLeft (clientTableInit 4)
        [.connect 10 true (some 5), .connect 11 true (some 5)] ct ∧
      ((sessionStep .console ct (.notify [5])).toOption.map liveSessions) = some [(2, 5)] ∧
      ¬CleansUp .console ct 5) ∧
    (∃ ct, Run (sessionStep .file) IdsLeft (clientTableInit 4) [.connect 10 true (some 5)] ct ∧
      ((sessionStep .file ct (.notify [5])).toOption.map liveSessions) = some [(1, 5)] ∧
      ((sessionStep .file ct (.notify [1])).toOption.map liveSessions) = some [] ∧
      ¬CleansUp .file ct 5 ∧ ¬CleansUp .file ct 1) := by
  constructor
  · obtain ⟨ct, hrun, hsessions, hafter⟩ :
        ∃ ct, Run (sessionStep .console) IdsLeft (clientTableInit 4)
          [.connect 10 true (some 5), .connect 11 true (some 5)] ct ∧
          liveSessions ct = [(1, 5), (2, 5)] ∧
          ((sessionStep .console ct (.notify [5])).toOption.map liveSessions) =
            some [(2, 5)] := by
      apply Run.exists_of_exec
      decide +kernel
    have hrest := atRest_of_run hrun
    refine ⟨ct, hrun, hafter, ?_⟩
    rw [cleansUp_console_iff hrest]
    rintro ⟨id, _, huniq⟩
    have h1 := huniq 1 (hrest.1.mem_liveSessions.1 (by simp [hsessions]))
    have h2 := huniq 2 (hrest.1.mem_liveSessions.1 (by simp [hsessions]))
    omega
  · obtain ⟨ct, hrun, hsessions, hafter⟩ :
        ∃ ct, Run (sessionStep .file) IdsLeft (clientTableInit 4)
          [.connect 10 true (some 5)] ct ∧ liveSessions ct = [(1, 5)] ∧
          ((sessionStep .file ct (.notify [5])).toOption.map liveSessions) = some [(1, 5)] ∧
          ((sessionStep .file ct (.notify [1])).toOption.map liveSessions) = some [] := by
      apply Run.exists_of_exec
      decide +kernel
    have hrest := atRest_of_run hrun
    obtain ⟨c, hc, hd⟩ := hrest.1.mem_liveSessions.1 (show (1, 5) ∈ _ by simp [hsessions])
    have hcID := (hrest.1.id_eq 1 c hc).1
    refine ⟨ct, hrun, hafter.1, hafter.2, ?_, ?_⟩
    · rw [cleansUp_file_iff hrest]
      intro hall
      have := (hall 1 c hc).1 hd
      omega
    · rw [cleansUp_file_iff hrest]
      intro hall
      have := (hall 1 c hc).2 (by simp [hcID])
      omega

end PartitionSeL4.Refos
