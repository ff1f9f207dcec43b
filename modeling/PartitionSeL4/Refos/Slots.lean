import PartitionSeL4.Refos.Session
import PartitionSeL4.Lib.Slots
import Mathlib.Data.Finset.Card
import Mathlib.Order.Interval.Finset.Nat

/-!
# `cspace.c`: the capability slots of a server

A server takes the slots for its clients' capabilities from a free list (`csalloc`) and puts them
back (`csfree`), which checks nothing. A client holds up to three of them: the liveness capability
that came with the connection, the session capability made for it, and the dataspace of its
parameter buffer.

`slots_kept_apart` is what holds over any run of the handlers: no slot is free and held, as long as
no `connect` fails at its last step, and no client without a parameter buffer unsets it. In the
first case the client is deleted with its slots, and the exit stack frees the liveness slot once
more. In the second case the slot freed is 0.
-/

namespace PartitionSeL4.Refos

open Lib

/-! ## `cspace.c` -/

/-- `csalloc_init`: the free list. -/
def csallocInit (start stop : Nat) : List Nat := (List.range (stop - start)).map (start + ·)

/-- `csalloc`: a slot, or 0, and the free list. -/
def csalloc (cspaceFreeList : List Nat) : Nat × List Nat :=
  match cspaceFreeList.getLast? with
  | some c => (c, cspaceFreeList.dropLast)
  | none => (0, cspaceFreeList)

/-- `csfree` -/
def csfree (cspaceFreeList : List Nat) (c : Nat) : List Nat := cspaceFreeList ++ [c]

/-- `rpc_copyout_cptr` -/
def rpcCopyoutCptr (v : Nat) (cspaceFreeList : List Nat) : Nat × List Nat :=
  if v = 0 then (0, cspaceFreeList) else csalloc cspaceFreeList

/-! ## `serv_connect.c`, with the slots -/

/-- `struct srv_client`, with its capability slots. -/
structure SlotClient where
  cID : Nat
  liveness : Nat
  session : Nat
  deathID : Int := -1
  paramBuffer : Nat := 0
  paramBufferSize : Nat := 0
  deriving DecidableEq, Repr

/-- A server: its free list of slots and its client table. -/
structure SlotServer where
  freeList : List Nat
  allocTable : Coat SlotClient
  maxClients : Nat
  pendingFreeList : List Int

/-- Which of the steps of `client_oat_create` and of the connection succeed. -/
structure ConnectOutcome where
  malloc : Bool
  mint : Bool
  /-- The answer of `proc_watch_client`. -/
  watch : Option Int
  deriving DecidableEq, Repr

namespace SlotServer

/-- `client_table_init`, after `csalloc_init`. -/
def init (start stop maxClients : Nat) : SlotServer where
  freeList := csallocInit start stop
  allocTable := .init 1 maxClients
  maxClients := maxClients
  pendingFreeList := []

/-- `client_get` -/
def clientGet (s : SlotServer) (id : Int) : Option SlotClient :=
  if id < 0 ∨ (s.maxClients : Int) ≤ id then none else s.allocTable.get id.toNat

/-- `client_queue_delete` -/
def clientQueueDelete (s : SlotServer) (id : Int) : SlotServer :=
  if (s.clientGet id).isNone then s
  else if id ∈ s.pendingFreeList then s
  else { s with pendingFreeList := s.pendingFreeList ++ [id] }

/-- `client_queue_delete_deathID`; its result -1 is `none`. -/
def clientQueueDeleteDeathID (s : SlotServer) (deathID : Int) : Option SlotServer :=
  ((List.range s.maxClients).findSome? fun i : Nat =>
    (s.clientGet i).filter fun c => c.deathID = deathID).map fun c => s.clientQueueDelete c.cID

end SlotServer

/-- `client_oat_delete`: the free list after the client's slots are freed. -/
def clientOatDelete (freeList : List Nat) (client : SlotClient) : List Nat :=
  let freeList := if client.liveness ≠ 0 then csfree freeList client.liveness else freeList
  let freeList := if client.session ≠ 0 then csfree freeList client.session else freeList
  if client.paramBuffer ≠ 0 then csfree freeList client.paramBuffer else freeList

namespace SlotServer

/-- `coat_free` of a client. -/
def freeClient (s : SlotServer) (id : Int) : SlotServer :=
  match s.allocTable.toDelete id.toNat with
  | some c => { s with
      freeList := clientOatDelete s.freeList c
      allocTable := s.allocTable.remove id.toNat }
  | none => s

/-- The loop of `client_table_postaction`. -/
def freePending : List Int → SlotServer → Except Failure SlotServer
  | [], s => .ok s
  | id :: pending, s =>
      if (s.clientGet id).isNone then .error .assertion
      else freePending pending (s.freeClient id)

/-- `client_table_postaction` -/
def clientTablePostaction (s : SlotServer) : Except Failure SlotServer := do
  let s ← freePending s.pendingFreeList s
  return { s with pendingFreeList := [] }

/-- `client_alloc`, with `client_oat_create`: the client, if any, and the server. The exit stack of
the latter gives the session slot back. -/
def clientAlloc (s : SlotServer) (liveness : Nat) (o : ConnectOutcome) :
    Option (Nat × SlotClient) × SlotServer :=
  let (session, freeList) := csalloc s.freeList
  let create := fun id =>
    if o.malloc = false ∨ session = 0 ∨ o.mint = false then none
    else some { cID := id, liveness := liveness, session := session : SlotClient }
  let (new, allocTable) := s.allocTable.alloc create
  -- without an id `client_oat_create` is not called
  let called := s.allocTable.pool.alloc.any fun new => (s.allocTable.table new.1).isNone
  (new, { s with
    allocTable := allocTable
    freeList :=
      if called = false ∨ o.malloc = false then s.freeList
      else if session = 0 then freeList
      else if o.mint = false then csfree freeList session
      else freeList })

/-! ## The handlers -/

/-- `srv_ctable_connect_direct_handler`. `caps` is the answer of `srv_check_dispatch_caps`. -/
def srvCtableConnectDirectHandler (s : SlotServer) (caps : Bool) (liveness : Nat)
    (o : ConnectOutcome) : Except Failure SlotServer :=
  if caps = false then .ok s
  else
    let (livenessCP, freeList) := rpcCopyoutCptr liveness s.freeList
    if liveness = 0 ∨ livenessCP = 0 then .ok { s with freeList := freeList }
    else
      match clientAlloc { s with freeList := freeList } livenessCP o with
      | (none, s) => .ok { s with freeList := csfree s.freeList livenessCP }
      | (some (id, c), s) =>
          match o.watch with
          | some deathID =>
              .ok { s with allocTable := s.allocTable.set id { c with deathID := deathID } }
          | none => do
              let s ← (s.clientQueueDelete c.cID).clientTablePostaction
              return { s with freeList := csfree s.freeList livenessCP }

/-- `srv_ctable_set_param_buffer_handler`, for the client `c` with the given id. -/
def srvCtableSetParamBufferHandler (s : SlotServer) (id : Nat) (c : SlotClient) (caps : Bool)
    (parambufferDataspace parambufferSize : Nat) : SlotServer :=
  if parambufferDataspace = 0 ∧ parambufferSize = 0 then
    { s with
      freeList := csfree s.freeList c.paramBuffer
      allocTable := s.allocTable.set id { c with paramBuffer := 0, paramBufferSize := 0 } }
  else if caps = false then s
  else if parambufferSize = 0 then s
  else
    let (paramBuffer, freeList) := rpcCopyoutCptr parambufferDataspace s.freeList
    if paramBuffer = 0 then
      { s with
        freeList := freeList
        allocTable := s.allocTable.set id { c with paramBuffer := 0 } }
    else
      { s with
        freeList := freeList
        allocTable := s.allocTable.set id
          { c with paramBuffer := paramBuffer, paramBufferSize := parambufferSize } }

/-- `handle_conserver_death_notification` and `handle_fileserver_death_notification` -/
def handleDeathNotification (s : SlotServer) (deathID : Int) :
    ServerKind → Except Failure SlotServer
  | .console =>
      match s.clientQueueDeleteDeathID deathID with
      | some s => .ok s
      | none => .error .assertion
  | .file => .ok (s.clientQueueDelete deathID)

end SlotServer

/-- The messages that concern slots. The id of a client comes from the badge of the message. -/
inductive SlotEvent where
  | connect (caps : Bool) (liveness : Nat) (o : ConnectOutcome)
  | setParamBuffer (id : Nat) (caps : Bool) (dataspace size : Nat)
  | disconnect (id : Nat)
  | death (server : ServerKind) (deathIDs : List Int)
  deriving DecidableEq, Repr

/-- The handler of a message. -/
def handleSlot (s : SlotServer) : SlotEvent → Except Failure SlotServer
  | .connect caps liveness o => s.srvCtableConnectDirectHandler caps liveness o
  | .setParamBuffer id caps dataspace size =>
      match s.clientGet id with
      | some c => .ok (s.srvCtableSetParamBufferHandler id c caps dataspace size)
      | none => .ok s
  | .disconnect id =>
      match s.clientGet id with
      | some c => .ok (s.clientQueueDelete c.cID)
      | none => .ok s
  | .death server deathIDs =>
      deathIDs.foldlM (fun s deathID => s.handleDeathNotification deathID server) s

/-- One round of a server's loop: a message, then `client_table_postaction`. -/
def slotStep (s : SlotServer) (e : SlotEvent) : Except Failure SlotServer := do
  let s ← handleSlot s e
  s.clientTablePostaction

/-! ## Who holds which slot -/

/-- What a client keeps a slot for. -/
inductive SlotRole where
  | liveness
  | session
  | paramBuffer
  deriving DecidableEq, Repr

/-- The slot of a client, or 0. -/
def SlotClient.slot (c : SlotClient) : SlotRole → Nat
  | .liveness => c.liveness
  | .session => c.session
  | .paramBuffer => c.paramBuffer

/-- A slot, unless it is 0. -/
def nonNull (x : Nat) : Option Nat := if x = 0 then none else some x

/-- The slots held by the clients of a table. -/
def slotHolders (table : Nat → Option SlotClient) (k : Nat × SlotRole) : Option Nat :=
  (table k.1).bind fun c => nonNull (c.slot k.2)

/-- The free slots are distinct slots of the interval, and no live client holds one of them. So
`csalloc` does not hand out a slot in use. -/
structure SlotServer.KeptApart (start stop : Nat) (s : SlotServer) : Prop where
  nodup : s.freeList.Nodup
  range : ∀ x ∈ s.freeList, start ≤ x ∧ x < stop
  length_le : s.freeList.length ≤ stop - start
  disjoint : ∀ id c role, s.allocTable.table id = some c → c.slot role ≠ 0 →
    c.slot role ∉ s.freeList
  csalloc_unused : ∀ id c role, s.allocTable.table id = some c → c.slot role ≠ 0 →
    (csalloc s.freeList).1 ≠ c.slot role

/-- A `connect` gets as far as `proc_watch_client`: the capability came along, there are two slots,
memory for the client and an id, and the session capability is minted. -/
def SlotServer.ReachesWatch (s : SlotServer) (caps : Bool) (liveness : Nat) (o : ConnectOutcome) :
    Prop :=
  caps = true ∧ liveness ≠ 0 ∧ (csalloc s.freeList).1 ≠ 0 ∧
    (csalloc (csalloc s.freeList).2).1 ≠ 0 ∧ s.allocTable.pool.alloc.isSome ∧ o.malloc = true ∧
    o.mint = true

instance (s : SlotServer) (caps : Bool) (liveness : Nat) (o : ConnectOutcome) :
    Decidable (s.ReachesWatch caps liveness o) :=
  inferInstanceAs (Decidable (_ ∧ _))

/-- The watch of a new client succeeds, and a parameter buffer is unset only where there is one. -/
def SlotServer.Careful (s : SlotServer) : SlotEvent → Prop
  | .connect caps liveness o => s.ReachesWatch caps liveness o → o.watch.isSome
  | .setParamBuffer id _ dataspace size =>
      dataspace = 0 ∧ size = 0 → ∀ c ∈ s.clientGet id, c.paramBuffer ≠ 0
  | .disconnect _ | .death _ _ => True

instance (s : SlotServer) : (e : SlotEvent) → Decidable (s.Careful e)
  | .connect _ _ _ => inferInstanceAs (Decidable (_ → _))
  | .setParamBuffer _ _ _ _ => inferInstanceAs (Decidable (_ → ∀ c ∈ _, _))
  | .disconnect _ | .death _ _ => inferInstanceAs (Decidable True)

/-- The invariant. -/
structure SlotServer.Ok (start stop : Nat) (s : SlotServer) : Prop where
  coat : s.allocTable.Ok
  slots : SlotsOk (fun x => start ≤ x ∧ x < stop) s.freeList (slotHolders s.allocTable.table)

/-! ## `csalloc` and `csfree` -/

@[simp] theorem nonNull_zero : nonNull 0 = none := rfl

theorem nonNull_of_ne {x : Nat} (h : x ≠ 0) : nonNull x = some x := if_neg h

theorem csalloc_cases (l : List Nat) :
    (l = [] ∧ csalloc l = (0, l)) ∨ ∃ init x, l = init ++ [x] ∧ csalloc l = (x, init) := by
  cases hlast : l.getLast? with
  | none => exact Or.inl ⟨List.getLast?_eq_none_iff.1 hlast, by simp [csalloc, hlast]⟩
  | some x =>
      obtain ⟨init, rfl⟩ := List.getLast?_eq_some_iff.1 hlast
      exact Or.inr ⟨init, x, rfl, by simp [csalloc]⟩

theorem csalloc_sublist (l : List Nat) : (csalloc l).2.Sublist l := by
  rcases csalloc_cases l with ⟨_, hl⟩ | ⟨init, x, rfl, hl⟩
  · rw [hl]
  · rw [hl]
    exact List.sublist_append_left _ _

theorem rpcCopyoutCptr_sublist (v : Nat) (l : List Nat) : (rpcCopyoutCptr v l).2.Sublist l := by
  rw [rpcCopyoutCptr]
  split_ifs
  · exact List.Sublist.refl _
  · exact csalloc_sublist _

/-- A slot that is not 0 was the last one of the free list. -/
theorem eq_of_csalloc_ne_zero {l : List Nat} (h : (csalloc l).1 ≠ 0) :
    l = (csalloc l).2 ++ [(csalloc l).1] := by
  rcases csalloc_cases l with ⟨_, hl⟩ | ⟨init, x, rfl, hl⟩
  · rw [hl] at h
    exact absurd rfl h
  · rw [hl]

/-! ## Deleting a client -/

section Delete

variable {P : Nat → Prop} {free : List Nat} {holds : Nat × SlotRole → Option Nat}

theorem slotsOk_giveBack {k : Nat × SlotRole} {x : Nat} (h : SlotsOk P free holds)
    (hk : holds k = nonNull x) :
    SlotsOk P (if x ≠ 0 then csfree free x else free) (Function.update holds k none) := by
  by_cases hx : x = 0
  · rw [if_neg (by simpa using hx)]
    exact h.lose k
  · rw [if_pos hx]
    exact h.give (hk.trans (nonNull_of_ne hx))

/-- `client_oat_delete` gives back the slots of the client. -/
theorem slotsOk_clientOatDelete {table : Nat → Option SlotClient} {id : Nat} {c : SlotClient}
    (h : SlotsOk P free (slotHolders table)) (hc : table id = some c) :
    SlotsOk P (clientOatDelete free c) (slotHolders (Function.update table id none)) := by
  have hheld : ∀ role, slotHolders table (id, role) = nonNull (c.slot role) := by
    intro role
    rw [slotHolders, hc]
    rfl
  have h₁ := slotsOk_giveBack h (hheld .liveness)
  have h₂ := slotsOk_giveBack (k := (id, .session)) h₁ (by simpa using hheld .session)
  have h₃ := slotsOk_giveBack (k := (id, .paramBuffer)) h₂ (by simpa using hheld .paramBuffer)
  have hnone : slotHolders (Function.update table id none) = Function.update (Function.update
      (Function.update (slotHolders table) (id, .liveness) none) (id, .session) none)
      (id, .paramBuffer) none := by
    funext ⟨i, role⟩
    by_cases hi : i = id
    · subst hi
      cases role <;> simp [slotHolders]
    · simp [slotHolders, hi]
  rw [hnone]
  exact h₃

end Delete

namespace SlotServer

variable {start stop : Nat} {s s' : SlotServer}

theorem Ok.init (start stop maxClients : Nat) :
    (SlotServer.init start stop maxClients).Ok start stop where
  coat := .init (by omega) (by omega)
  slots := by
    refine .init ?_ ?_
    · exact List.nodup_range.map fun a b hab => Nat.add_left_cancel hab
    · intro x hx
      obtain ⟨i, hi, rfl⟩ := List.mem_map.1 hx
      have := List.mem_range.1 hi
      omega

/-- Two servers with the same free list and the same clients, whatever their queues. -/
def SameSlots (s s' : SlotServer) : Prop :=
  s'.freeList = s.freeList ∧ s'.allocTable = s.allocTable

theorem Ok.of_sameSlots (h : s.Ok start stop) (hsame : s.SameSlots s') : s'.Ok start stop :=
  ⟨hsame.2 ▸ h.coat, hsame.1 ▸ hsame.2 ▸ h.slots⟩

theorem Ok.freeClient (h : s.Ok start stop) (id : Int) : (s.freeClient id).Ok start stop := by
  rw [SlotServer.freeClient]
  cases hdel : s.allocTable.toDelete id.toNat with
  | none => exact h
  | some c =>
      have hc := Coat.table_of_toDelete hdel
      exact ⟨(h.coat.remove hc).1, slotsOk_clientOatDelete h.slots hc⟩

theorem Ok.freePending {pending : List Int} (h : s.Ok start stop)
    (hs' : freePending pending s = .ok s') : s'.Ok start stop := by
  induction pending generalizing s with
  | nil => exact Except.ok.inj hs' ▸ h
  | cons id pending ih =>
      rw [SlotServer.freePending] at hs'
      split_ifs at hs'
      exact ih (h.freeClient id) hs'

theorem Ok.postaction (h : s.Ok start stop) (hs' : s.clientTablePostaction = .ok s') :
    s'.Ok start stop := by
  obtain ⟨t, ht, hs'⟩ := bind_eq_ok_iff.1 hs'
  obtain rfl := Except.ok.inj hs'
  exact (h.freePending ht).of_sameSlots ⟨rfl, rfl⟩

theorem sameSlots_clientQueueDelete (s : SlotServer) (id : Int) :
    s.SameSlots (s.clientQueueDelete id) := by
  rw [clientQueueDelete]
  split_ifs <;> exact ⟨rfl, rfl⟩

/-! ## The handlers keep it -/

/-- The new client of `client_alloc` has the last slot for its session. -/
theorem clientAlloc_some {liveness id : Nat} {o : ConnectOutcome} {c : SlotClient}
    (h : s.allocTable.Ok) (hs' : s.clientAlloc liveness o = (some (id, c), s')) :
    s'.allocTable.Ok ∧ s'.allocTable.table = Function.update s.allocTable.table id (some c) ∧
      s.allocTable.table id = none ∧ s.allocTable.pool.alloc.isSome ∧ o.malloc = true ∧
      o.mint = true ∧ c = { cID := id, liveness := liveness, session := (csalloc s.freeList).1 } ∧
      (csalloc s.freeList).1 ≠ 0 ∧ s'.freeList = (csalloc s.freeList).2 := by
  simp only [clientAlloc, Prod.mk.injEq] at hs'
  obtain ⟨hnew, rfl⟩ := hs'
  obtain ⟨hok, htable, hnone, hcreate, ⟨pool, hpool⟩, _⟩ :=
    h.of_alloc_some (Prod.ext hnew rfl)
  split_ifs at hcreate with hfail
  simp only [not_or, Bool.not_eq_false] at hfail
  obtain ⟨hmalloc, hsession, hmint⟩ := hfail
  refine ⟨hok, htable, hnone, by simp [hpool], hmalloc, hmint, (Option.some.inj hcreate).symm,
    hsession, ?_⟩
  simp [hpool, hnone, hmalloc, hsession, hmint]

/-- Without a client, `client_alloc` leaves the free list as it was; a slot 0 is lost. -/
theorem clientAlloc_none {liveness : Nat} {o : ConnectOutcome} (h : s.allocTable.Ok)
    (hs' : s.clientAlloc liveness o = (none, s')) :
    s'.allocTable.Ok ∧ s'.allocTable.table = s.allocTable.table ∧
      s'.freeList.Sublist s.freeList := by
  simp only [clientAlloc, Prod.mk.injEq] at hs'
  obtain ⟨hnew, rfl⟩ := hs'
  obtain ⟨hok, htable, _⟩ := h.of_alloc_none (Prod.ext hnew rfl)
  refine ⟨hok, htable, ?_⟩
  simp only
  split_ifs with hcalled hsession hmint
  · exact List.Sublist.refl _
  · exact csalloc_sublist _
  · rw [csfree, ← eq_of_csalloc_ne_zero hsession]
  · exact csalloc_sublist _

theorem slotHolders_insert {table : Nat → Option SlotClient} {id : Nat} {c : SlotClient}
    (hid : table id = none) (hlive : c.liveness ≠ 0) (hsession : c.session ≠ 0)
    (hparam : c.paramBuffer = 0) :
    slotHolders (Function.update table id (some c)) =
      Function.update (Function.update (slotHolders table) (id, .liveness) (some c.liveness))
        (id, .session) (some c.session) := by
  funext ⟨i, role⟩
  by_cases hi : i = id
  · subst hi
    cases role <;> simp [slotHolders, SlotClient.slot, hid, nonNull_of_ne, hlive, hsession, hparam]
  · simp [slotHolders, hi]

theorem slotHolders_setParam {table : Nat → Option SlotClient} {id paramBuffer size : Nat}
    {c : SlotClient} (hid : table id = some c) :
    slotHolders (Function.update table id
        (some { c with paramBuffer := paramBuffer, paramBufferSize := size })) =
      Function.update (slotHolders table) (id, .paramBuffer) (nonNull paramBuffer) := by
  funext ⟨i, role⟩
  by_cases hi : i = id
  · subst hi
    cases role <;> simp [slotHolders, SlotClient.slot, hid]
  · simp [slotHolders, hi]

theorem slotHolders_setDeathID {table : Nat → Option SlotClient} {id : Nat} {c : SlotClient}
    (hid : table id = some c) (deathID : Int) :
    slotHolders (Function.update table id (some { c with deathID := deathID })) =
      slotHolders table := by
  funext ⟨i, role⟩
  by_cases hi : i = id
  · subst hi
    cases role <;> simp [slotHolders, SlotClient.slot, hid]
  · simp [slotHolders, hi]

theorem Ok.connect {caps : Bool} {liveness : Nat} {o : ConnectOutcome} (h : s.Ok start stop)
    (hcareful : s.Careful (.connect caps liveness o))
    (hs' : s.srvCtableConnectDirectHandler caps liveness o = .ok s') : s'.Ok start stop := by
  simp only [srvCtableConnectDirectHandler] at hs'
  split_ifs at hs' with hcaps hnull
  · exact Except.ok.inj hs' ▸ h
  · obtain rfl := Except.ok.inj hs'
    exact ⟨h.coat, h.slots.sublist (rpcCopyoutCptr_sublist _ _)⟩
  · obtain ⟨hliveness, hslot⟩ := not_or.1 hnull
    rw [rpcCopyoutCptr, if_neg hliveness] at hslot hs'
    have hlist := eq_of_csalloc_ne_zero hslot
    have hslots := h.slots
    rw [hlist] at hslots
    -- what `client_alloc` gets to see is the free list without the liveness slot
    split at hs'
    · rename_i s₁ halloc
      obtain rfl := Except.ok.inj hs'
      obtain ⟨hok, htable, hsub⟩ :=
        clientAlloc_none (s := { s with freeList := (csalloc s.freeList).2 }) h.coat halloc
      refine ⟨hok, ?_⟩
      show SlotsOk _ (s₁.freeList ++ [_]) (slotHolders s₁.allocTable.table)
      rw [htable]
      exact hslots.sublist (hsub.append_right _)
    · rename_i id c s₁ halloc
      obtain ⟨hok, htable, hnone, hpool, hmalloc, hmint, hc, hsession, hfree⟩ :=
        clientAlloc_some (s := { s with freeList := (csalloc s.freeList).2 }) h.coat halloc
      have hwatch := hcareful ⟨by simpa using hcaps, hliveness, hslot, hsession, hpool, hmalloc,
        hmint⟩
      obtain ⟨deathID, hdeathID⟩ := Option.isSome_iff_exists.1 hwatch
      rw [hdeathID] at hs'
      obtain rfl := Except.ok.inj hs'
      have hid : s₁.allocTable.table id = some c := by simp [htable]
      refine ⟨hok.set (by simp [hid]) _, ?_⟩
      show SlotsOk _ s₁.freeList (slotHolders (Function.update s₁.allocTable.table id _))
      rw [slotHolders_setDeathID hid, htable, hfree, slotHolders_insert hnone
        (by simpa [hc] using hslot) (by simpa [hc] using hsession) (by simp [hc]), hc]
      have htaken := hslots.take (id, .liveness)
      have hsession' : (csalloc (csalloc s.freeList).2).1 ≠ 0 := hsession
      rw [eq_of_csalloc_ne_zero hsession'] at htaken
      exact htaken.take (id, .session)

theorem Ok.setParamBuffer {id dataspace size : Nat} {caps : Bool} {c : SlotClient}
    (h : s.Ok start stop) (hc : s.allocTable.table id = some c)
    (hcareful : dataspace = 0 ∧ size = 0 → c.paramBuffer ≠ 0) :
    (s.srvCtableSetParamBufferHandler id c caps dataspace size).Ok start stop := by
  have hset : ∀ new, (s.allocTable.set id new).Ok := h.coat.set (by simp [hc])
  simp only [srvCtableSetParamBufferHandler]
  split_ifs with hunset hcaps hsize hzero
  · -- the buffer is given back
    refine ⟨hset _, ?_⟩
    have hheld : slotHolders s.allocTable.table (id, .paramBuffer) = some c.paramBuffer := by
      simp [slotHolders, hc, SlotClient.slot, nonNull_of_ne (hcareful hunset)]
    show SlotsOk _ _ (slotHolders (Function.update s.allocTable.table id _))
    rw [slotHolders_setParam hc]
    exact h.slots.give hheld
  · exact h
  · exact h
  · refine ⟨hset _, ?_⟩
    show SlotsOk _ _ (slotHolders (Function.update s.allocTable.table id _))
    rw [slotHolders_setParam hc]
    exact (h.slots.lose _).sublist (rpcCopyoutCptr_sublist _ _)
  · -- the buffer that there was is lost
    have hnull : dataspace ≠ 0 := by
      rintro rfl
      exact hzero rfl
    rw [rpcCopyoutCptr, if_neg hnull] at hzero ⊢
    refine ⟨hset _, ?_⟩
    show SlotsOk _ _ (slotHolders (Function.update s.allocTable.table id _))
    rw [slotHolders_setParam hc, nonNull_of_ne hzero]
    have hslots := h.slots
    rw [eq_of_csalloc_ne_zero hzero] at hslots
    exact hslots.take (id, .paramBuffer)

theorem sameSlots_handleDeathNotification {deathID : Int} {server : ServerKind}
    (hs' : s.handleDeathNotification deathID server = .ok s') : s.SameSlots s' := by
  cases server with
  | file => exact Except.ok.inj hs' ▸ s.sameSlots_clientQueueDelete deathID
  | console =>
      simp only [handleDeathNotification] at hs'
      split at hs'
      · rename_i t ht
        obtain ⟨c, _, rfl⟩ := Option.map_eq_some_iff.1 ht
        exact Except.ok.inj hs' ▸ s.sameSlots_clientQueueDelete c.cID
      · cases hs'

theorem Ok.deaths {server : ServerKind} {deathIDs : List Int} (h : s.Ok start stop)
    (hs' : deathIDs.foldlM (fun s deathID => s.handleDeathNotification deathID server) s =
      .ok s') : s'.Ok start stop := by
  induction deathIDs generalizing s with
  | nil => exact Except.ok.inj hs' ▸ h
  | cons deathID deathIDs ih =>
      rw [List.foldlM_cons] at hs'
      obtain ⟨t, ht, hs'⟩ := bind_eq_ok_iff.1 hs'
      exact ih (h.of_sameSlots (sameSlots_handleDeathNotification ht)) hs'

theorem table_of_clientGet {id : Nat} {c : SlotClient} (hc : s.clientGet id = some c) :
    s.allocTable.table id = some c := by
  rw [clientGet] at hc
  split_ifs at hc
  exact Coat.table_of_get hc

theorem Ok.step {e : SlotEvent} (h : s.Ok start stop) (hcareful : s.Careful e)
    (hs' : slotStep s e = .ok s') : s'.Ok start stop := by
  obtain ⟨t, ht, hpost⟩ := bind_eq_ok_iff.1 hs'
  refine Ok.postaction ?_ hpost
  cases e with
  | connect caps liveness o => exact h.connect hcareful ht
  | setParamBuffer id caps dataspace size =>
      simp only [handleSlot] at ht
      split at ht
      · rename_i c hc
        obtain rfl := Except.ok.inj ht
        exact h.setParamBuffer (table_of_clientGet hc) fun hunset => hcareful hunset c hc
      · exact Except.ok.inj ht ▸ h
  | disconnect id =>
      simp only [handleSlot] at ht
      split at ht
      · exact Except.ok.inj ht ▸ h.of_sameSlots (s.sameSlots_clientQueueDelete _)
      · exact Except.ok.inj ht ▸ h
  | death server deathIDs => exact h.deaths ht

theorem Ok.keptApart (h : s.Ok start stop) : s.KeptApart start stop := by
  have hdisjoint : ∀ id c role, s.allocTable.table id = some c → c.slot role ≠ 0 →
      c.slot role ∉ s.freeList := by
    intro id c role hc hslot
    refine h.slots.disjoint (id, role) _ ?_
    simp [slotHolders, hc, nonNull_of_ne hslot]
  refine ⟨h.slots.nodup, h.slots.free_mem, ?_, hdisjoint, ?_⟩
  · rw [← Nat.card_Ico, ← List.toFinset_card_of_nodup h.slots.nodup]
    refine Finset.card_le_card fun x hx => ?_
    exact Finset.mem_Ico.2 (h.slots.free_mem x (List.mem_toFinset.1 hx))
  · intro id c role hc hslot heq
    have hlist := eq_of_csalloc_ne_zero (heq ▸ hslot)
    refine hdisjoint id c role hc hslot ?_
    rw [hlist, heq]
    exact List.mem_append_right _ (List.mem_singleton.2 rfl)

end SlotServer

/-- **Capability slots.** In every run of connections, settings of parameter buffers,
disconnections and deaths, from any interval of slots: if no watch of a new client fails and a
parameter buffer is unset only where there is one, then after every message the free slots are
distinct slots of the interval, and no live client holds one of them. -/
theorem slots_kept_apart (start stop maxClients : Nat) (evs : List SlotEvent) (s : SlotServer)
    (hrun : Run slotStep SlotServer.Careful (SlotServer.init start stop maxClients) evs s) :
    s.KeptApart start stop := by
  have hok : s.Ok start stop := by
    refine hrun.invariant (.init start stop maxClients) ?_
    intro t e u h hcareful hu
    exact h.step hcareful hu
  exact hok.keptApart

/-- A client connects, sets a parameter buffer twice, unsets it and disconnects. -/
theorem slots_kept_apart_session :
    ∃ s, Run slotStep SlotServer.Careful (SlotServer.init 8 16 4)
        [.connect true 1 ⟨true, true, some 5⟩, .setParamBuffer 1 true 1 4096,
          .setParamBuffer 1 true 1 4096, .setParamBuffer 1 true 0 0, .disconnect 1] s ∧
      s.freeList = [8, 9, 10, 11, 12, 15, 14] ∧ s.KeptApart 8 16 := by
  obtain ⟨s, hrun, hfree⟩ : ∃ s, Run slotStep SlotServer.Careful (SlotServer.init 8 16 4)
      [.connect true 1 ⟨true, true, some 5⟩, .setParamBuffer 1 true 1 4096,
        .setParamBuffer 1 true 1 4096, .setParamBuffer 1 true 0 0, .disconnect 1] s ∧
      s.freeList = [8, 9, 10, 11, 12, 15, 14] := by
    apply Run.exists_of_exec
    decide +kernel
  exact ⟨s, hrun, hfree, slots_kept_apart 8 16 4 _ s hrun⟩

/-- A connection whose watch fails frees slot 15 twice, and the next two clients share it. A client
without a parameter buffer that unsets it frees slot 0. -/
theorem connect_frees_slot_twice :
    (∃ s, Run slotStep (fun _ _ => True) (SlotServer.init 8 16 4)
        [.connect true 1 ⟨true, true, none⟩] s ∧
      s.freeList = [8, 9, 10, 11, 12, 13, 15, 14, 15] ∧ ¬s.KeptApart 8 16) ∧
    (∃ s, Run slotStep (fun _ _ => True) (SlotServer.init 8 16 4)
        [.connect true 1 ⟨true, true, none⟩, .connect true 1 ⟨true, true, some 5⟩,
          .connect true 1 ⟨true, true, some 6⟩] s ∧
      ((s.allocTable.table 1).map fun c => c.liveness) = some 15 ∧
      ((s.allocTable.table 2).map fun c => c.liveness) = some 15) ∧
    ∃ s, Run slotStep (fun _ _ => True) (SlotServer.init 8 16 4)
        [.connect true 1 ⟨true, true, some 5⟩, .setParamBuffer 1 true 0 0] s ∧
      s.freeList = [8, 9, 10, 11, 12, 13, 0] ∧ ¬s.KeptApart 8 16 := by
  refine ⟨?_, ?_, ?_⟩
  · obtain ⟨s, hrun, hfree⟩ : ∃ s, Run slotStep (fun _ _ => True) (SlotServer.init 8 16 4)
        [.connect true 1 ⟨true, true, none⟩] s ∧
        s.freeList = [8, 9, 10, 11, 12, 13, 15, 14, 15] := by
      apply Run.exists_of_exec
      decide +kernel
    refine ⟨s, hrun, hfree, fun h => ?_⟩
    have hnodup := h.nodup
    rw [hfree] at hnodup
    revert hnodup
    decide
  · apply Run.exists_of_exec
    decide +kernel
  · obtain ⟨s, hrun, hfree⟩ : ∃ s, Run slotStep (fun _ _ => True) (SlotServer.init 8 16 4)
        [.connect true 1 ⟨true, true, some 5⟩, .setParamBuffer 1 true 0 0] s ∧
        s.freeList = [8, 9, 10, 11, 12, 13, 0] := by
      apply Run.exists_of_exec
      decide +kernel
    refine ⟨s, hrun, hfree, fun h => ?_⟩
    have hrange := h.range 0 (by simp [hfree])
    omega

end PartitionSeL4.Refos
