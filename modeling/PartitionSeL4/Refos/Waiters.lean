import PartitionSeL4.Refos.Session
import PartitionSeL4.Refos.Input

/-!
# Waiters and their clients

The console server keeps a list of the callers blocked in `getc`, the timer server one of those that
sleep. A waiter points to the structure of its client, and an interrupt that answers it writes to
this structure. The client table frees the structures of clients that disconnect or die, in
`client_table_postaction`. The function that was to remove a client's waiters before that,
`input_purge_client`, is neither implemented nor called.

The two servers are instances of one `WaitDevice`. `waiters_allocated` says that their waiters point
to clients in the table as long as no client with a waiter is in the queue when
`client_table_postaction` runs.
-/

namespace PartitionSeL4.Refos

open Lib

/-! ## `device_timer.c` -/

/-- `struct device_timer_waiter` -/
structure DeviceTimerWaiter where
  time : Nat
  reply : Nat
  client : Nat
  deriving DecidableEq, Repr

/-- `device_timer_update_sleepers`: the waiters that are left and those answered. The loop stays at
its index after it has deleted a waiter. -/
def deviceTimerUpdateSleepers (time : Nat) :
    List DeviceTimerWaiter → List DeviceTimerWaiter × List DeviceTimerWaiter
  | [] => ([], [])
  | waiter :: waiters =>
      let (left, answered) := deviceTimerUpdateSleepers time waiters
      if time < waiter.time then (waiter :: left, answered) else (left, waiter :: answered)

/-- A write to the timer dataspace: the size of the buffer, the time to wait, the time it is, the
slot for the reply capability, and whether the caller can be saved. -/
structure SleepRequest where
  count : Nat
  timeWait : Nat
  now : Nat
  reply : Nat
  o : SaveOutcome
  deriving DecidableEq, Repr

/-- `timer_write_handler`, with `device_timer_save_caller_as_waiter`. `TICK_TIMER_SCALE_NS` is 1. -/
def timerWriteHandler (waiters : List DeviceTimerWaiter) (client : Nat) (r : SleepRequest) :
    List DeviceTimerWaiter :=
  if r.count < 8 then waiters
  else if r.o.saved then
    waiters ++ [{ time := (r.timeWait / 1 + r.now) % 2 ^ 64, reply := r.reply, client := client }]
  else waiters

/-! ## A server whose clients wait for interrupts -/

/-- A device that answers its callers from an interrupt. -/
structure WaitDevice (δ ρ ι : Type) where
  /-- The call of a client, given by the address of its structure. -/
  call : δ → Nat → ρ → Except Failure δ
  /-- An interrupt: the clients through which it replies, and the device. -/
  irq : δ → ι → Except Failure (List Nat × δ)
  /-- The clients that the waiters point to. -/
  clients : δ → List Nat

/-- The client that a departure from the backlog was an answer to. -/
def Departure.client : Departure → Option Nat
  | .dropped _ _ | .delivered _ none => none
  | .delivered _ (some waiter) => some waiter.client

/-- The input of the console server. -/
def consoleDevice : WaitDevice InputState (Bool × SaveOutcome) (List Int) where
  call s client r := do
    let (_, s) ← serialGetcHandler s client r.1 r.2
    return s
  irq s chars := do
    let s' ← inputHandleIrq s chars
    return ((s'.gone.drop s.gone.length).filterMap Departure.client, s')
  clients s := s.waiterList.map InputWaiter.client

/-- The timer of the timer server. An interrupt finds some time. -/
def timerDevice : WaitDevice (List DeviceTimerWaiter) SleepRequest Nat where
  call waiters client r := .ok (timerWriteHandler waiters client r)
  irq waiters time :=
    let (left, answered) := deviceTimerUpdateSleepers time waiters
    .ok (answered.map DeviceTimerWaiter.client, left)
  clients waiters := waiters.map DeviceTimerWaiter.client

/-- A server: its device, its client table, and the addresses of the client structures. An address
is used for one structure only, so that a pointer to a freed one stays dangling. -/
structure WaitServer (δ : Type) where
  dev : δ
  ct : ClientTable
  addr : Nat → Nat
  nextAddr : Nat

/-- `client_table_init` -/
def WaitServer.init {δ : Type} (dev : δ) (maxClients : Nat) : WaitServer δ where
  dev := dev
  ct := clientTableInit maxClients
  addr _ := 0
  nextAddr := 1

/-- What happens to a server. -/
inductive WaitEvent (ρ ι : Type) where
  | connect (liveness : Nat) (resources : Bool) (watch : Option Int)
  | call (id : Nat) (r : ρ)
  | disconnect (id : Nat)
  | death (deathIDs : List Int)
  | postaction
  | irq (i : ι)

section Server

variable {δ ρ ι : Type}

/-- `srv_ctable_connect_direct_handler`, with the address of the new structure. -/
def WaitServer.connect (s : WaitServer δ) (liveness : Nat) (resources : Bool)
    (watch : Option Int) : Except Failure (WaitServer δ) := do
  let ct ← srvCtableConnectDirectHandler s.ct liveness resources watch
  let addr := match (s.ct.allocTable.alloc (clientOatCreate liveness resources)).1 with
    | some (id, _) => Function.update s.addr id s.nextAddr
    | none => s.addr
  return { s with ct := ct, addr := addr, nextAddr := s.nextAddr + 1 }

/-- The effect of an event. Both servers handle a death as the console server does. -/
def waitStep (d : WaitDevice δ ρ ι) (s : WaitServer δ) :
    WaitEvent ρ ι → Except Failure (WaitServer δ)
  | .connect liveness resources watch => s.connect liveness resources watch
  | .call id r =>
      match clientGet s.ct id with
      | some _ => do
          let dev ← d.call s.dev (s.addr id) r
          return { s with dev := dev }
      | none => .ok s
  | .disconnect id => .ok { s with ct := srvCtableDisconnectDirectHandler s.ct id }
  | .death deathIDs => do
      let ct ← srvDispatchNotification .console deathIDs s.ct
      return { s with ct := ct }
  | .postaction => do
      let ct ← clientTablePostaction s.ct
      return { s with ct := ct }
  | .irq i => do
      let (_, dev) ← d.irq s.dev i
      return { s with dev := dev }

/-- The structure at an address is that of a client in the table. -/
def WaitServer.Allocated (s : WaitServer δ) (client : Nat) : Prop :=
  ∃ id, (session s.ct id).isSome ∧ s.addr id = client

/-- No client in the queue has a waiter. -/
def WaitServer.QueueIdle (d : WaitDevice δ ρ ι) (s : WaitServer δ) : Prop :=
  ∀ id ∈ s.ct.pendingFreeList, s.addr id.toNat ∉ d.clients s.dev

/-- Where `client_table_postaction` runs, no client in the queue has a waiter. A `connect` calls it
when the watch of the new client fails. -/
def WaitServer.Purged (d : WaitDevice δ ρ ι) (s : WaitServer δ) : WaitEvent ρ ι → Prop
  | .connect _ resources watch =>
      resources = true ∧ s.ct.allocTable.pool.alloc.isSome ∧ watch = none → s.QueueIdle d
  | .postaction => s.QueueIdle d
  | .call _ _ | .disconnect _ | .death _ | .irq _ => True

instance (d : WaitDevice δ ρ ι) (s : WaitServer δ) : Decidable (s.QueueIdle d) :=
  inferInstanceAs (Decidable (∀ id ∈ _, _))

instance (d : WaitDevice δ ρ ι) (s : WaitServer δ) : (e : WaitEvent ρ ι) → Decidable (s.Purged d e)
  | .connect _ _ _ => inferInstanceAs (Decidable (_ ∧ _ ∧ _ → s.QueueIdle d))
  | .postaction => inferInstanceAs (Decidable (s.QueueIdle d))
  | .call _ _ | .disconnect _ | .death _ | .irq _ => inferInstanceAs (Decidable True)

/-- Every waiter points to an allocated client, and so does whatever an interrupt replies
through. -/
structure WaitServer.WaitersAllocated (d : WaitDevice δ ρ ι) (s : WaitServer δ) : Prop where
  waiter : ∀ client ∈ d.clients s.dev, s.Allocated client
  reply : ∀ i replied dev, d.irq s.dev i = .ok (replied, dev) →
    ∀ client ∈ replied, s.Allocated client

/-! ## The devices -/

/-- A call adds no other client than its own, and an interrupt replies through the clients of
waiters and adds none. -/
structure WaitDevice.Lawful (d : WaitDevice δ ρ ι) : Prop where
  call : ∀ s client r s', d.call s client r = .ok s' →
    ∀ c ∈ d.clients s', c = client ∨ c ∈ d.clients s
  irq : ∀ s i replied s', d.irq s i = .ok (replied, s') →
    d.clients s' ⊆ d.clients s ∧ replied ⊆ d.clients s

end Server

theorem deviceTimerUpdateSleepers_sublist (time : Nat) (waiters : List DeviceTimerWaiter) :
    (deviceTimerUpdateSleepers time waiters).1.Sublist waiters ∧
      (deviceTimerUpdateSleepers time waiters).2.Sublist waiters := by
  induction waiters with
  | nil => exact ⟨List.Sublist.refl _, List.Sublist.refl _⟩
  | cons waiter waiters ih =>
      simp only [deviceTimerUpdateSleepers]
      split_ifs
      · exact ⟨ih.1.cons_cons waiter, ih.2.cons waiter⟩
      · exact ⟨ih.1.cons waiter, ih.2.cons_cons waiter⟩

theorem timerDevice_lawful : timerDevice.Lawful where
  call waiters client r waiters' h c hc := by
    obtain rfl := Except.ok.inj h
    simp only [timerDevice, timerWriteHandler] at hc ⊢
    split_ifs at hc
    · exact Or.inr hc
    · rw [List.map_append, List.mem_append] at hc
      rcases hc with hc | hc
      · exact Or.inr hc
      · exact Or.inl (by simpa using hc)
    · exact Or.inr hc
  irq waiters time replied waiters' h := by
    obtain ⟨hleft, hanswered⟩ := deviceTimerUpdateSleepers_sublist time waiters
    obtain ⟨rfl, rfl⟩ := Prod.mk.inj (Except.ok.inj h)
    exact ⟨(hleft.map _).subset, (hanswered.map _).subset⟩

/-- From `s` to `s'` the backlog was left by answers to some of `clients` only, if by any. -/
def AnswersOnly (clients : List Nat) (s s' : InputState) : Prop :=
  ∃ l, s'.gone = s.gone ++ l ∧ ∀ x ∈ l, ∀ c, x.client = some c → c ∈ clients

section Console

variable {clients : List Nat} {s t u : InputState}

theorem AnswersOnly.of_eq (h : t.gone = s.gone) : AnswersOnly clients s t :=
  ⟨[], by simp [h], by simp⟩

theorem AnswersOnly.single {x : Departure} (h : t.gone = s.gone ++ [x])
    (hx : ∀ c, x.client = some c → c ∈ clients) : AnswersOnly clients s t :=
  ⟨[x], h, fun y hy => by rwa [List.mem_singleton.1 hy]⟩

theorem AnswersOnly.trans (h : AnswersOnly clients s t) (h' : AnswersOnly clients t u) :
    AnswersOnly clients s u := by
  obtain ⟨l, hl, hmem⟩ := h
  obtain ⟨l', hl', hmem'⟩ := h'
  refine ⟨l ++ l', by rw [hl', hl, List.append_assoc], fun x hx => ?_⟩
  rcases List.mem_append.1 hx with hx | hx
  · exact hmem x hx
  · exact hmem' x hx

theorem pruneBacklog_answersOnly (clients : List Nat) {n : Nat} (h : pruneBacklog n s = .ok t) :
    t.waiterList = s.waiterList ∧ AnswersOnly clients s t := by
  induction n generalizing s with
  | zero =>
      obtain rfl := Except.ok.inj h
      exact ⟨rfl, .of_eq rfl⟩
  | succ n ih =>
      rw [pruneBacklog] at h
      split_ifs at h
      · obtain ⟨⟨item, q⟩, _, h⟩ := bind_eq_ok_iff.1 h
        obtain ⟨hlist, hanswers⟩ := ih h
        refine ⟨hlist, .trans (.single rfl ?_) hanswers⟩
        intro c hc
        cases hc
      · obtain rfl := Except.ok.inj h
        exact ⟨rfl, .of_eq rfl⟩

theorem pushChars_answersOnly (clients : List Nat) {chars : List Int}
    (h : chars.foldlM inputPushChar s = .ok t) :
    t.waiterList = s.waiterList ∧ AnswersOnly clients s t := by
  induction chars generalizing s with
  | nil =>
      obtain rfl := Except.ok.inj h
      exact ⟨rfl, .of_eq rfl⟩
  | cons c chars ih =>
      rw [List.foldlM_cons] at h
      obtain ⟨s₁, hpush, h⟩ := bind_eq_ok_iff.1 h
      obtain ⟨s₂, hprune, hpush⟩ := bind_eq_ok_iff.1 hpush
      obtain rfl := Except.ok.inj hpush
      obtain ⟨hlist, hanswers⟩ := ih h
      obtain ⟨hlist', hanswers'⟩ := pruneBacklog_answersOnly clients hprune
      exact ⟨hlist.trans hlist', hanswers'.trans (.trans (.of_eq rfl) hanswers)⟩

theorem notifyWaiters_answersOnly {waiters : List InputWaiter} (h : notifyWaiters waiters s = .ok t)
    (hsub : waiters.map InputWaiter.client ⊆ clients) :
    t.waiterList.map InputWaiter.client ⊆ clients ∧ AnswersOnly clients s t := by
  induction waiters generalizing s with
  | nil =>
      obtain rfl := Except.ok.inj h
      exact ⟨hsub, .of_eq rfl⟩
  | cons waiter waiters ih =>
      rw [notifyWaiters] at h
      split_ifs at h
      · obtain rfl := Except.ok.inj h
        exact ⟨hsub, .of_eq rfl⟩
      · cases htype : waiter.type with
        | read => simp [htype] at h
        | getc =>
            simp only [htype] at h
            obtain ⟨⟨ch, q⟩, _, h⟩ := bind_eq_ok_iff.1 h
            obtain ⟨hlist, hanswers⟩ := ih h (List.cons_subset.1 hsub).2
            refine ⟨hlist, .trans (.single rfl ?_) hanswers⟩
            intro c hc
            exact Option.some.inj hc ▸ (List.cons_subset.1 hsub).1

theorem inputRead_waiterList {n : Nat} {dest : List Int} (h : inputRead n s = .ok (dest, t)) :
    t.waiterList = s.waiterList := by
  induction n generalizing s dest with
  | zero =>
      obtain ⟨_, rfl⟩ := Prod.mk.inj (Except.ok.inj h)
      rfl
  | succ n ih =>
      rw [inputRead] at h
      split_ifs at h
      · obtain ⟨⟨c, q⟩, _, h⟩ := bind_eq_ok_iff.1 h
        obtain ⟨⟨dest', s'⟩, hread, h⟩ := bind_eq_ok_iff.1 h
        obtain ⟨_, rfl⟩ := Prod.mk.inj (Except.ok.inj h)
        have hlist := ih hread
        exact hlist
      · obtain ⟨_, rfl⟩ := Prod.mk.inj (Except.ok.inj h)
        rfl

theorem consoleDevice_lawful : consoleDevice.Lawful where
  call s client r s' h c hc := by
    obtain ⟨⟨ch, t⟩, hgetc, h⟩ := bind_eq_ok_iff.1 h
    obtain rfl := Except.ok.inj h
    obtain ⟨⟨read, s₁⟩, hread, hgetc⟩ := bind_eq_ok_iff.1 hgetc
    have hlist := inputRead_waiterList hread
    simp only [consoleDevice] at hc ⊢
    cases read with
    | cons ch' read' =>
        obtain ⟨_, rfl⟩ := Prod.mk.inj (Except.ok.inj hgetc)
        exact Or.inr (hlist ▸ hc)
    | nil =>
        simp only at hgetc
        split_ifs at hgetc
        · obtain ⟨_, rfl⟩ := Prod.mk.inj (Except.ok.inj hgetc)
          rw [inputSaveCallerAsWaiter] at hc
          split_ifs at hc
          · rw [List.map_append, List.mem_append] at hc
            rcases hc with hc | hc
            · exact Or.inr (hlist ▸ hc)
            · exact Or.inl (by simpa using hc)
          · exact Or.inr (hlist ▸ hc)
        · obtain ⟨_, rfl⟩ := Prod.mk.inj (Except.ok.inj hgetc)
          exact Or.inr (hlist ▸ hc)
  irq s chars replied s' h := by
    obtain ⟨t, hirq, h⟩ := bind_eq_ok_iff.1 h
    obtain ⟨rfl, rfl⟩ := Prod.mk.inj (Except.ok.inj h)
    obtain ⟨s₁, hpush, hnotify⟩ := bind_eq_ok_iff.1 hirq
    obtain ⟨hlist, hanswers⟩ := pushChars_answersOnly (consoleDevice.clients s) hpush
    rw [hlist] at hnotify
    obtain ⟨hsub, hanswers'⟩ := notifyWaiters_answersOnly hnotify (List.Subset.refl _)
    obtain ⟨l, hl, hmem⟩ := hanswers.trans hanswers'
    refine ⟨hsub, fun c hc => ?_⟩
    rw [hl, List.drop_left] at hc
    obtain ⟨x, hx, hxc⟩ := List.mem_filterMap.1 hc
    exact hmem x hx c hxc

end Console

/-! ## The client table -/

section Table

variable {ct ct' : ClientTable}

theorem clientQueueDelete_table (ct : ClientTable) (id : Int) :
    (clientQueueDelete ct id).allocTable = ct.allocTable ∧
      ∀ i ∈ (clientQueueDelete ct id).pendingFreeList, i = id ∨ i ∈ ct.pendingFreeList := by
  rw [clientQueueDelete]
  split_ifs
  · exact ⟨rfl, fun i hi => Or.inr hi⟩
  · exact ⟨rfl, fun i hi => Or.inr hi⟩
  · refine ⟨rfl, fun i hi => ?_⟩
    rcases List.mem_append.1 hi with hi | hi
    · exact Or.inr hi
    · exact Or.inl (List.mem_singleton.1 hi)

theorem srvCtableDisconnectDirectHandler_table (ct : ClientTable) (id : Int) :
    (srvCtableDisconnectDirectHandler ct id).allocTable = ct.allocTable := by
  rw [srvCtableDisconnectDirectHandler]
  split
  · exact (clientQueueDelete_table _ _).1
  · rfl

theorem srvDispatchNotification_table {deathIDs : List Int}
    (h : srvDispatchNotification .console deathIDs ct = .ok ct') :
    ct'.allocTable = ct.allocTable := by
  induction deathIDs generalizing ct with
  | nil => exact Except.ok.inj h ▸ rfl
  | cons deathID deathIDs ih =>
      obtain ⟨ct₁, hct₁, h⟩ := bind_eq_ok_iff.1 h
      refine (ih h).trans ?_
      simp only [handleDeathNotification] at hct₁
      split at hct₁
      · rename_i ct₂ hct₂
        obtain ⟨c, _, rfl⟩ := Option.map_eq_some_iff.1 hct₂
        exact Except.ok.inj hct₁ ▸ (clientQueueDelete_table ct c.cID).1
      · cases hct₁

theorem freeClient_keeps (h : ct.allocTable.Ok) (id : Int) :
    (freeClient ct id).allocTable.Ok ∧
      ∀ i ≠ id.toNat, session (freeClient ct id) i = session ct i := by
  rw [freeClient]
  split
  · rename_i c hdel
    have hc := Coat.table_of_toDelete hdel
    exact ⟨(h.remove hc).1, fun i hi => Function.update_of_ne hi _ _⟩
  · exact ⟨h, fun _ _ => rfl⟩

theorem freePending_keeps {pending : List Int} (h : ct.allocTable.Ok)
    (hct' : freePending pending ct = .ok ct') :
    ct'.allocTable.Ok ∧ ∀ i, (∀ id ∈ pending, i ≠ id.toNat) → session ct' i = session ct i := by
  induction pending generalizing ct with
  | nil => exact Except.ok.inj hct' ▸ ⟨h, fun _ _ => rfl⟩
  | cons id pending ih =>
      rw [freePending] at hct'
      split_ifs at hct'
      obtain ⟨hok, hkeep⟩ := freeClient_keeps h id
      obtain ⟨hok', hkeep'⟩ := ih hok hct'
      refine ⟨hok', fun i hi => ?_⟩
      rw [hkeep' i fun id' hid' => hi id' (List.mem_cons_of_mem _ hid'),
        hkeep i (hi id List.mem_cons_self)]

theorem postaction_keeps (h : ct.allocTable.Ok) (hct' : clientTablePostaction ct = .ok ct') :
    ct'.allocTable.Ok ∧
      ∀ i, (∀ id ∈ ct.pendingFreeList, i ≠ id.toNat) → session ct' i = session ct i := by
  obtain ⟨ct₁, hct₁, hct'⟩ := bind_eq_ok_iff.1 hct'
  obtain rfl := Except.ok.inj hct'
  obtain ⟨hok, hkeep⟩ := freePending_keeps h hct₁
  exact ⟨hok, hkeep⟩

/-- What a `connect` does to the clients: it adds one or none, and where the watch fails it removes
those in the queue. -/
theorem connect_cases {liveness : Nat} {resources : Bool} {watch : Option Int}
    (h : ct.allocTable.Ok)
    (hct' : srvCtableConnectDirectHandler ct liveness resources watch = .ok ct') :
    ct'.allocTable.Ok ∧
      (((ct.allocTable.alloc (clientOatCreate liveness resources)).1 = none ∧
          ∀ id, session ct' id = session ct id) ∨
        ∃ new c, (ct.allocTable.alloc (clientOatCreate liveness resources)).1 = some (new, c) ∧
          session ct new = none ∧ resources = true ∧ ct.allocTable.pool.alloc.isSome ∧
          ∀ id ≠ new, (watch = none → ∀ p ∈ ct.pendingFreeList, id ≠ p.toNat) →
            session ct' id = session ct id) := by
  simp only [srvCtableConnectDirectHandler] at hct'
  split at hct'
  · rename_i table halloc
    obtain rfl := Except.ok.inj hct'
    obtain ⟨hcoat, htable, _⟩ := h.of_alloc_none halloc
    exact ⟨hcoat, Or.inl ⟨by rw [halloc], congrFun htable⟩⟩
  · rename_i new c table halloc
    obtain ⟨hcoat, htable, hnone, hcreate, ⟨pool, hpool⟩, _⟩ := h.of_alloc_some halloc
    simp only [clientOatCreate] at hcreate
    split_ifs at hcreate with hresources
    obtain rfl := Option.some.inj hcreate
    have hkept : ∀ id ≠ new, table.table id = ct.allocTable.table id := by
      intro id hid
      rw [htable, Function.update_of_ne hid]
    cases watch with
    | some deathID =>
        obtain rfl := Except.ok.inj hct'
        refine ⟨hcoat.set (by simp [htable]) _, Or.inr ⟨new, _, by rw [halloc], hnone, hresources,
          by simp [hpool], fun id hid _ => ?_⟩⟩
        exact (Function.update_of_ne hid _ _).trans (hkept id hid)
    | none =>
        obtain ⟨hsame, hqueue⟩ := clientQueueDelete_table { ct with allocTable := table } new
        obtain ⟨hcoat', hkeep⟩ := postaction_keeps (hsame ▸ hcoat) hct'
        refine ⟨hcoat', Or.inr ⟨new, _, by rw [halloc], hnone, hresources, by simp [hpool],
          fun id hid hpending => ?_⟩⟩
        rw [hkeep id, session, hsame, hkept id hid, session]
        intro p hp
        rcases hqueue p hp with rfl | hp
        · exact hid
        · exact hpending rfl p hp

end Table

/-! ## Runs -/

section Runs

variable {δ ρ ι : Type} {d : WaitDevice δ ρ ι} {s s' : WaitServer δ}

/-- The invariant. -/
structure WaitServer.Ok (d : WaitDevice δ ρ ι) (s : WaitServer δ) : Prop where
  coat : s.ct.allocTable.Ok
  allocated : ∀ client ∈ d.clients s.dev, s.Allocated client

theorem WaitServer.coat_step {e : WaitEvent ρ ι} (h : s.ct.allocTable.Ok)
    (hs' : waitStep d s e = .ok s') : s'.ct.allocTable.Ok := by
  cases e with
  | connect liveness resources watch =>
      obtain ⟨ct, hct, hs'⟩ := bind_eq_ok_iff.1 hs'
      obtain rfl := Except.ok.inj hs'
      exact (connect_cases h hct).1
  | call id r =>
      simp only [waitStep] at hs'
      split at hs'
      · obtain ⟨dev, _, hs'⟩ := bind_eq_ok_iff.1 hs'
        exact Except.ok.inj hs' ▸ h
      · exact Except.ok.inj hs' ▸ h
  | disconnect id =>
      obtain rfl := Except.ok.inj hs'
      exact (srvCtableDisconnectDirectHandler_table s.ct id).symm ▸ h
  | death deathIDs =>
      obtain ⟨ct, hct, hs'⟩ := bind_eq_ok_iff.1 hs'
      obtain rfl := Except.ok.inj hs'
      exact (srvDispatchNotification_table hct).symm ▸ h
  | postaction =>
      obtain ⟨ct, hct, hs'⟩ := bind_eq_ok_iff.1 hs'
      obtain rfl := Except.ok.inj hs'
      exact (postaction_keeps h hct).1
  | irq i =>
      obtain ⟨_, _, hs'⟩ := bind_eq_ok_iff.1 hs'
      exact Except.ok.inj hs' ▸ h

theorem WaitServer.Allocated.of_keeps {client : Nat} (h : s.Allocated client)
    (hkeep : ∀ id, (session s.ct id).isSome → s.addr id = client →
      session s'.ct id = session s.ct id ∧ s'.addr id = s.addr id) : s'.Allocated client := by
  obtain ⟨id, hid, haddr⟩ := h
  obtain ⟨hsession, haddr'⟩ := hkeep id hid haddr
  exact ⟨id, hsession ▸ hid, haddr'.trans haddr⟩

namespace WaitServer.Ok

theorem connect {liveness : Nat} {resources : Bool} {watch : Option Int} (h : s.Ok d)
    (hpurged : s.Purged d (.connect liveness resources watch))
    (hs' : s.connect liveness resources watch = .ok s') :
    ∀ client ∈ d.clients s'.dev, s'.Allocated client := by
  obtain ⟨ct, hct, hs'⟩ := bind_eq_ok_iff.1 hs'
  obtain rfl := Except.ok.inj hs'
  intro client hclient
  refine (h.allocated client hclient).of_keeps fun id hid haddr => ?_
  obtain ⟨_, ⟨halloc, hkeep⟩ | ⟨new, c, halloc, hnone, hresources, hpool, hkeep⟩⟩ :=
    connect_cases h.coat hct
  · exact ⟨hkeep id, by simp only [halloc]⟩
  · have hne : id ≠ new := by
      rintro rfl
      simp [hnone] at hid
    refine ⟨hkeep id hne fun hwatch p hp heq => ?_, ?_⟩
    · refine hpurged ⟨hresources, hpool, hwatch⟩ p hp ?_
      rw [← heq, haddr]
      exact hclient
    · simp only [halloc]
      exact Function.update_of_ne hne _ _

theorem step (hd : d.Lawful) {e : WaitEvent ρ ι} (h : s.Ok d) (hpurged : s.Purged d e)
    (hs' : waitStep d s e = .ok s') : s'.Ok d := by
  refine ⟨coat_step h.coat hs', ?_⟩
  cases e with
  | connect liveness resources watch => exact h.connect hpurged hs'
  | call id r =>
      simp only [waitStep] at hs'
      split at hs'
      · rename_i c hc
        obtain ⟨dev, hdev, hs'⟩ := bind_eq_ok_iff.1 hs'
        obtain rfl := Except.ok.inj hs'
        intro client hclient
        rcases hd.call _ _ _ _ hdev client hclient with rfl | hclient
        · -- the calling client was found in the table
          rw [clientGet] at hc
          split_ifs at hc
          have htable := Coat.table_of_get hc
          exact ⟨id, by simpa [session] using Option.isSome_of_mem htable, rfl⟩
        · exact h.allocated client hclient
      · exact Except.ok.inj hs' ▸ h.allocated
  | disconnect id =>
      obtain rfl := Except.ok.inj hs'
      intro client hclient
      refine (h.allocated client hclient).of_keeps fun i _ _ => ⟨?_, rfl⟩
      simp only [session, srvCtableDisconnectDirectHandler_table]
  | death deathIDs =>
      obtain ⟨ct, hct, hs'⟩ := bind_eq_ok_iff.1 hs'
      obtain rfl := Except.ok.inj hs'
      intro client hclient
      refine (h.allocated client hclient).of_keeps fun i _ _ => ⟨?_, rfl⟩
      simp only [session, srvDispatchNotification_table hct]
  | postaction =>
      obtain ⟨ct, hct, hs'⟩ := bind_eq_ok_iff.1 hs'
      obtain rfl := Except.ok.inj hs'
      intro client hclient
      refine (h.allocated client hclient).of_keeps fun i _ haddr => ⟨?_, rfl⟩
      refine (postaction_keeps h.coat hct).2 i fun p hp heq => hpurged p hp ?_
      rw [← heq, haddr]
      exact hclient
  | irq i =>
      obtain ⟨⟨replied, dev⟩, hirq, hs'⟩ := bind_eq_ok_iff.1 hs'
      obtain rfl := Except.ok.inj hs'
      intro client hclient
      exact h.allocated client ((hd.irq _ _ _ _ hirq).1 hclient)

theorem waitersAllocated (hd : d.Lawful) (h : s.Ok d) : s.WaitersAllocated d where
  waiter := h.allocated
  reply _ _ _ hirq client hclient := h.allocated client ((hd.irq _ _ _ _ hirq).2 hclient)

theorem of_run (hd : d.Lawful) {dev : δ} (hdev : d.clients dev = []) {maxClients : Nat}
    {evs : List (WaitEvent ρ ι)}
    (hrun : Run (waitStep d) (WaitServer.Purged d) (WaitServer.init dev maxClients) evs s) :
    s.WaitersAllocated d := by
  have hok : s.Ok d := by
    refine hrun.invariant ⟨.init (by omega) (by omega), ?_⟩ fun _ _ _ h hpurged hu =>
      h.step hd hpurged hu
    intro client hclient
    simp [WaitServer.init, hdev] at hclient
  exact hok.waitersAllocated hd

end WaitServer.Ok

/-- The addresses that are not allocated, where the pool shows it. -/
theorem WaitServer.not_allocated {dev : δ} {maxClients : Nat} {evs : List (WaitEvent ρ ι)}
    {client : Nat} (hrun : Run (waitStep d) (fun _ _ => True) (.init dev maxClients) evs s)
    (hfree : ∀ id < s.ct.allocTable.pool.mx, s.ct.allocTable.pool.Live id →
      s.addr id ≠ client) : ¬s.Allocated client := by
  have hcoat : s.ct.allocTable.Ok := by
    refine hrun.invariant (I := fun t => t.ct.allocTable.Ok) (.init (by omega) (by omega)) ?_
    intro t e u h _ hu
    exact coat_step h hu
  rintro ⟨id, hid, haddr⟩
  have hlive := (hcoat.live id).1 hid
  exact hfree id hlive.2.1 hlive haddr

end Runs

/-- **Waiters and their clients.** In every run of connections, calls that block, disconnections,
deaths, post-actions and interrupts, of the console server as of the timer server: if no client in
the queue has a waiter when `client_table_postaction` runs, then every waiter points to a client
that is allocated, and so does every structure through which an interrupt replies. -/
theorem waiters_allocated (data : Nat → Int) (maxClients : Nat) :
    (∀ evs s, Run (waitStep consoleDevice) (WaitServer.Purged consoleDevice)
        (WaitServer.init (inputInit data) maxClients) evs s → s.WaitersAllocated consoleDevice) ∧
    ∀ evs s, Run (waitStep timerDevice) (WaitServer.Purged timerDevice)
        (WaitServer.init [] maxClients) evs s → s.WaitersAllocated timerDevice := by
  constructor
  · intro evs s hrun
    exact WaitServer.Ok.of_run consoleDevice_lawful rfl hrun
  · intro evs s hrun
    exact WaitServer.Ok.of_run timerDevice_lawful rfl hrun

/-- A client of each server waits, is answered, and then dies. -/
theorem waiters_allocated_answered :
    (∃ s, Run (waitStep consoleDevice) (WaitServer.Purged consoleDevice)
        (WaitServer.init (inputInit fun _ => 0) 4)
        [.connect 10 true (some 5), .call 1 (true, ⟨true, true, true⟩), .irq [97], .death [5],
          .postaction] s ∧ s.WaitersAllocated consoleDevice) ∧
    ∃ s, Run (waitStep timerDevice) (WaitServer.Purged timerDevice) (WaitServer.init [] 4)
        [.connect 10 true (some 5), .call 1 ⟨8, 100, 7, 30, ⟨true, true, true⟩⟩, .irq 50,
          .connect 11 true none, .irq 200, .death [5], .postaction] s ∧
      s.WaitersAllocated timerDevice := by
  constructor
  · obtain ⟨s, hrun, _⟩ : ∃ s, Run (waitStep consoleDevice) (WaitServer.Purged consoleDevice)
        (WaitServer.init (inputInit fun _ => 0) 4)
        [.connect 10 true (some 5), .call 1 (true, ⟨true, true, true⟩), .irq [97], .death [5],
          .postaction] s ∧ True := by
      apply Run.exists_of_exec
      decide +kernel
    exact ⟨s, hrun, (waiters_allocated _ 4).1 _ s hrun⟩
  · obtain ⟨s, hrun, _⟩ : ∃ s, Run (waitStep timerDevice) (WaitServer.Purged timerDevice)
        (WaitServer.init [] 4)
        [.connect 10 true (some 5), .call 1 ⟨8, 100, 7, 30, ⟨true, true, true⟩⟩, .irq 50,
          .connect 11 true none, .irq 200, .death [5], .postaction] s ∧ True := by
      apply Run.exists_of_exec
      decide +kernel
    exact ⟨s, hrun, (waiters_allocated (fun _ => 0) 4).2 _ s hrun⟩

/-- A client blocked in `getc` dies: its waiter points to the freed structure, and the next
character is sent through it. A client of the timer server disconnects while it sleeps, and another
one's connection fails. -/
theorem waiter_outlives_client :
    (∃ s, Run (waitStep consoleDevice) (fun _ _ => True) (WaitServer.init (inputInit fun _ => 0) 4)
        [.connect 10 true (some 5), .call 1 (true, ⟨true, true, true⟩), .death [5],
          .postaction] s ∧
      (∃ dev, consoleDevice.irq s.dev [97] = .ok ([1], dev)) ∧ ¬s.Allocated 1 ∧
      ¬s.WaitersAllocated consoleDevice) ∧
    ∃ s, Run (waitStep timerDevice) (fun _ _ => True) (WaitServer.init [] 4)
        [.connect 10 true (some 5), .call 1 ⟨8, 100, 7, 30, ⟨true, true, true⟩⟩, .disconnect 1,
          .connect 11 true none] s ∧
      (∃ dev, timerDevice.irq s.dev 200 = .ok ([1], dev)) ∧ ¬s.Allocated 1 ∧
      ¬s.WaitersAllocated timerDevice := by
  constructor
  · obtain ⟨s, hrun, hreply, hfree⟩ : ∃ s, Run (waitStep consoleDevice) (fun _ _ => True)
        (WaitServer.init (inputInit fun _ => 0) 4)
        [.connect 10 true (some 5), .call 1 (true, ⟨true, true, true⟩), .death [5],
          .postaction] s ∧
        (consoleDevice.irq s.dev [97]).toOption.map Prod.fst = some [1] ∧
        ∀ id < s.ct.allocTable.pool.mx, s.ct.allocTable.pool.Live id → s.addr id ≠ 1 := by
      apply Run.exists_of_exec
      decide +kernel
    obtain ⟨⟨replied, dev⟩, hirq, rfl⟩ := Option.map_eq_some_iff.1 hreply
    have hirq := eq_ok_of_toOption hirq
    have hnot := WaitServer.not_allocated hrun hfree
    exact ⟨s, hrun, ⟨dev, hirq⟩, hnot, fun h => hnot (h.reply _ _ _ hirq 1 (by simp))⟩
  · obtain ⟨s, hrun, hreply, hfree⟩ : ∃ s, Run (waitStep timerDevice) (fun _ _ => True)
        (WaitServer.init [] 4)
        [.connect 10 true (some 5), .call 1 ⟨8, 100, 7, 30, ⟨true, true, true⟩⟩, .disconnect 1,
          .connect 11 true none] s ∧
        (timerDevice.irq s.dev 200).toOption.map Prod.fst = some [1] ∧
        ∀ id < s.ct.allocTable.pool.mx, s.ct.allocTable.pool.Live id → s.addr id ≠ 1 := by
      apply Run.exists_of_exec
      decide +kernel
    obtain ⟨⟨replied, dev⟩, hirq, rfl⟩ := Option.map_eq_some_iff.1 hreply
    have hirq := eq_ok_of_toOption hirq
    have hnot := WaitServer.not_allocated hrun hfree
    exact ⟨s, hrun, ⟨dev, hirq⟩, hnot, fun h => hnot (h.reply _ _ _ hirq 1 (by simp))⟩

end PartitionSeL4.Refos
