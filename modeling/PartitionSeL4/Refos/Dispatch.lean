import PartitionSeL4.Refos.Session
import PartitionSeL4.Refos.Stream

/-!
# Dispatch of notifications

`srv_dispatch_notification` reads the notifications of a server's buffer one after the other and
hands each to the callback for its label. A server sets the callbacks of the labels that it does not
handle to `NULL`. For such a label the switch falls through to the next callback that is set, or to
an assertion. The error of a callback is lost: the next read sets the variable again, and the last
one, which finds nothing, sets it to zero.

`dispatch_right_iff`: whatever the notifications and the callbacks, the dispatch is right if and
only if every notification has its callback and every callback succeeds.

The loop over the shared ring is the loop over the list of notifications in it (`notifyLoop_eq`).
-/

namespace PartitionSeL4.Refos

open Lib

variable {σ : Type}

/-! ## Notifications -/

/-- `PROCSERV_NOTIFICATION_MAGIC` -/
def procservNotificationMagic : Nat := 0xB0BA11CE

/-- `enum proc_notify_types` -/
inductive NotifyType where
  | faultDelegation
  | contentInit
  | death
  deriving DecidableEq, Repr

def NotifyType.toWord : NotifyType → Nat
  | .faultDelegation => 0
  | .contentInit => 1
  | .death => 2

/-- `struct proc_notification`, as words that anyone may have written. -/
structure RawNotification where
  magic : Nat
  label : Nat
  arg : Fin 7 → Nat

namespace RawNotification

/-- `sizeof(struct proc_notification)` -/
def size : Nat := 36

def words (n : RawNotification) : List Nat := n.magic :: n.label :: List.ofFn n.arg

/-- A notification in memory. -/
def bytes (n : RawNotification) : List UInt8 := n.words.flatMap leWord

/-- A word of a structure in memory. -/
def wordAt (mem : List UInt8) (i : Nat) : Nat := ofLe ((mem.drop (4 * i)).take 4)

/-- The structure that was read. -/
def ofBytes (mem : List UInt8) : RawNotification where
  magic := wordAt mem 0
  label := wordAt mem 1
  arg i := wordAt mem (2 + i)

/-- A notification with one of the known labels. -/
structure WellFormed (n : RawNotification) : Prop where
  magic : n.magic = procservNotificationMagic
  label : ∃ label : NotifyType, n.label = label.toWord
  arg : ∀ i, n.arg i < 2 ^ 32

theorem wordAt_flatMap {words : List Nat} {i : Nat} (hi : i < words.length)
    (hword : ∀ w ∈ words, w < 2 ^ 32) : wordAt (words.flatMap leWord) i = words[i] := by
  induction words generalizing i with
  | nil => exact absurd hi (Nat.not_lt_zero i)
  | cons w words ih =>
      rw [wordAt, List.flatMap_cons]
      cases i with
      | zero =>
          rw [Nat.mul_zero, List.drop_zero, List.take_left' (length_leWord w)]
          exact ofLe_leWord (hword w (by simp))
      | succ i =>
          have hdrop : (leWord w ++ words.flatMap leWord).drop (4 * (i + 1)) =
              (words.flatMap leWord).drop (4 * i) := by
            rw [show 4 * (i + 1) = 4 + 4 * i by omega, ← List.drop_drop,
              List.drop_left' (length_leWord w)]
          rw [hdrop]
          exact ih (Nat.lt_of_succ_lt_succ hi) fun v hv => hword v (by simp [hv])

@[simp] theorem length_bytes (n : RawNotification) : n.bytes.length = size := by
  simp [bytes, words, size]

theorem WellFormed.ofBytes_bytes {n : RawNotification} (h : n.WellFormed) :
    ofBytes n.bytes = n := by
  have hword : ∀ w ∈ n.words, w < 2 ^ 32 := by
    obtain ⟨label, hlabel⟩ := h.label
    intro w hw
    rcases List.mem_cons.1 hw with rfl | hw
    · rw [h.magic]
      decide
    rcases List.mem_cons.1 hw with rfl | hw
    · rw [hlabel]
      cases label <;> decide
    · obtain ⟨i, rfl⟩ := List.mem_ofFn.1 hw
      exact h.arg i
  have hlen : n.words.length = 9 := by simp [words]
  have hat : ∀ i (hi : i < n.words.length), wordAt n.bytes i = n.words[i] :=
    fun i hi => wordAt_flatMap hi hword
  cases n with
  | mk magic label arg =>
      simp only [ofBytes, mk.injEq]
      refine ⟨hat 0 (by omega), hat 1 (by omega), funext fun i => ?_⟩
      rw [hat _ (by omega)]
      simp only [words, Nat.add_comm 2, List.getElem_cons_succ, List.getElem_ofFn]

end RawNotification

/-! ## `srv_dispatch_notification` -/

/-- `srv_notify_handler_callback_fn_t`: the error it returns, and the state of the server. -/
abbrev NotifyHandler (σ : Type) := RawNotification → σ → Except Failure (Int × σ)

/-- `srv_common_notify_handler_callbacks_t` -/
structure NotifyCallbacks (σ : Type) where
  handleServerFault : Option (NotifyHandler σ)
  handleServerContentInit : Option (NotifyHandler σ)
  handleServerDeathNotification : Option (NotifyHandler σ)

/-- A call of a callback, and the error it returned. -/
structure NotifyCall where
  callback : NotifyType
  notification : RawNotification
  error : Int

/-- What the dispatcher uses of `srv_common_t`: the buffer, and where to read next. -/
structure SrvCommon where
  notifyBuffer : RamDspace
  notifyBufferSize : Nat
  notifyBufferStart : Nat

/-- `DISPATCH_ERROR` -/
def dispatchError : Int := -2

namespace NotifyCallbacks

/-- The case of the switch for deaths. -/
def selectDeath (callbacks : NotifyCallbacks σ) : Option (NotifyType × NotifyHandler σ) :=
  callbacks.handleServerDeathNotification.map fun f => (.death, f)

/-- The case for content initialisation, which falls through. -/
def selectContentInit (callbacks : NotifyCallbacks σ) : Option (NotifyType × NotifyHandler σ) :=
  match callbacks.handleServerContentInit with
  | some f => some (.contentInit, f)
  | none => callbacks.selectDeath

/-- The case for faults, which falls through as well. -/
def selectFault (callbacks : NotifyCallbacks σ) : Option (NotifyType × NotifyHandler σ) :=
  match callbacks.handleServerFault with
  | some f => some (.faultDelegation, f)
  | none => callbacks.selectContentInit

/-- The callback that the switch reaches, if any. -/
def select (callbacks : NotifyCallbacks σ) : Nat → Option (NotifyType × NotifyHandler σ)
  | 0 => callbacks.selectFault
  | 1 => callbacks.selectContentInit
  | 2 => callbacks.selectDeath
  | _ => none

/-- The switch. -/
def dispatch (callbacks : NotifyCallbacks σ) (n : RawNotification) (s : σ) :
    Except Failure (NotifyCall × σ) :=
  match callbacks.select n.label with
  | some (label, f) => do
      let (error, s) ← f n s
      return (⟨label, n, error⟩, s)
  | none => .error .assertion

end NotifyCallbacks

/-- The loop of `srv_dispatch_notification`: its result, the calls it made and the two states. It
ends with the variable `error` as the last read has set it. -/
def notifyLoop (callbacks : NotifyCallbacks σ) : Nat → SrvCommon → σ →
    Except Failure (Int × List NotifyCall × σ × SrvCommon)
  | 0, _, _ => .error .hang
  | fuel + 1, srv, s =>
      match refosShareRead srv.notifyBuffer srv.notifyBufferSize srv.notifyBufferStart
          RawNotification.size with
      | none => .ok (dispatchError, [], s, srv)
      | some (mem, start, buffer) =>
          let srv := { srv with notifyBuffer := buffer, notifyBufferStart := start }
          if mem.length = 0 then .ok (0, [], s, srv)
          else if mem.length ≠ RawNotification.size then .ok (dispatchError, [], s, srv)
          else
            let n := RawNotification.ofBytes mem
            if n.magic ≠ procservNotificationMagic then .error .assertion
            else do
              let (call, s) ← callbacks.dispatch n s
              let (error, calls, s, srv) ← notifyLoop callbacks fuel srv s
              return (error, call :: calls, s, srv)

/-- `srv_dispatch_notification`. `memory` says whether the structure can be allocated. Reads that
have not emptied the ring when there were as many as it has bytes go round it for ever. -/
def SrvCommon.dispatchNotification (srv : SrvCommon) (callbacks : NotifyCallbacks σ)
    (memory : Bool) (s : σ) : Except Failure (Int × List NotifyCall × σ × SrvCommon) :=
  if memory then notifyLoop callbacks srv.notifyBufferSize srv s
  else .ok (dispatchError, [], s, srv)

/-! ## The property and the condition -/

/-- The callback for a label. -/
def NotifyCallbacks.own (callbacks : NotifyCallbacks σ) : Nat → Option (NotifyHandler σ)
  | 0 => callbacks.handleServerFault
  | 1 => callbacks.handleServerContentInit
  | 2 => callbacks.handleServerDeathNotification
  | _ => none

/-- The dispatch returns; the notifications that have a callback were passed to it, in order and
each once, and to no other; and the result is an error if and only if a notification had no callback
or its callback returned an error. -/
def DispatchRight (callbacks : NotifyCallbacks σ) (memory : Bool)
    (notifications : List RawNotification) (srv : SrvCommon) (s : σ) : Prop :=
  ∃ error calls s' srv', srv.dispatchNotification callbacks memory s =
      .ok (error, calls, s', srv') ∧
    calls.map (fun call => (call.callback.toWord, call.notification)) =
      (notifications.filter fun n => (callbacks.own n.label).isSome).map (fun n => (n.label, n)) ∧
    (error ≠ 0 ↔ (∃ n ∈ notifications, callbacks.own n.label = none) ∨
      ∃ call ∈ calls, call.error ≠ 0)

/-- Every notification has its callback, and the callbacks, one after the other, succeed. -/
def NotifyCallbacks.Succeed (callbacks : NotifyCallbacks σ) : List RawNotification → σ → Prop
  | [], _ => True
  | n :: notifications, s => ∃ f s', callbacks.own n.label = some f ∧ f n s = .ok (0, s') ∧
      callbacks.Succeed notifications s'

/-! ## The notifications of the ring -/

/-- The calls for a list of notifications. -/
def NotifyCallbacks.dispatchAll (callbacks : NotifyCallbacks σ) :
    List RawNotification → σ → Except Failure (List NotifyCall × σ)
  | [], s => .ok ([], s)
  | n :: notifications, s => do
      let (call, s) ← callbacks.dispatch n s
      let (calls, s) ← callbacks.dispatchAll notifications s
      return (call :: calls, s)

/-- The server after a read of `n` bytes of a ring. -/
def SrvCommon.advance (srv : SrvCommon) (size n : Nat) : SrvCommon :=
  { srv with
    notifyBuffer := srv.notifyBuffer.write 0 (leWord ((srv.notifyBufferStart + n) % size))
    notifyBufferStart := (srv.notifyBufferStart + n) % size }

/-- The loop reads the notifications of the ring, and its result is zero. -/
theorem notifyLoop_eq (callbacks : NotifyCallbacks σ) {notifications : List RawNotification}
    (hwf : ∀ n ∈ notifications, n.WellFormed) {srv : SrvCommon} {size stop fuel : Nat}
    (hring : RingHolds srv.notifyBuffer size srv.notifyBufferStart stop
      (notifications.flatMap RawNotification.bytes))
    (hsize : size + shareMetadataSize = srv.notifyBufferSize)
    (hfuel : notifications.length < fuel) :
    ∃ srv', RingHolds srv'.notifyBuffer size srv'.notifyBufferStart stop [] ∧
      ∀ s, notifyLoop callbacks fuel srv s =
        (callbacks.dispatchAll notifications s).map fun r => (0, r.1, r.2, srv') := by
  obtain ⟨fuel, rfl⟩ : ∃ k, fuel = k + 1 := ⟨fuel - 1, by omega⟩
  induction notifications generalizing srv fuel with
  | nil =>
      have hread := hring.refosShareRead_eq hsize RawNotification.size
      rw [List.flatMap_nil, List.length_nil, Nat.min_zero] at hread
      refine ⟨srv.advance size 0, hring.read (Nat.zero_le _), fun s => ?_⟩
      rw [notifyLoop, hread]
      rfl
  | cons n notifications ih =>
      obtain ⟨fuel, rfl⟩ : ∃ k, fuel = k + 1 := ⟨fuel - 1, by simp at hfuel; omega⟩
      have hn := hwf n (by simp)
      have hread := hring.refosShareRead_eq hsize RawNotification.size
      rw [List.flatMap_cons] at hring hread
      have hmin : min RawNotification.size (n.bytes ++
          notifications.flatMap RawNotification.bytes).length = RawNotification.size := by
        rw [List.length_append, n.length_bytes]
        omega
      have hle : RawNotification.size ≤ (n.bytes ++
          notifications.flatMap RawNotification.bytes).length := by omega
      have hrest : RingHolds (srv.advance size RawNotification.size).notifyBuffer size
          (srv.advance size RawNotification.size).notifyBufferStart stop _ := hring.read hle
      rw [hmin, List.take_left' n.length_bytes] at hread
      rw [List.drop_left' n.length_bytes] at hrest
      obtain ⟨srv', hring', hloop⟩ := ih (fun m hm => hwf m (by simp [hm])) hrest hsize fuel
        (by simpa using hfuel)
      refine ⟨srv', hring', fun s => ?_⟩
      simp only [SrvCommon.advance] at hloop
      rw [notifyLoop, hread]
      simp only [n.length_bytes, hn.ofBytes_bytes, hn.magic, ne_eq, not_true_eq_false, if_false]
      rw [if_neg (by decide), NotifyCallbacks.dispatchAll]
      cases callbacks.dispatch n s with
      | error e => rfl
      | ok r =>
          simp only [bind, Except.bind, hloop]
          cases callbacks.dispatchAll notifications r.2 <;> rfl

theorem dispatchNotification_eq (callbacks : NotifyCallbacks σ)
    {notifications : List RawNotification} (hwf : ∀ n ∈ notifications, n.WellFormed)
    {srv : SrvCommon} {size stop : Nat}
    (hring : RingHolds srv.notifyBuffer size srv.notifyBufferStart stop
      (notifications.flatMap RawNotification.bytes))
    (hsize : size + shareMetadataSize = srv.notifyBufferSize) :
    ∃ srv', RingHolds srv'.notifyBuffer size srv'.notifyBufferStart stop [] ∧
      ∀ s, srv.dispatchNotification callbacks true s =
        (callbacks.dispatchAll notifications s).map fun r => (0, r.1, r.2, srv') := by
  have hlt := hring.unread_lt
  rw [List.length_flatMap, List.map_congr_left fun n _ => n.length_bytes, List.map_const',
    List.sum_replicate_nat, show RawNotification.size = 36 from rfl] at hlt
  exact notifyLoop_eq callbacks hwf hring hsize (by omega)

/-! ## The calls -/

namespace NotifyCallbacks

variable {callbacks : NotifyCallbacks σ} {n : RawNotification} {s s' : σ}

theorem select_of_own {label : NotifyType} {f : NotifyHandler σ}
    (hown : callbacks.own label.toWord = some f) :
    callbacks.select label.toWord = some (label, f) := by
  cases label with
  | faultDelegation =>
      have hown : callbacks.handleServerFault = some f := hown
      simp [select, selectFault, NotifyType.toWord, hown]
  | contentInit =>
      have hown : callbacks.handleServerContentInit = some f := hown
      simp [select, selectContentInit, NotifyType.toWord, hown]
  | death =>
      have hown : callbacks.handleServerDeathNotification = some f := hown
      simp [select, selectDeath, NotifyType.toWord, hown]

theorem dispatch_of_own (hn : n.WellFormed) {f : NotifyHandler σ}
    (hown : callbacks.own n.label = some f) :
    ∃ label : NotifyType, label.toWord = n.label ∧ callbacks.dispatch n s =
      (f n s).map fun r => (⟨label, n, r.1⟩, r.2) := by
  obtain ⟨label, hlabel⟩ := hn.label
  refine ⟨label, hlabel.symm, ?_⟩
  rw [hlabel] at hown
  rw [dispatch, hlabel, select_of_own hown]
  dsimp only
  cases f n s <;> rfl

/-- What the calls are where every callback succeeds. -/
theorem dispatchAll_of_succeed {notifications : List RawNotification}
    (hwf : ∀ n ∈ notifications, n.WellFormed) (hsucceed : callbacks.Succeed notifications s) :
    ∃ calls s', callbacks.dispatchAll notifications s = .ok (calls, s') ∧
      calls.map (fun call => (call.callback.toWord, call.notification)) =
        notifications.map (fun n => (n.label, n)) ∧
      (∀ call ∈ calls, call.error = 0) ∧ ∀ n ∈ notifications, (callbacks.own n.label).isSome := by
  induction notifications generalizing s with
  | nil => exact ⟨[], s, rfl, rfl, by simp, by simp⟩
  | cons n notifications ih =>
      obtain ⟨f, s₁, hown, hf, hrest⟩ := hsucceed
      obtain ⟨label, hlabel, hcall⟩ := dispatch_of_own (s := s) (hwf n (by simp)) hown
      obtain ⟨calls, s', hall, hcalls, hzero, hset⟩ := ih (fun m hm => hwf m (by simp [hm])) hrest
      refine ⟨⟨label, n, 0⟩ :: calls, s', ?_, ?_, ?_, ?_⟩
      · rw [dispatchAll, hcall, hf]
        simp only [Except.map, bind, Except.bind, hall]
        rfl
      · simp [hlabel, hcalls]
      · simpa using hzero
      · simpa [hown] using hset

/-- Where every notification has its callback and no call returned an error, the callbacks have
succeeded. -/
theorem succeed_of_dispatchAll {notifications : List RawNotification} {calls : List NotifyCall}
    (hwf : ∀ n ∈ notifications, n.WellFormed)
    (hall : callbacks.dispatchAll notifications s = .ok (calls, s'))
    (hset : ∀ n ∈ notifications, callbacks.own n.label ≠ none)
    (hzero : ∀ call ∈ calls, call.error = 0) : callbacks.Succeed notifications s := by
  induction notifications generalizing s calls with
  | nil => trivial
  | cons n notifications ih =>
      obtain ⟨f, hown⟩ := Option.ne_none_iff_exists'.1 (hset n (by simp))
      obtain ⟨label, hlabel, hcall⟩ := dispatch_of_own (s := s) (hwf n (by simp)) hown
      rw [dispatchAll, hcall] at hall
      obtain ⟨⟨call, s₁⟩, hfirst, hall⟩ := bind_eq_ok_iff.1 hall
      obtain ⟨⟨calls', s₂⟩, hrest, hall⟩ := bind_eq_ok_iff.1 hall
      obtain ⟨rfl, rfl⟩ := Prod.mk.inj (Except.ok.inj hall)
      cases hf : f n s with
      | error e => simp [hf, Except.map] at hfirst
      | ok r =>
          rw [hf] at hfirst
          obtain ⟨rfl, rfl⟩ := Prod.mk.inj (Except.ok.inj hfirst)
          have herror : r.1 = 0 := hzero ⟨label, n, r.1⟩ (by simp)
          exact ⟨f, r.2, hown, by rw [hf, ← herror],
            ih (fun m hm => hwf m (by simp [hm])) hrest (fun m hm => hset m (by simp [hm]))
              fun c hc => hzero c (by simp [hc])⟩

end NotifyCallbacks

/-! ## Every dispatch -/

theorem dispatchRight_noMemory {callbacks : NotifyCallbacks σ}
    {notifications : List RawNotification} {srv : SrvCommon} {s : σ} :
    DispatchRight callbacks false notifications srv s ↔
      notifications ≠ [] ∧ ∀ n ∈ notifications, callbacks.own n.label = none := by
  have hunset : notifications.filter (fun n => (callbacks.own n.label).isSome) = [] ↔
      ∀ n ∈ notifications, callbacks.own n.label = none := by
    simp [List.filter_eq_nil_iff]
  constructor
  · rintro ⟨error, calls, s', srv', hdispatch, hcalls, herror⟩
    obtain ⟨rfl, rfl, _⟩ := by simpa [SrvCommon.dispatchNotification] using hdispatch
    have hall := hunset.1 (List.map_eq_nil_iff.1 hcalls.symm)
    refine ⟨?_, hall⟩
    rintro rfl
    simp [dispatchError] at herror
  · rintro ⟨hne, hall⟩
    obtain ⟨n, hn⟩ := List.exists_mem_of_ne_nil _ hne
    refine ⟨dispatchError, [], s, srv, rfl, ?_, ?_⟩
    · rw [hunset.2 hall]
      rfl
    · exact iff_of_true (by decide) (Or.inl ⟨n, hn, hall n hn⟩)

/-- **When notifications are dispatched.** A server's buffer holds any notifications with the known
labels, and it has set any of the three callbacks. The dispatch is right if and only if the
structure for a notification can be allocated, every notification has its callback and every
callback succeeds. (An allocation failure is reported as an error, which is also right where there
is a notification and none of them has a callback.) -/
theorem dispatch_right_iff (callbacks : NotifyCallbacks σ) (memory : Bool)
    (notifications : List RawNotification) (hwf : ∀ n ∈ notifications, n.WellFormed)
    (srv : SrvCommon) {size stop : Nat}
    (hring : RingHolds srv.notifyBuffer size srv.notifyBufferStart stop
      (notifications.flatMap RawNotification.bytes))
    (hsize : size + shareMetadataSize = srv.notifyBufferSize) (s : σ) :
    DispatchRight callbacks memory notifications srv s ↔
      (memory = true ∧ callbacks.Succeed notifications s) ∨
        (memory = false ∧ notifications ≠ [] ∧
          ∀ n ∈ notifications, callbacks.own n.label = none) := by
  cases memory with
  | false => simpa using dispatchRight_noMemory
  | true =>
      obtain ⟨srv', _, hdispatch⟩ := dispatchNotification_eq callbacks hwf hring hsize
      have hdispatch := hdispatch s
      simp only [true_and, Bool.true_eq_false, false_and, or_false]
      constructor
      · rintro ⟨error, calls, s', srv'', hall, hcalls, herror⟩
        rw [hdispatch] at hall
        cases hlist : callbacks.dispatchAll notifications s with
        | error e => simp [hlist, Except.map] at hall
        | ok r =>
            rw [hlist] at hall
            obtain ⟨rfl, rfl, _⟩ := by simpa [Except.map] using hall
            -- the result is zero, so nothing has gone wrong
            have hgood := mt herror.2 (by simp)
            simp only [not_or, not_exists, not_and, not_not] at hgood
            exact NotifyCallbacks.succeed_of_dispatchAll hwf hlist hgood.1 hgood.2
      · intro hsucceed
        obtain ⟨calls, s', hlist, hcalls, hzero, hset⟩ :=
          NotifyCallbacks.dispatchAll_of_succeed hwf hsucceed
        refine ⟨0, calls, s', srv', ?_, ?_, ?_⟩
        · rw [hdispatch, hlist]
          rfl
        · rw [List.filter_eq_self.2 hset, hcalls]
        · refine iff_of_false (by simp) ?_
          rintro (⟨n, hn, hnone⟩ | ⟨call, hcall, hne⟩)
          · have := hset n hn
            simp [hnone] at this
          · exact hne (hzero call hcall)

/-! ## The console server -/

/-- The callbacks of `dispatch_client_watch`. -/
def consoleCallbacks : NotifyCallbacks ClientTable where
  handleServerFault := none
  handleServerContentInit := none
  handleServerDeathNotification := some fun n ct =>
    (handleDeathNotification ct (UInt32.ofNat (n.arg 0)).toInt32.toInt .console).map fun ct =>
      (0, ct)

/-- A notification whose arguments are all the same. -/
def notificationOf (label : NotifyType) (arg : Nat) : RawNotification where
  magic := procservNotificationMagic
  label := label.toWord
  arg _ := arg

theorem notificationOf_wellFormed (label : NotifyType) {arg : Nat} (h : arg < 2 ^ 32) :
    (notificationOf label arg).WellFormed :=
  ⟨rfl, ⟨label, rfl⟩, fun _ => h⟩

/-- A server with notifications in its buffer, a page of memory. -/
def serverWith (notifications : List RawNotification) : SrvCommon where
  notifyBuffer := (ringStore (ramDspaceOatCreate 4096) 4088 0
    (notifications.flatMap RawNotification.bytes)).write 4
      (leWord ((0 + (notifications.flatMap RawNotification.bytes).length) % 4088))
  notifyBufferSize := 4096
  notifyBufferStart := 0

theorem serverWith_holds (notifications : List RawNotification)
    (h : (notifications.flatMap RawNotification.bytes).length < 4088) :
    RingHolds (serverWith notifications).notifyBuffer 4088 0
      ((0 + (notifications.flatMap RawNotification.bytes).length) % 4088)
      (notifications.flatMap RawNotification.bytes) :=
  (RingHolds.init (ramDspaceOatCreate 4096) (by decide) (by decide) fun _ _ => rfl).store
    (by simpa using h)

/-- One client, of process 5. -/
def consoleTable : ClientTable where
  allocTable := ((Coat.init 1 4).alloc (clientOatCreate 10 true)).2.set 1 ⟨1, 10, 5⟩
  maxClients := 4
  pendingFreeList := []

theorem serverWith_one (label : NotifyType) : RingHolds
    (serverWith [notificationOf label 5]).notifyBuffer 4088 0 36
      ([notificationOf label 5].flatMap RawNotification.bytes) := by
  have h := serverWith_holds [notificationOf label 5] (by simp [RawNotification.size])
  rw [List.flatMap_singleton, RawNotification.length_bytes] at h
  rw [List.flatMap_singleton]
  exact h

/-- A server that notes whose content is asked for, and who died. -/
def notingCallbacks : NotifyCallbacks (List Nat × List Nat) where
  handleServerFault := none
  handleServerContentInit := some fun n s => .ok (0, (s.1 ++ [n.arg 0], s.2))
  handleServerDeathNotification := some fun n s => .ok (0, (s.1, s.2 ++ [n.arg 0]))

/-- Content is asked for, and then process 5 dies. -/
theorem dispatch_right_iff_two :
    DispatchRight notingCallbacks true [notificationOf .contentInit 3, notificationOf .death 5]
      (serverWith [notificationOf .contentInit 3, notificationOf .death 5]) ([], []) := by
  have hwf : ∀ n ∈ [notificationOf .contentInit 3, notificationOf .death 5], n.WellFormed := by
    simpa using ⟨notificationOf_wellFormed .contentInit (by decide : 3 < 2 ^ 32),
      notificationOf_wellFormed .death (by decide : 5 < 2 ^ 32)⟩
  have hring := serverWith_holds [notificationOf .contentInit 3, notificationOf .death 5]
    (by simp [RawNotification.size])
  exact (dispatch_right_iff notingCallbacks true _ hwf _ hring rfl ([], [])).2
    (Or.inl ⟨rfl, _, _, rfl, rfl, _, _, rfl, rfl, trivial⟩)

/-- A fault notification whose first argument is 5 is passed to the callback for deaths, which
queues the client of process 5 for deletion; and where a callback returns an error, the result is
zero nevertheless. -/
theorem fault_taken_for_death :
    (∃ call ct srv, (serverWith [notificationOf .faultDelegation 5]).dispatchNotification
        consoleCallbacks true consoleTable = .ok (0, [call], ct, srv) ∧
      call.callback = .death ∧ ct.pendingFreeList = [1]) ∧
    ¬DispatchRight consoleCallbacks true [notificationOf .faultDelegation 5]
      (serverWith [notificationOf .faultDelegation 5]) consoleTable ∧
    ¬DispatchRight ⟨none, none, some fun _ s => .ok (dispatchError, s)⟩ true
      [notificationOf .death 5] (serverWith [notificationOf .death 5]) () := by
  have hwf : ∀ label, ∀ n ∈ [notificationOf label 5], n.WellFormed := by
    intro label
    simpa using notificationOf_wellFormed label (by decide : 5 < 2 ^ 32)
  obtain ⟨srv, _, hfault⟩ := dispatchNotification_eq consoleCallbacks (hwf .faultDelegation)
    (serverWith_one .faultDelegation) rfl
  have hfault := hfault consoleTable
  rw [show consoleCallbacks.dispatchAll [notificationOf .faultDelegation 5] consoleTable =
    .ok ([⟨.death, notificationOf .faultDelegation 5, 0⟩],
      { consoleTable with pendingFreeList := [1] }) from rfl] at hfault
  obtain ⟨srv₁, _, hdeath⟩ := dispatchNotification_eq
    (⟨none, none, some fun _ s => .ok (dispatchError, s)⟩ : NotifyCallbacks Unit) (hwf .death)
    (serverWith_one .death) rfl
  have hdeath := hdeath ()
  rw [show NotifyCallbacks.dispatchAll ⟨none, none, some fun _ s => .ok (dispatchError, s)⟩
    [notificationOf .death 5] () =
      .ok ([⟨.death, notificationOf .death 5, dispatchError⟩], ()) from rfl] at hdeath
  refine ⟨⟨_, _, srv, hfault, rfl, rfl⟩, ?_, ?_⟩
  · rintro ⟨error, calls, s', srv', hall, hcalls, herror⟩
    obtain ⟨rfl, rfl, _⟩ := Prod.mk.inj (Except.ok.inj (hfault.symm.trans hall))
    cases hcalls
  · rintro ⟨error, calls, s', srv', hall, hcalls, herror⟩
    obtain ⟨rfl, hrest⟩ := Prod.mk.inj (Except.ok.inj (hdeath.symm.trans hall))
    obtain ⟨rfl, _⟩ := Prod.mk.inj hrest
    exact herror.2 (Or.inr ⟨_, List.mem_singleton_self _, by decide⟩) rfl

end PartitionSeL4.Refos
