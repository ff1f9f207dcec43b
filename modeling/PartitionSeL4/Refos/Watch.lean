import PartitionSeL4.Refos.DataStruct
import PartitionSeL4.Refos.Ring

/-!
# `proc_client_watch.c`: who is told of a death

A process that watches another gets a death notification through its notification buffer when the
other exits. A watch list is two vectors side by side, PIDs and endpoints. They are the columns of
one list of registrations (`Tracks`), in which every PID stands once, whatever the order of watches,
unwatches and deaths.

`proc_release` notifies the watchers of the dying process and unwatches them, but
`client_watch_notify_death_callback` returns early for a watcher without a notification buffer and
for one whose notification cannot be written. Such a watcher keeps watching the PID, which the next
process gets. `death_watch_iff` says that this is the only way: the exit of a process leaves no
watch on its PID if and only if every watcher's notification is written, and in runs in which they
always are, every registration is about the process that lives under its PID.
-/

namespace PartitionSeL4.Refos

open Lib

/-! ## Watch lists -/

/-- `struct proc_watch_list` -/
structure WatchList where
  clientList : List Nat
  endpointNotifyList : List Nat
  deriving DecidableEq, Repr

/-- `client_watch_init` -/
def clientWatchInit : WatchList where
  clientList := []
  endpointNotifyList := []

/-- `client_watch_find`; its result -1 is `none`. -/
def clientWatchFind (wl : WatchList) (pid : Nat) : Option Nat :=
  wl.clientList.findIdx? fun x => x = pid

/-- `client_watch_get`: the endpoint, 0 if the process is not watched. -/
def clientWatchGet (wl : WatchList) (pid : Nat) : Except Failure Nat :=
  match clientWatchFind wl pid with
  | none => .ok 0
  | some idx =>
      match wl.endpointNotifyList[idx]? with
      | none => .error .fault
      | some ep => if ep = 0 then .error .assertion else .ok ep

/-- `client_unwatch` -/
def clientUnwatch (wl : WatchList) (pid : Nat) : Except Failure WatchList :=
  match clientWatchFind wl pid with
  | none => .ok wl
  | some idx =>
      match wl.endpointNotifyList[idx]? with
      | none => .error .fault
      | some ep =>
          if ep = 0 then .error .assertion
          else .ok
            { clientList := wl.clientList.eraseIdx idx
              endpointNotifyList := wl.endpointNotifyList.eraseIdx idx }

/-- `client_watch`; `memory` says whether the record for the endpoint can be allocated. -/
def clientWatch (wl : WatchList) (pid notifyEP : Nat) (memory : Bool) :
    Except Failure (Err × WatchList) :=
  if notifyEP = 0 then .ok (.invalidParam, wl)
  else if !memory then .ok (.nomem, wl)
  else
    let unwatched := if (clientWatchFind wl pid).isSome then clientUnwatch wl pid else .ok wl
    unwatched.bind fun wl =>
      let wl : WatchList :=
        { clientList := wl.clientList ++ [pid]
          endpointNotifyList := wl.endpointNotifyList ++ [notifyEP] }
      if wl.clientList.length = wl.endpointNotifyList.length then .ok (.success, wl)
      else .error .assertion

/-! ## Processes -/

/-- One watch: the PID watched, the endpoint to notify, and which of the processes that have had the
PID it is about. -/
structure Registration where
  pid : Nat
  ep : Nat
  incarnation : Nat
  deriving DecidableEq, Repr

/-- The part of `struct proc_pcb` that deaths are about, and the watches in force. -/
structure WatchPcb where
  clientWatchList : WatchList
  notificationBuffer : Option RbBuffer
  registered : List Registration

/-- The process table, the dataspaces, and how many processes each PID has had. -/
structure WatchState where
  /-- `PIDList.pids` -/
  pids : Cpool
  /-- `PIDList.pcbs` -/
  pcbs : Nat → Option WatchPcb
  spaces : Nat → RamDspace
  incarnation : Nat → Nat

/-- `pid_init` -/
def watchInit (pidMax : Nat) (spaces : Nat → RamDspace) : WatchState where
  pids := .init 1 pidMax
  pcbs _ := none
  spaces := spaces
  incarnation _ := 0

/-- The watches that are left once `pid` is unwatched. -/
def dropWatch (registered : List Registration) (pid : Nat) : List Registration :=
  registered.filter fun r => r.pid ≠ pid

/-- The bytes of a death notification. The arguments behind the first are not set. -/
def deathNotification (deathPID : Nat) (unset : List UInt8) : List UInt8 :=
  leWord 0xB0BA11CE ++ leWord 2 ++ leWord deathPID ++ unset

/-- `client_watch_notify_death_callback` for the process `pid`: its new record, and the
dataspaces. -/
def clientWatchNotifyDeathCallback (deathPID : Nat) (frames : Nat → Bool) (unset : List UInt8)
    (pid : Nat) (pcb : WatchPcb) (spaces : Nat → RamDspace) :
    Except Failure (WatchPcb × (Nat → RamDspace)) :=
  if pid = deathPID then .ok (pcb, spaces)
  else do
    let ep ← clientWatchGet pcb.clientWatchList deathPID
    if ep = 0 then .ok (pcb, spaces)
    else
      match pcb.notificationBuffer with
      | none => .ok (pcb, spaces)
      | some rb => do
          let (error, rb', ds) ←
            rbWrite frames rb (spaces rb.dataspace) (deathNotification deathPID unset)
          let pcb := { pcb with notificationBuffer := some rb' }
          let spaces := Function.update spaces rb.dataspace ds
          if error ≠ .success then .ok (pcb, spaces)
          else do
            let wl ← clientUnwatch pcb.clientWatchList deathPID
            return ({ pcb with
              clientWatchList := wl
              registered := dropWatch pcb.registered deathPID }, spaces)

/-- `pid_iterate` with that callback. -/
def notifyDeath (deathPID : Nat) (frames : Nat → Nat → Bool) (unset : List UInt8) :
    List Nat → WatchState → Except Failure WatchState
  | [], s => .ok s
  | i :: pids, s =>
      match s.pcbs i with
      | none => notifyDeath deathPID frames unset pids s
      | some pcb => do
          let (pcb, spaces) ←
            clientWatchNotifyDeathCallback deathPID (frames i) unset i pcb s.spaces
          notifyDeath deathPID frames unset pids
            { s with pcbs := Function.update s.pcbs i (some pcb), spaces := spaces }

/-- The PIDs that `pid_iterate` goes through. -/
def pidRange (s : WatchState) : List Nat := List.range' 1 (s.pids.stop - 1)

/-- `proc_release` and `pid_free`, as far as they concern watches. -/
def procExit (s : WatchState) (pid : Nat) (frames : Nat → Nat → Bool) (unset : List UInt8) :
    Except Failure WatchState :=
  match s.pcbs pid with
  | none => .ok s
  | some _ => do
      let s ← notifyDeath pid frames unset (pidRange s) s
      return { s with pcbs := Function.update s.pcbs pid none, pids := s.pids.free pid }

/-- `pid_alloc` and `client_watch_init`. -/
def procNew (s : WatchState) : Except Failure WatchState :=
  match s.pids.alloc with
  | none => .ok s
  | some (pid, pids) =>
      if pid < 1 ∨ s.pids.stop ≤ pid then .ok { s with pids := pids }
      else if (s.pcbs pid).isSome then .error .assertion
      else .ok { s with
        pids := pids
        pcbs := Function.update s.pcbs pid (some
          { clientWatchList := clientWatchInit, notificationBuffer := none, registered := [] })
        incarnation := Function.update s.incarnation pid (s.incarnation pid + 1) }

/-! ## Events -/

/-- What can happen to watches and notification buffers. -/
inductive WatchEvent where
  | newProcess
  | watch (watcher pid ep : Nat) (memory : Bool)
  | unwatch (watcher pid : Nat)
  /-- `proc_set_notificationbuffer`, also with none when the dataspace is closed. -/
  | notificationBuffer (pid : Nat) (dataspace : Option Nat)
  /-- A fault notification. -/
  | notify (pid : Nat) (frames : Nat → Bool) (str : List UInt8)
  /-- A dataspace is created, grown or written to. -/
  | dataspace (id : Nat) (ds : RamDspace)
  | exit (pid : Nat) (frames : Nat → Nat → Bool) (unset : List UInt8)

/-- Change the record of a process. -/
def WatchState.setPcb (s : WatchState) (pid : Nat) (pcb : WatchPcb) : WatchState :=
  { s with pcbs := Function.update s.pcbs pid (some pcb) }

/-- The effect of one event. -/
def watchStep (s : WatchState) : WatchEvent → Except Failure WatchState
  | .newProcess => procNew s
  | .watch watcher pid ep memory =>
      match s.pcbs watcher, s.pcbs pid with
      | some pcb, some _ => do
          let (error, wl) ← clientWatch pcb.clientWatchList pid ep memory
          let registered :=
            if error = .success then
              dropWatch pcb.registered pid ++ [⟨pid, ep, s.incarnation pid⟩]
            else pcb.registered
          return s.setPcb watcher { pcb with clientWatchList := wl, registered := registered }
      | _, _ => .ok s
  | .unwatch watcher pid =>
      match s.pcbs watcher, s.pcbs pid with
      | some pcb, some _ => do
          let wl ← clientUnwatch pcb.clientWatchList pid
          return s.setPcb watcher { pcb with
            clientWatchList := wl
            registered := dropWatch pcb.registered pid }
      | _, _ => .ok s
  | .notificationBuffer pid dataspace =>
      match s.pcbs pid with
      | some pcb => .ok (s.setPcb pid { pcb with
          notificationBuffer := dataspace.map fun id => rbCreate id (s.spaces id) .writeonly })
      | none => .ok s
  | .notify pid frames str =>
      match s.pcbs pid with
      | some pcb =>
          match pcb.notificationBuffer with
          | some rb => do
              let (_, rb', ds) ← rbWrite frames rb (s.spaces rb.dataspace) str
              return { s.setPcb pid { pcb with notificationBuffer := some rb' } with
                spaces := Function.update s.spaces rb.dataspace ds }
          | none => .ok s
      | none => .ok s
  | .dataspace id ds => .ok { s with spaces := Function.update s.spaces id ds }
  | .exit pid frames unset => procExit s pid frames unset

/-! ## The two vectors are one list -/

/-- The two vectors are the columns of the list of registrations: index by index they belong
together, and no PID stands twice. -/
structure Tracks (wl : WatchList) (registered : List Registration) : Prop where
  clients : wl.clientList = registered.map Registration.pid
  endpoints : wl.endpointNotifyList = registered.map Registration.ep
  nodup : wl.clientList.Nodup
  ep_ne : ∀ r ∈ registered, r.ep ≠ 0

theorem findIdx_registered (registered : List Registration) (pid : Nat)
    (hnodup : (registered.map Registration.pid).Nodup) :
    (pid ∉ registered.map Registration.pid ∧
      (registered.map Registration.pid).findIdx? (fun x => x = pid) = none ∧
      dropWatch registered pid = registered) ∨
    ∃ idx r, (registered.map Registration.pid).findIdx? (fun x => x = pid) = some idx ∧
      registered[idx]? = some r ∧ r.pid = pid ∧
      ∀ f : Registration → Nat,
        (registered.map f).eraseIdx idx = (dropWatch registered pid).map f := by
  induction registered with
  | nil => exact Or.inl ⟨by simp, rfl, rfl⟩
  | cons r rest ih =>
      obtain ⟨hnotin, hrest⟩ := List.nodup_cons.1 hnodup
      by_cases hr : r.pid = pid
      · -- found at the head: the rest does not hold the PID
        refine Or.inr ⟨0, r, ?_, rfl, hr, fun f => ?_⟩
        · simp [List.findIdx?_cons, hr]
        · have hkeep : dropWatch rest pid = rest := by
            rw [dropWatch, List.filter_eq_self]
            intro r' hr'
            refine decide_eq_true fun heq => hnotin ?_
            rw [hr, ← heq]
            exact List.mem_map_of_mem hr'
          have hdrop : dropWatch (r :: rest) pid = dropWatch rest pid := by
            simp [dropWatch, hr]
          rw [hdrop, hkeep]
          rfl
      · have hdrop : dropWatch (r :: rest) pid = r :: dropWatch rest pid := by
          simp [dropWatch, hr]
        rcases ih hrest with ⟨hno, hfind, hsame⟩ | ⟨idx, r', hfind, hget, hpid, herase⟩
        · refine Or.inl ⟨?_, ?_, by rw [hdrop, hsame]⟩
          · rw [List.map_cons, List.mem_cons]
            rintro (heq | hmem)
            · exact hr heq.symm
            · exact hno hmem
          · rw [List.map_cons, List.findIdx?_cons, hfind]
            simp [hr]
        · refine Or.inr ⟨idx + 1, r', ?_, hget, hpid, fun f => ?_⟩
          · rw [List.map_cons, List.findIdx?_cons, hfind]
            simp [hr]
          · rw [hdrop, List.map_cons, List.map_cons, List.eraseIdx_cons_succ, herase]

theorem mem_dropWatch {registered : List Registration} {pid : Nat} {r : Registration} :
    r ∈ dropWatch registered pid ↔ r ∈ registered ∧ r.pid ≠ pid := by
  simp [dropWatch]

namespace Tracks

variable {wl : WatchList} {registered : List Registration}

theorem nil : Tracks clientWatchInit [] := ⟨rfl, rfl, List.nodup_nil, by simp⟩

theorem clientUnwatch (h : Tracks wl registered) (pid : Nat) :
    ∃ wl', clientUnwatch wl pid = .ok wl' ∧ Tracks wl' (dropWatch registered pid) := by
  have hnodup := h.clients ▸ h.nodup
  rcases findIdx_registered registered pid hnodup with
    ⟨_, hfind, hsame⟩ | ⟨idx, r, hfind, hget, _, herase⟩
  · refine ⟨wl, ?_, hsame.symm ▸ h⟩
    rw [Refos.clientUnwatch, clientWatchFind, h.clients, hfind]
  · have hep : wl.endpointNotifyList[idx]? = some r.ep := by
      rw [h.endpoints, List.getElem?_map, hget]
      rfl
    have hne := h.ep_ne r (List.mem_of_getElem? hget)
    refine ⟨⟨wl.clientList.eraseIdx idx, wl.endpointNotifyList.eraseIdx idx⟩, ?_, ?_, ?_, ?_, ?_⟩
    · rw [Refos.clientUnwatch, clientWatchFind, h.clients, hfind]
      simp only [hep, hne, if_false]
    · rw [h.clients]
      exact herase _
    · rw [h.endpoints]
      exact herase _
    · exact h.nodup.sublist (List.eraseIdx_sublist _ _)
    · intro r' hr'
      exact h.ep_ne r' (mem_dropWatch.1 hr').1

/-- The endpoint found is 0 exactly if the process is not watched. -/
theorem clientWatchGet (h : Tracks wl registered) (pid : Nat) :
    ∃ ep, clientWatchGet wl pid = .ok ep ∧ (ep = 0 ↔ pid ∉ wl.clientList) := by
  have hnodup := h.clients ▸ h.nodup
  rcases findIdx_registered registered pid hnodup with
    ⟨hnot, hfind, _⟩ | ⟨idx, r, hfind, hget, hpid, _⟩
  · refine ⟨0, ?_, by simpa [h.clients] using hnot⟩
    rw [Refos.clientWatchGet, clientWatchFind, h.clients, hfind]
  · have hmem := List.mem_of_getElem? hget
    have hep : wl.endpointNotifyList[idx]? = some r.ep := by
      rw [h.endpoints, List.getElem?_map, hget]
      rfl
    have hne := h.ep_ne r hmem
    refine ⟨r.ep, ?_, ?_⟩
    · rw [Refos.clientWatchGet, clientWatchFind, h.clients, hfind]
      simp only [hep, hne, if_false]
    · have hin : pid ∈ wl.clientList := by
        rw [h.clients, ← hpid]
        exact List.mem_map_of_mem hmem
      simp [hne, hin]

theorem clientWatch (h : Tracks wl registered) (pid ep incarnation : Nat) (memory : Bool) :
    ∃ error wl', clientWatch wl pid ep memory = .ok (error, wl') ∧
      Tracks wl' (if error = .success then
        dropWatch registered pid ++ [⟨pid, ep, incarnation⟩] else registered) := by
  simp only [Refos.clientWatch]
  by_cases hep : ep = 0
  · exact ⟨.invalidParam, wl, if_pos hep, h⟩
  rw [if_neg hep]
  cases memory with
  | false => exact ⟨.nomem, wl, rfl, h⟩
  | true =>
    -- whether or not the process is watched already, it is not afterwards
    obtain ⟨wl₁, hwl₁, htracks⟩ : ∃ wl₁,
        (if (clientWatchFind wl pid).isSome then Refos.clientUnwatch wl pid else .ok wl) =
          .ok wl₁ ∧ Tracks wl₁ (dropWatch registered pid) := by
      obtain ⟨wl', hwl', htracks⟩ := h.clientUnwatch pid
      split_ifs with hfind
      · exact ⟨wl', hwl', htracks⟩
      · refine ⟨wl, rfl, ?_⟩
        have hnone : clientWatchFind wl pid = none := by simpa using hfind
        rw [Refos.clientUnwatch, hnone] at hwl'
        exact Except.ok.inj hwl' ▸ htracks
    have hnew : pid ∉ wl₁.clientList := by
      rw [htracks.clients, List.mem_map]
      rintro ⟨r, hr, hpid⟩
      exact (mem_dropWatch.1 hr).2 hpid
    refine ⟨.success, ⟨wl₁.clientList ++ [pid], wl₁.endpointNotifyList ++ [ep]⟩, ?_, ?_⟩
    · have hlen : (wl₁.clientList ++ [pid]).length = (wl₁.endpointNotifyList ++ [ep]).length := by
        simp [htracks.clients, htracks.endpoints]
      rw [hwl₁]
      exact if_pos hlen
    · rw [if_pos rfl]
      refine ⟨?_, ?_, ?_, ?_⟩
      · simp [htracks.clients]
      · simp [htracks.endpoints]
      · rw [← List.concat_eq_append]
        exact htracks.nodup.concat hnew
      · intro r hr
        rcases List.mem_append.1 hr with hr | hr
        · exact htracks.ep_ne r hr
        · rw [List.mem_singleton.1 hr]
          exact hep

end Tracks

/-! ## A death -/

/-- The watcher has a notification buffer, and the death notification can be written to it. -/
def delivered (deathPID : Nat) (frames : Nat → Bool) (unset : List UInt8) (pcb : WatchPcb)
    (spaces : Nat → RamDspace) : Bool :=
  match pcb.notificationBuffer with
  | none => false
  | some rb =>
      match rbWrite frames rb (spaces rb.dataspace) (deathNotification deathPID unset) with
      | .ok (error, _, _) => error = .success
      | .error _ => false

/-- Every watcher met by `pid_iterate` gets its notification. -/
def served (deathPID : Nat) (frames : Nat → Nat → Bool) (unset : List UInt8) :
    List Nat → WatchState → Bool
  | [], _ => true
  | i :: pids, s =>
      match s.pcbs i with
      | none => served deathPID frames unset pids s
      | some pcb =>
          (i = deathPID || !pcb.clientWatchList.clientList.contains deathPID ||
            delivered deathPID (frames i) unset pcb s.spaces) &&
          match clientWatchNotifyDeathCallback deathPID (frames i) unset i pcb s.spaces with
          | .ok (pcb', spaces) =>
              served deathPID frames unset pids
                { s with pcbs := Function.update s.pcbs i (some pcb'), spaces := spaces }
          | .error _ => true

/-- What the callback does to one process: it drops a watch exactly where it delivers the
notification. -/
theorem notifyDeathCallback_spec {pcb : WatchPcb} {pid deathPID : Nat}
    (h : Tracks pcb.clientWatchList pcb.registered) (hne : pid ≠ deathPID) (frames : Nat → Bool)
    (unset : List UInt8) (spaces : Nat → RamDspace) :
    ∃ pcb' spaces',
      clientWatchNotifyDeathCallback deathPID frames unset pid pcb spaces = .ok (pcb', spaces') ∧
      Tracks pcb'.clientWatchList pcb'.registered ∧ pcb'.registered ⊆ pcb.registered ∧
      (deathPID ∉ pcb'.clientWatchList.clientList ↔
        (deathPID ∈ pcb.clientWatchList.clientList →
          delivered deathPID frames unset pcb spaces = true)) := by
  obtain ⟨ep, hep, hzero⟩ := h.clientWatchGet deathPID
  simp only [clientWatchNotifyDeathCallback, hne, if_false, hep, bind, Except.bind]
  by_cases hep0 : ep = 0
  · rw [if_pos hep0]
    have hnot := hzero.1 hep0
    exact ⟨pcb, spaces, rfl, h, fun _ hr => hr, by simp [hnot]⟩
  have hin : deathPID ∈ pcb.clientWatchList.clientList := by
    by_contra hnot
    exact hep0 (hzero.2 hnot)
  rw [if_neg hep0]
  cases hrb : pcb.notificationBuffer with
  | none =>
      refine ⟨pcb, spaces, rfl, h, fun _ hr => hr, ?_⟩
      simp [hin, delivered, hrb]
  | some rb =>
      obtain ⟨⟨error, rb', ds⟩, hwrite⟩ := rbWrite_returns frames rb (spaces rb.dataspace)
        (deathNotification deathPID unset)
      have hdelivered : delivered deathPID frames unset pcb spaces = true ↔ error = .success := by
        simp [delivered, hrb, hwrite]
      simp only [hwrite]
      by_cases herror : error = .success
      · obtain ⟨wl, hwl, htracks⟩ := h.clientUnwatch deathPID
        rw [if_neg (not_not.2 herror), hwl]
        refine ⟨_, _, rfl, htracks, fun r hr => (mem_dropWatch.1 hr).1, ?_⟩
        have hgone : deathPID ∉ wl.clientList := by
          rw [htracks.clients, List.mem_map]
          rintro ⟨r, hr, hpid⟩
          exact (mem_dropWatch.1 hr).2 hpid
        simp [hgone, hdelivered, herror]
      · rw [if_pos herror]
        refine ⟨_, _, rfl, h, fun _ hr => hr, ?_⟩
        simp [hin, hdelivered, herror]

/-- Every process has its two vectors in step, and a PID of the table. -/
def WatchOk (s : WatchState) : Prop :=
  ∀ pid pcb, s.pcbs pid = some pcb →
    Tracks pcb.clientWatchList pcb.registered ∧ 1 ≤ pid ∧ pid < s.pids.stop

section SetPcb

variable {s : WatchState} {pid : Nat} {pcb pcb' : WatchPcb}

theorem setPcb_pcbs (w : Nat) :
    (s.setPcb pid pcb').pcbs w = if w = pid then some pcb' else s.pcbs w :=
  Function.update_apply _ _ _ _

theorem WatchOk.setPcb (h : WatchOk s) (hpid : s.pcbs pid = some pcb)
    (htracks : Tracks pcb'.clientWatchList pcb'.registered) : WatchOk (s.setPcb pid pcb') := by
  intro w p hw
  rw [setPcb_pcbs] at hw
  split_ifs at hw with heq
  · obtain rfl := Option.some.inj hw
    obtain ⟨_, hlo, hhi⟩ := h pid pcb hpid
    exact ⟨htracks, heq ▸ hlo, heq ▸ hhi⟩
  · exact h w p hw

end SetPcb

theorem callback_spec {pcb : WatchPcb} (h : Tracks pcb.clientWatchList pcb.registered)
    (i deathPID : Nat) (frames : Nat → Bool) (unset : List UInt8) (spaces : Nat → RamDspace) :
    ∃ pcb' spaces', clientWatchNotifyDeathCallback deathPID frames unset i pcb spaces =
        .ok (pcb', spaces') ∧
      Tracks pcb'.clientWatchList pcb'.registered ∧ pcb'.registered ⊆ pcb.registered ∧
      (i ≠ deathPID → (deathPID ∉ pcb'.clientWatchList.clientList ↔
        (deathPID ∈ pcb.clientWatchList.clientList →
          delivered deathPID frames unset pcb spaces = true))) := by
  by_cases hself : i = deathPID
  · refine ⟨pcb, spaces, ?_, h, fun _ hr => hr, fun hne => absurd hself hne⟩
    rw [clientWatchNotifyDeathCallback, if_pos hself]
  · obtain ⟨pcb', spaces', hcall, htracks, hsub, hiff⟩ :=
      notifyDeathCallback_spec h hself frames unset spaces
    exact ⟨pcb', spaces', hcall, htracks, hsub, fun _ => hiff⟩

/-- The first watcher gets its notification if it does not watch the process any more. -/
theorem served_cons {deathPID i : Nat} {frames : Nat → Nat → Bool} {unset : List UInt8}
    {pids : List Nat} {s : WatchState} {pcb pcb' : WatchPcb} {spaces : Nat → RamDspace}
    (hi : s.pcbs i = some pcb)
    (hcall : clientWatchNotifyDeathCallback deathPID (frames i) unset i pcb s.spaces =
      .ok (pcb', spaces))
    (hiff : i ≠ deathPID → (deathPID ∉ pcb'.clientWatchList.clientList ↔
      (deathPID ∈ pcb.clientWatchList.clientList →
        delivered deathPID (frames i) unset pcb s.spaces = true))) :
    served deathPID frames unset (i :: pids) s = true ↔
      (i ≠ deathPID → deathPID ∉ pcb'.clientWatchList.clientList) ∧
        served deathPID frames unset pids
          { s with pcbs := Function.update s.pcbs i (some pcb'), spaces := spaces } = true := by
  have hhead : (i = deathPID ∨ deathPID ∉ pcb.clientWatchList.clientList ∨
      delivered deathPID (frames i) unset pcb s.spaces = true) ↔
      (i ≠ deathPID → deathPID ∉ pcb'.clientWatchList.clientList) := by
    by_cases hself : i = deathPID
    · simp [hself]
    · simp only [hself, false_or, ne_eq, not_false_eq_true, true_implies, hiff hself]
      exact imp_iff_not_or.symm
  rw [← hhead]
  simp [served, hi, hcall, or_assoc]

/-- `pid_iterate` with the callback: everything it leaves. -/
theorem notifyDeath_spec (deathPID : Nat) (frames : Nat → Nat → Bool) (unset : List UInt8)
    (pids : List Nat) (hnodup : pids.Nodup) {s : WatchState} (h : WatchOk s) :
    ∃ s', notifyDeath deathPID frames unset pids s = .ok s' ∧ s'.pids = s.pids ∧
      s'.incarnation = s.incarnation ∧ WatchOk s' ∧
      (∀ w, w ∉ pids → s'.pcbs w = s.pcbs w) ∧
      (∀ w, (s'.pcbs w).isSome = (s.pcbs w).isSome) ∧
      (∀ w pcb', s'.pcbs w = some pcb' →
        ∃ pcb, s.pcbs w = some pcb ∧ pcb'.registered ⊆ pcb.registered) ∧
      (served deathPID frames unset pids s = true ↔ ∀ w ∈ pids, w ≠ deathPID → ∀ pcb',
        s'.pcbs w = some pcb' → deathPID ∉ pcb'.clientWatchList.clientList) := by
  induction pids generalizing s with
  | nil =>
      exact ⟨s, rfl, rfl, rfl, h, fun _ _ => rfl, fun _ => rfl,
        fun w pcb' hw => ⟨pcb', hw, fun _ hr => hr⟩, by simp [served]⟩
  | cons i pids ih =>
      obtain ⟨hnotin, hrest⟩ := List.nodup_cons.1 hnodup
      cases hi : s.pcbs i with
      | none =>
          obtain ⟨s', hs', hpids, hinc, hok, hout, hsome, hsub, hserved⟩ := ih hrest h
          refine ⟨s', ?_, hpids, hinc, hok, fun w hw => hout w fun hmem => hw (by simp [hmem]),
            hsome, hsub, ?_⟩
          · simp only [notifyDeath, hi]
            exact hs'
          · simp only [served, hi]
            rw [hserved, List.forall_mem_cons]
            refine (and_iff_right ?_).symm
            intro _ pcb' hpcb'
            rw [hout i hnotin, hi] at hpcb'
            cases hpcb'
      | some pcb =>
          -- what the callback makes of process `i`
          obtain ⟨pcb₁, spaces₁, hcall, htracks₁, hsub₁, hiff₁⟩ :=
            callback_spec (h i pcb hi).1 i deathPID (frames i) unset s.spaces
          obtain ⟨s₁, hs₁⟩ : ∃ s₁ : WatchState, s₁ = { s with
              pcbs := Function.update s.pcbs i (some pcb₁), spaces := spaces₁ } := ⟨_, rfl⟩
          have hpcbs₁ : ∀ w, s₁.pcbs w = if w = i then some pcb₁ else s.pcbs w := by
            intro w
            rw [hs₁]
            exact setPcb_pcbs w
          have hstop : s₁.pids = s.pids := by rw [hs₁]
          have hok₁ : WatchOk s₁ := by
            rw [hs₁]
            exact h.setPcb hi htracks₁
          obtain ⟨s', hs', hpids, hinc, hok, hout, hsome, hsub, hserved⟩ := ih hrest hok₁
          have hi' : s'.pcbs i = some pcb₁ := by
            rw [hout i hnotin, hpcbs₁, if_pos rfl]
          refine ⟨s', ?_, hpids.trans hstop, hinc.trans (by rw [hs₁]), hok, ?_, ?_, ?_, ?_⟩
          · simp only [notifyDeath, hi, hcall, bind, Except.bind]
            rw [← hs₁]
            exact hs'
          · intro w hw
            have hne : w ≠ i := fun heq => hw (by simp [heq])
            rw [hout w fun hmem => hw (by simp [hmem]), hpcbs₁, if_neg hne]
          · intro w
            rw [hsome, hpcbs₁]
            split_ifs with heq
            · rw [heq, hi]
              rfl
            · rfl
          · intro w pcb' hw
            obtain ⟨pcb₂, hpcb₂, hsub₂⟩ := hsub w pcb' hw
            rw [hpcbs₁] at hpcb₂
            split_ifs at hpcb₂ with heq
            · obtain rfl := Option.some.inj hpcb₂
              exact ⟨pcb, heq ▸ hi, fun r hr => hsub₁ (hsub₂ hr)⟩
            · exact ⟨pcb₂, hpcb₂, hsub₂⟩
          · rw [served_cons hi hcall hiff₁, ← hs₁, hserved, List.forall_mem_cons]
            refine and_congr_left fun _ => ?_
            simp [hi']

/-! ## Runs -/

/-- Every registration is about the process that lives under its PID now. -/
def Current (s : WatchState) : Prop :=
  ∀ w pcb, s.pcbs w = some pcb → ∀ r ∈ pcb.registered,
    (s.pcbs r.pid).isSome ∧ r.incarnation = s.incarnation r.pid

/-- No watch list holds the PID. -/
def Unwatched (s : WatchState) (pid : Nat) : Prop :=
  ∀ w pcb, s.pcbs w = some pcb → pid ∉ pcb.clientWatchList.clientList

/-- At an exit, every watcher gets its notification. -/
def WatchersServed (s : WatchState) : WatchEvent → Prop
  | .exit pid frames unset => (s.pcbs pid).isSome → served pid frames unset (pidRange s) s = true
  | _ => True

instance (s : WatchState) : (e : WatchEvent) → Decidable (WatchersServed s e)
  | .exit _ _ _ => inferInstanceAs (Decidable (_ → _))
  | .newProcess | .watch _ _ _ _ | .unwatch _ _ | .notificationBuffer _ _ | .notify _ _ _
  | .dataspace _ _ => inferInstanceAs (Decidable True)

section SetPcb

variable {s : WatchState} {pid : Nat} {pcb pcb' : WatchPcb}

theorem Current.setPcb (h : Current s) (hpid : s.pcbs pid = some pcb)
    (hregs : ∀ r ∈ pcb'.registered,
      r ∈ pcb.registered ∨ (s.pcbs r.pid).isSome ∧ r.incarnation = s.incarnation r.pid) :
    Current (s.setPcb pid pcb') := by
  have halive : ∀ q, (s.pcbs q).isSome → ((s.setPcb pid pcb').pcbs q).isSome := by
    intro q hq
    rw [setPcb_pcbs]
    split_ifs
    · rfl
    · exact hq
  intro w p hw r hr
  rw [setPcb_pcbs] at hw
  split_ifs at hw with heq
  · obtain rfl := Option.some.inj hw
    rcases hregs r hr with hold | ⟨hlive, hinc⟩
    · obtain ⟨hlive, hinc⟩ := h pid pcb hpid r hold
      exact ⟨halive _ hlive, hinc⟩
    · exact ⟨halive _ hlive, hinc⟩
  · obtain ⟨hlive, hinc⟩ := h w p hw r hr
    exact ⟨halive _ hlive, hinc⟩

end SetPcb

theorem procNew_spec {s s' : WatchState} (h : WatchOk s) (hs : procNew s = .ok s') :
    WatchOk s' ∧ (Current s → Current s') := by
  simp only [procNew] at hs
  split at hs
  · obtain rfl := Except.ok.inj hs
    exact ⟨h, id⟩
  · rename_i pid pids halloc
    have hpids := Cpool.stop_of_alloc halloc
    split_ifs at hs with hrange hlive
    · obtain rfl := Except.ok.inj hs
      exact ⟨fun w pcb hw => hpids ▸ h w pcb hw, id⟩
    · obtain rfl := Except.ok.inj hs
      have hnone : s.pcbs pid = none := by simpa using hlive
      have hpcbs : ∀ w, Function.update s.pcbs pid (some
          { clientWatchList := clientWatchInit, notificationBuffer := none, registered := [] }) w =
          if w = pid then some
            { clientWatchList := clientWatchInit, notificationBuffer := none, registered := [] }
          else s.pcbs w := fun w => Function.update_apply _ _ _ _
      constructor
      · intro w pcb hw
        simp only [hpcbs] at hw
        split_ifs at hw with heq
        · obtain rfl := Option.some.inj hw
          exact ⟨.nil, by omega, by rw [hpids]; omega⟩
        · obtain ⟨htracks, hlo, hhi⟩ := h w pcb hw
          exact ⟨htracks, hlo, hpids ▸ hhi⟩
      · intro hcur w pcb hw r hr
        simp only [hpcbs] at hw ⊢
        split_ifs at hw with heq
        · obtain rfl := Option.some.inj hw
          cases hr
        · obtain ⟨hlive', hinc⟩ := hcur w pcb hw r hr
          have hne : r.pid ≠ pid := by
            intro hpid
            rw [hpid, hnone] at hlive'
            cases hlive'
          rw [if_neg hne, Function.update_of_ne hne]
          exact ⟨hlive', hinc⟩

/-- An exit: it returns, and leaves no watch on the PID exactly if every watcher is served. -/
theorem procExit_spec {s : WatchState} (h : WatchOk s) {pid : Nat} (hpid : (s.pcbs pid).isSome)
    (frames : Nat → Nat → Bool) (unset : List UInt8) :
    ∃ s', procExit s pid frames unset = .ok s' ∧ WatchOk s' ∧
      (Unwatched s' pid ↔ served pid frames unset (pidRange s) s = true) ∧
      (Current s → served pid frames unset (pidRange s) s = true → Current s') := by
  obtain ⟨pcb, hpcb⟩ := Option.isSome_iff_exists.1 hpid
  obtain ⟨s₁, hs₁, hpids, hinc, hok, _, hsome, hsub, hserved⟩ :=
    notifyDeath_spec pid frames unset (pidRange s) List.nodup_range' h
  have hstop : (s₁.pids.free pid).stop = s₁.pids.stop := by
    rw [Cpool.free]
    split_ifs <;> rfl
  have hpcbs : ∀ w, Function.update s₁.pcbs pid none w =
      if w = pid then none else s₁.pcbs w := fun w => Function.update_apply _ _ _ _
  have hrange : ∀ w pcb', s₁.pcbs w = some pcb' → w ∈ pidRange s := by
    intro w pcb' hw
    obtain ⟨_, hlo, hhi⟩ := hok w pcb' hw
    rw [hpids] at hhi
    rw [pidRange, List.mem_range'_1]
    omega
  refine ⟨{ s₁ with pcbs := Function.update s₁.pcbs pid none, pids := s₁.pids.free pid },
    ?_, ?_, ?_, ?_⟩
  · simp only [procExit, hpcb, hs₁]
    rfl
  · intro w pcb' hw
    simp only [hpcbs] at hw
    split_ifs at hw
    obtain ⟨htracks, hlo, hhi⟩ := hok w pcb' hw
    exact ⟨htracks, hlo, by rw [hstop]; exact hhi⟩
  · rw [hserved]
    constructor
    · intro hun w _ hne pcb' hw
      refine hun w pcb' ?_
      simp only [hpcbs, hne, if_false]
      exact hw
    · intro hall w pcb' hw
      simp only [hpcbs] at hw
      split_ifs at hw with heq
      exact hall w (hrange w pcb' hw) heq pcb' hw
  · intro hcur hserve w pcb' hw r hr
    simp only [hpcbs] at hw ⊢
    split_ifs at hw with heq
    have hgone := hserved.1 hserve w (hrange w pcb' hw) heq pcb' hw
    have hne : r.pid ≠ pid := by
      intro hrpid
      refine hgone ?_
      rw [(hok w pcb' hw).1.clients, ← hrpid]
      exact List.mem_map_of_mem hr
    obtain ⟨pcb, hpcb', hregs⟩ := hsub w pcb' hw
    obtain ⟨hlive, hrinc⟩ := hcur w pcb hpcb' r (hregs hr)
    rw [if_neg hne, hsome, hinc]
    exact ⟨hlive, hrinc⟩

/-- The vectors stay in step, and the registrations current. -/
def WatchState.Keeps (s s' : WatchState) : Prop := WatchOk s' ∧ (Current s → Current s')

theorem WatchOk.keeps {s : WatchState} (h : WatchOk s) : s.Keeps s := ⟨h, id⟩

theorem WatchOk.keeps_setPcb {s : WatchState} {pid : Nat} {pcb pcb' : WatchPcb} (h : WatchOk s)
    (hpid : s.pcbs pid = some pcb) (htracks : Tracks pcb'.clientWatchList pcb'.registered)
    (hregs : ∀ r ∈ pcb'.registered,
      r ∈ pcb.registered ∨ (s.pcbs r.pid).isSome ∧ r.incarnation = s.incarnation r.pid) :
    s.Keeps (s.setPcb pid pcb') :=
  ⟨h.setPcb hpid htracks, fun hc => hc.setPcb hpid hregs⟩

theorem watch_keeps {s s' : WatchState} {watcher pid ep : Nat} {memory : Bool} (h : WatchOk s)
    (hs : watchStep s (.watch watcher pid ep memory) = .ok s') : s.Keeps s' := by
  simp only [watchStep] at hs
  split at hs
  · rename_i pcb _ hpcb hclient
    obtain ⟨error, wl, hwl, htracks⟩ :=
      (h watcher pcb hpcb).1.clientWatch pid ep (s.incarnation pid) memory
    rw [hwl] at hs
    obtain rfl := Except.ok.inj hs
    refine h.keeps_setPcb hpcb htracks fun r hr => ?_
    simp only at hr
    split_ifs at hr
    · rcases List.mem_append.1 hr with hr | hr
      · exact Or.inl (mem_dropWatch.1 hr).1
      · rw [List.mem_singleton.1 hr]
        exact Or.inr ⟨by rw [hclient]; rfl, rfl⟩
    · exact Or.inl hr
  · obtain rfl := Except.ok.inj hs
    exact h.keeps

theorem unwatch_keeps {s s' : WatchState} {watcher pid : Nat} (h : WatchOk s)
    (hs : watchStep s (.unwatch watcher pid) = .ok s') : s.Keeps s' := by
  simp only [watchStep] at hs
  split at hs
  · rename_i pcb _ hpcb _
    obtain ⟨wl, hwl, htracks⟩ := (h watcher pcb hpcb).1.clientUnwatch pid
    rw [hwl] at hs
    obtain rfl := Except.ok.inj hs
    exact h.keeps_setPcb hpcb htracks fun r hr => Or.inl (mem_dropWatch.1 hr).1
  · obtain rfl := Except.ok.inj hs
    exact h.keeps

theorem notificationBuffer_keeps {s s' : WatchState} {pid : Nat} {dataspace : Option Nat}
    (h : WatchOk s) (hs : watchStep s (.notificationBuffer pid dataspace) = .ok s') :
    s.Keeps s' := by
  simp only [watchStep] at hs
  split at hs
  · rename_i pcb hpcb
    obtain rfl := Except.ok.inj hs
    exact h.keeps_setPcb hpcb (h pid pcb hpcb).1 fun r hr => Or.inl hr
  · obtain rfl := Except.ok.inj hs
    exact h.keeps

theorem notify_keeps {s s' : WatchState} {pid : Nat} {frames : Nat → Bool} {str : List UInt8}
    (h : WatchOk s) (hs : watchStep s (.notify pid frames str) = .ok s') : s.Keeps s' := by
  simp only [watchStep] at hs
  split at hs
  · rename_i pcb hpcb
    split at hs
    · rename_i rb _
      obtain ⟨⟨error, rb', ds⟩, hwrite⟩ := rbWrite_returns frames rb (s.spaces rb.dataspace) str
      rw [hwrite] at hs
      obtain rfl := Except.ok.inj hs
      have hkeeps : s.Keeps (s.setPcb pid { pcb with notificationBuffer := some rb' }) :=
        h.keeps_setPcb hpcb (h pid pcb hpcb).1 fun r hr => Or.inl hr
      -- the contents of a dataspace are not part of the invariant
      exact ⟨hkeeps.1, hkeeps.2⟩
    · obtain rfl := Except.ok.inj hs
      exact h.keeps
  · obtain rfl := Except.ok.inj hs
    exact h.keeps

/-- Every event keeps the vectors in step, and if exits serve their watchers, the registrations
current. -/
theorem watchStep_spec {s s' : WatchState} {e : WatchEvent} (h : WatchOk s)
    (hs : watchStep s e = .ok s') :
    WatchOk s' ∧ (Current s → WatchersServed s e → Current s') := by
  have hkeeps : s.Keeps s' → WatchOk s' ∧ (Current s → WatchersServed s e → Current s') :=
    fun ⟨hok, hcur⟩ => ⟨hok, fun hc _ => hcur hc⟩
  cases e with
  | newProcess => exact hkeeps (procNew_spec h hs)
  | dataspace id ds =>
      obtain rfl := Except.ok.inj hs
      exact ⟨h, fun hc _ => hc⟩
  | exit pid frames unset =>
      cases hpid : s.pcbs pid with
      | none =>
          simp only [watchStep, procExit, hpid] at hs
          obtain rfl := Except.ok.inj hs
          exact hkeeps h.keeps
      | some pcb =>
          have hsome : (s.pcbs pid).isSome := by rw [hpid]; rfl
          obtain ⟨s₁, hs₁, hok, _, hcur⟩ := procExit_spec h hsome frames unset
          obtain rfl := Except.ok.inj (hs₁.symm.trans hs)
          exact ⟨hok, fun hc hserve => hcur hc (hserve hsome)⟩
  | notificationBuffer pid dataspace => exact hkeeps (notificationBuffer_keeps h hs)
  | notify pid frames str => exact hkeeps (notify_keeps h hs)
  | unwatch watcher pid => exact hkeeps (unwatch_keeps h hs)
  | watch watcher pid ep memory => exact hkeeps (watch_keeps h hs)

/-- **Death watches.** In every state reached, the two vectors of every watch list are in step and
hold no PID twice; and the exit of a process returns, and leaves no watch on its PID if and only if
every other process that watches it has a notification buffer to which the notification can be
written. In runs in which this is so at every exit, every registration is about the process that
lives under the PID, never about an earlier one. -/
theorem death_watch_iff (pidMax : Nat) (spaces : Nat → RamDspace) :
    (∀ evs s, Run watchStep (fun _ _ => True) (watchInit pidMax spaces) evs s →
      (∀ w pcb, s.pcbs w = some pcb → Tracks pcb.clientWatchList pcb.registered) ∧
      ∀ pid frames unset, (s.pcbs pid).isSome →
        ∃ s', watchStep s (.exit pid frames unset) = .ok s' ∧
          (Unwatched s' pid ↔ served pid frames unset (pidRange s) s = true)) ∧
    (∀ evs s, Run watchStep WatchersServed (watchInit pidMax spaces) evs s → Current s) := by
  have hinit : WatchOk (watchInit pidMax spaces) := by
    intro w pcb hw
    cases hw
  constructor
  · intro evs s hrun
    have hok : WatchOk s := hrun.invariant hinit fun _ _ _ h _ hs => (watchStep_spec h hs).1
    refine ⟨fun w pcb hw => (hok w pcb hw).1, fun pid frames unset hpid => ?_⟩
    obtain ⟨s', hs', _, hiff, _⟩ := procExit_spec hok hpid frames unset
    exact ⟨s', hs', hiff⟩
  · intro evs s hrun
    have hboth : WatchOk s ∧ Current s := by
      refine hrun.invariant (I := fun s => WatchOk s ∧ Current s) ⟨hinit, ?_⟩ ?_
      · intro w pcb hw
        cases hw
      · intro t e u ht hserve hu
        obtain ⟨hok, hcur⟩ := watchStep_spec ht.1 hu
        exact ⟨hok, hcur ht.2 hserve⟩
    exact hboth.2

/-- A table for three processes, and dataspaces of one page each. -/
def smallWatch : WatchState := watchInit 4 fun _ => ramDspaceOatCreate 4096

/-- Process 1 has a notification buffer and watches process 2. The exit of 2 leaves no watch. -/
theorem death_watch_iff_delivered :
    ∃ s s', Run watchStep WatchersServed smallWatch
        [.newProcess, .newProcess, .notificationBuffer 1 (some 5), .watch 1 2 7 true] s ∧
      watchStep s (.exit 2 (fun _ => allFrames) (List.replicate 24 0)) = .ok s' ∧
      Unwatched s' 2 ∧ Current s := by
  obtain ⟨s, hrun, hpid, hserved⟩ : ∃ s, Run watchStep WatchersServed smallWatch
      [.newProcess, .newProcess, .notificationBuffer 1 (some 5), .watch 1 2 7 true] s ∧
        (s.pcbs 2).isSome = true ∧
        served 2 (fun _ => allFrames) (List.replicate 24 0) (pidRange s) s = true := by
    apply Run.exists_of_exec
    decide +kernel
  obtain ⟨hreached, hcurrent⟩ := death_watch_iff 4 fun _ => ramDspaceOatCreate 4096
  obtain ⟨_, hexit⟩ := hreached _ s (hrun.mono fun _ _ _ => trivial)
  obtain ⟨s', hs', hiff⟩ := hexit 2 (fun _ => allFrames) (List.replicate 24 0) hpid
  exact ⟨s, s', hrun, hs', hiff.2 hserved, hcurrent _ s hrun⟩

/-- The watches of a process. -/
def watchesOf (s : WatchState) (pid : Nat) : Option (WatchList × List Registration) :=
  (s.pcbs pid).map fun pcb => (pcb.clientWatchList, pcb.registered)

/-- Process 1 watches process 2 and has no notification buffer. After the exit of 2 it still watches
PID 2, and when the next process gets that PID, the watch is on it. -/
theorem watch_outlives_process :
    (∃ s, Run watchStep (fun _ _ => True) smallWatch
        [.newProcess, .newProcess, .watch 1 2 7 true,
          .exit 2 (fun _ => allFrames) (List.replicate 24 0)] s ∧
      (s.pcbs 2).isNone = true ∧ watchesOf s 1 = some (⟨[2], [7]⟩, [⟨2, 7, 1⟩]) ∧
      ¬Unwatched s 2) ∧
    ∃ s, Run watchStep (fun _ _ => True) smallWatch
        [.newProcess, .newProcess, .watch 1 2 7 true,
          .exit 2 (fun _ => allFrames) (List.replicate 24 0), .newProcess] s ∧
      (s.pcbs 2).isSome = true ∧ watchesOf s 1 = some (⟨[2], [7]⟩, [⟨2, 7, 1⟩]) ∧
      s.incarnation 2 = 2 ∧ ¬Current s := by
  constructor
  · obtain ⟨s, hrun, hnone, hwatch⟩ : ∃ s, Run watchStep (fun _ _ => True) smallWatch
        [.newProcess, .newProcess, .watch 1 2 7 true,
          .exit 2 (fun _ => allFrames) (List.replicate 24 0)] s ∧
        (s.pcbs 2).isNone = true ∧ watchesOf s 1 = some (⟨[2], [7]⟩, [⟨2, 7, 1⟩]) := by
      apply Run.exists_of_exec
      decide +kernel
    refine ⟨s, hrun, hnone, hwatch, fun hun => ?_⟩
    obtain ⟨pcb, hpcb, hlists⟩ := Option.map_eq_some_iff.1 hwatch
    refine hun 1 pcb hpcb ?_
    rw [(Prod.mk.inj hlists).1]
    decide
  · obtain ⟨s, hrun, hsome, hwatch, hinc⟩ : ∃ s, Run watchStep (fun _ _ => True) smallWatch
        [.newProcess, .newProcess, .watch 1 2 7 true,
          .exit 2 (fun _ => allFrames) (List.replicate 24 0), .newProcess] s ∧
        (s.pcbs 2).isSome = true ∧ watchesOf s 1 = some (⟨[2], [7]⟩, [⟨2, 7, 1⟩]) ∧
        s.incarnation 2 = 2 := by
      apply Run.exists_of_exec
      decide +kernel
    refine ⟨s, hrun, hsome, hwatch, hinc, fun hcur => ?_⟩
    obtain ⟨pcb, hpcb, hlists⟩ := Option.map_eq_some_iff.1 hwatch
    have hr : (⟨2, 7, 1⟩ : Registration) ∈ pcb.registered := by
      rw [(Prod.mk.inj hlists).2]
      simp
    have hold := (hcur 1 pcb hpcb _ hr).2
    rw [hinc] at hold
    exact absurd hold (by decide)

end PartitionSeL4.Refos
