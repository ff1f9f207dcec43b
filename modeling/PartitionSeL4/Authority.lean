import PartitionSeL4.Isolation

/-!
# Who may make a request

The system-call dispatchers behind the APEX branches of `proc_server_handle_message` all start with
the same check (`check_dispatch_interface`): the message is no fault, and its badge is the PID badge
of a process. The APEX branches come before it. They compare message register 0 with their labels
and look at neither the badge nor the kind of the message (`apexBranch_ignores_sender`), so that any
process, and a fault whose instruction pointer happens to be a label, can change the scheduling
records of whatever partition is current.

`authority_respected` is what remains: in a run in which every message that an APEX branch acts upon
is an authorised one, the records change for authorised messages only. There is no other way. A
request that stops the thread running is respected only if it is authorised; and in every state
there are register contents that make an APEX branch change a record (`Inv.exists_change`), so that
a sender keeps to its authority whatever it sends only if it is the authorised one.
-/

namespace PartitionSeL4

open Lib

/-- `seL4_NoFault` and `seL4_VMFault` -/
def seL4NoFault : UInt32 := 0
def seL4VMFault : UInt32 := 2

/-- `PID_BADGE_BASE` -/
def pidBadgeBase : Nat := 3

/-- `PID_MAX` -/
def pidMax : Nat := 2048

/-- `dispatcher_badge_PID` -/
def dispatcherBadgePid (badge : UInt32) : Prop :=
  pidBadgeBase ≤ badge.toNat ∧ badge.toNat < pidBadgeBase + pidMax

instance (badge : UInt32) : Decidable (dispatcherBadgePid badge) :=
  inferInstanceAs (Decidable (_ ∧ _))

/-- The message is no fault, and comes from the process of the current partition. -/
def Authorised (s : State) (msg : Msg) : Prop :=
  msg.infoLabel = seL4NoFault ∧ dispatcherBadgePid msg.badge ∧
    msg.badge.toNat = s.currentPartition + configPcbOffset + pidBadgeBase

instance (s : State) (msg : Msg) : Decidable (Authorised s msg) :=
  inferInstanceAs (Decidable (_ ∧ _ ∧ _))

/-- The two arrays of scheduling records are the same. -/
def RecordsKept (s s' : State) : Prop :=
  s'.procArray = s.procArray ∧ s'.partArray = s.partArray

/-! ## Runs of messages -/

/-- What can happen to the process server, messages being the raw ones. -/
inductive ServerEvent where
  | tick
  | message (msg : Msg)
  | threadCreate

/-- The effect of one event; `dispatch` is the dispatchers behind the APEX branches. -/
def serverStep (cfg : Config) (dispatch : State → Msg → Except Failure State) (s : State) :
    ServerEvent → Except Failure State
  | .tick => step cfg s .tick
  | .message msg => procServerHandleMessage cfg dispatch s msg
  | .threadCreate => step cfg s .threadCreate

/-- An APEX branch changes scheduling records for an authorised message only. -/
def AuthorityRespected (s : State) (e : ServerEvent) (s' : State) : Prop :=
  match e with
  | .message msg => (ApexRequest.ofMsg msg).isSome → ¬RecordsKept s s' → Authorised s msg
  | _ => True

/-- The message is authorised, or no APEX branch acts upon it: its label is another one, or the
branch refuses the request. -/
def AuthorisedOrRefused (s : State) (e : ServerEvent) : Prop :=
  match e with
  | .message msg => Authorised s msg ∨ ∀ r, ApexRequest.ofMsg msg = some r → ¬Effective s r
  | _ => True

/-- The APEX branches look at nothing but the message registers. -/
theorem apexBranch_ignores_sender (cfg : Config) (dispatch : State → Msg → Except Failure State)
    (s : State) (msg : Msg) (badge infoLabel : UInt32) (h : (ApexRequest.ofMsg msg).isSome) :
    procServerHandleMessage cfg dispatch s { msg with badge := badge, infoLabel := infoLabel } =
      procServerHandleMessage cfg dispatch s msg := by
  have hsame : ApexRequest.ofMsg { msg with badge := badge, infoLabel := infoLabel } =
      ApexRequest.ofMsg msg := rfl
  obtain ⟨r, hr⟩ := Option.isSome_iff_exists.1 h
  simp only [procServerHandleMessage, hsame, hr]

theorem recordsKept_of_refused {cfg : Config} {dispatch : State → Msg → Except Failure State}
    {s s' : State} {msg : Msg} {r : ApexRequest} (hr : ApexRequest.ofMsg msg = some r)
    (hrefused : ¬Effective s r) (hs : procServerHandleMessage cfg dispatch s msg = .ok s') :
    RecordsKept s s' := by
  simp only [procServerHandleMessage, hr] at hs
  obtain ⟨_, rfl⟩ := (step_request_of_not_effective hrefused).1 hs
  exact ⟨rfl, rfl⟩

theorem step_authorityRespected {cfg : Config} {dispatch : State → Msg → Except Failure State}
    {s s' : State} {e : ServerEvent} (hok : AuthorisedOrRefused s e)
    (hs : serverStep cfg dispatch s e = .ok s') : AuthorityRespected s e s' := by
  cases e with
  | tick => trivial
  | threadCreate => trivial
  | message msg =>
      intro hapex hchanged
      obtain ⟨r, hr⟩ := Option.isSome_iff_exists.1 hapex
      rcases hok with hauth | hrefused
      · exact hauth
      · exact absurd (recordsKept_of_refused hr (hrefused r hr) hs) hchanged

/-! ## Stopping the thread that runs -/

theorem Process.charge_status_ne_runnable {t : Process} (h : t.status ≠ .runnable) :
    t.charge.status ≠ .runnable := by
  unfold Process.charge
  split_ifs with hpos
  · show (if _ then _ else _) ≠ _
    split_ifs
    · simp
    · exact h
  · simp

theorem not_recordsKept_of_stops {cfg : Config} (hcfg : cfg.PartitionsOk) {s s' : State}
    (h : Inv cfg s) (hmode : (s.partArray s.currentPartition).mode = .normal)
    (hidle : s.currentThread ≠ cfg.idleThread) {r : ApexRequest}
    (hstops : r.Stops s s.currentThread) (henters : Effective s r)
    (hs : step cfg s (.request r) = .ok s') : ¬RecordsKept s s' := by
  have hp := h.currentPartition_lt
  obtain ⟨hown, hrun⟩ := (h.elected.normal hmode).resolve_right hidle
  have hready := h.toReady.enter hcfg (.request r)
  have hentry := hstops.entry_eq hcfg h
  have hafter : (s'.procArray s.currentThread).status ≠ .runnable := by
    rcases step_procArray hs s.currentThread with ⟨hnot, _⟩ | ⟨hcreate, _⟩ | ⟨_, heq⟩
    · exact absurd henters hnot
    · cases hcreate
    · rw [heq, hready.schedThread_eq hcfg hp (hready.electedPartition_lt hcfg) hown,
        hready.activatedThread_of_stopped hp hown (by rw [hentry])]
      split_ifs
      · exact Process.charge_status_ne_runnable (by simp [hentry])
      · simp [hentry]
  rintro ⟨hprocs, _⟩
  rw [hprocs] at hafter
  exact hafter hrun

/-! ## Any sender can change a record -/

/-- The contents of the message registers that make a request. -/
def ApexRequest.registers (r : ApexRequest) (n : Nat) : UInt32 :=
  match r, n with
  | .giveUp, 0 => 0xabcd
  | .setPartitionMode _, 0 => 0xf001
  | .setPartitionMode mode, 1 => mode.toUInt32
  | .stopSelf, 0 => 0xf002
  | .suspendSelf, 0 => 0xf003
  | .setPriority _ _, 0 => 0xf004
  | .setPriority id _, 1 => id.toUInt32
  | .setPriority _ prio, 2 => prio.toUInt32
  | .suspend _, 0 => 0xf005
  | .suspend id, 1 => id.toUInt32
  | .resume _, 0 => 0xf006
  | .resume id, 1 => id.toUInt32
  | _, _ => 0

theorem ofMsg_registers (r : ApexRequest) (msg : Msg) :
    ApexRequest.ofMsg { msg with mr := r.registers } = some r := by
  cases r <;> rfl

/-- What a request made while the processor idles leaves of the idle thread's status. -/
theorem step_idle_status {cfg : Config} (hcfg : cfg.PartitionsOk) {s s' : State} (h : Inv cfg s)
    {r : ApexRequest} (henters : Effective s r) (htarget : r.target s = cfg.idleThread)
    (hs : step cfg s (.request r) = .ok s') :
    (s'.procArray cfg.idleThread).status =
      (r.effect s (s.procArray cfg.idleThread)).status := by
  have hready := h.toReady.enter hcfg (.request r)
  rcases step_procArray hs cfg.idleThread with ⟨hnot, _⟩ | ⟨hcreate, _⟩ | ⟨_, heq⟩
  · exact absurd henters hnot
  · cases hcreate
  · rw [heq, hready.schedThread_idle hcfg (hready.electedPartition_lt hcfg),
      h.toReady.entry_procArray hcfg, if_pos htarget.symm]

/-- **In every state, some request changes a scheduling record.** -/
theorem Inv.exists_change {cfg : Config} (hcfg : cfg.PartitionsOk) {s : State} (h : Inv cfg s) :
    ∃ r s', step cfg s (.request r) = .ok s' ∧ ¬RecordsKept s s' := by
  by_cases hidle : s.currentThread = cfg.idleThread
  · -- Of giving up and stopping, one gives the idle thread a status that it does not have.
    obtain ⟨s₁, hs₁⟩ := step_progress (e := .request .giveUp) hcfg h trivial (by simp)
    obtain ⟨s₂, hs₂⟩ := step_progress (e := .request .stopSelf) hcfg h trivial (by simp)
    have hwait := step_idle_status (r := .giveUp) hcfg h trivial hidle hs₁
    have hstop := step_idle_status (r := .stopSelf) hcfg h trivial hidle hs₂
    by_cases hkeep : RecordsKept s s₁
    · refine ⟨.stopSelf, s₂, hs₂, fun hkeep' => ?_⟩
      rw [hkeep.1] at hwait
      rw [hkeep'.1, hwait] at hstop
      cases hstop
    · exact ⟨.giveUp, s₁, hs₁, hkeep⟩
  · by_cases hmode : (s.partArray s.currentPartition).mode = .normal
    · obtain ⟨s', hs'⟩ := step_progress (e := .request .stopSelf) hcfg h trivial (by simp)
      exact ⟨.stopSelf, s', hs', not_recordsKept_of_stops (r := .stopSelf) hcfg h hmode hidle rfl
        trivial hs'⟩
    · -- The main thread of a partition in a start mode can ask for the normal mode.
      have hmain : s.currentThread = (s.partArray s.currentPartition).threadMain := by
        rw [h.layout.threadMain _ h.currentPartition_lt]
        exact (h.elected.start hmode).resolve_right hidle
      have hacc : Accepted s (.setPartitionMode partModeNormal) := ⟨rfl, hmain⟩
      obtain ⟨s', hs'⟩ := step_progress (e := .request (.setPartitionMode partModeNormal)) hcfg h
        hacc (by simp)
      refine ⟨.setPartitionMode partModeNormal, s', hs', fun hkeep => ?_⟩
      have hafter := pokSched_mode ((step_of_enters (by exact hacc)).symm.trans hs')
        s.currentPartition
      rw [hkeep.2, entry_partArray, if_pos ⟨rfl, rfl⟩] at hafter
      exact hmode hafter

/-- A sender keeps to its authority whatever it sends if and only if it is the authorised one. -/
theorem authorised_iff {cfg : Config} (hcfg : cfg.PartitionsOk)
    (dispatch : State → Msg → Except Failure State) {s : State} (h : Inv cfg s) (msg : Msg) :
    (∀ mr s', procServerHandleMessage cfg dispatch s { msg with mr := mr } = .ok s' →
        AuthorityRespected s (.message { msg with mr := mr }) s') ↔ Authorised s msg := by
  constructor
  · intro hrespected
    obtain ⟨r, s', hs', hchanged⟩ := h.exists_change hcfg
    have hmsg := ofMsg_registers r msg
    refine hrespected r.registers s' ?_ (by simp [hmsg]) hchanged
    simp only [procServerHandleMessage, hmsg]
    exact hs'
  · intro hauth mr s' _ _ _
    exact hauth

/-- **Request authority.** In every run in which each message is authorised or not acted upon by an
APEX branch, the APEX branches change scheduling records for authorised messages only. And in every
state reached: a sender is respected whatever the registers of its message are if and only if it is
authorised; and if a thread of a partition in normal mode is current, a message that stops it is
respected if and only if it is authorised. -/
theorem authority_respected (cfg : Config) (dispatch : State → Msg → Except Failure State) :
    (∀ s₀ evs s, Run (serverStep cfg dispatch) AuthorisedOrRefused s₀ evs s →
      Steps (serverStep cfg dispatch) AuthorityRespected evs s₀) ∧
    (cfg.PartitionsOk → ∀ evs s, Reached cfg (fun _ _ => True) evs s → ∀ msg,
      (∀ mr s', procServerHandleMessage cfg dispatch s { msg with mr := mr } = .ok s' →
        AuthorityRespected s (.message { msg with mr := mr }) s') ↔ Authorised s msg) ∧
    (cfg.PartitionsOk → ∀ evs s, Reached cfg (fun _ _ => True) evs s →
      (s.partArray s.currentPartition).mode = .normal → s.currentThread ≠ cfg.idleThread →
      ∀ msg, ApexRequest.ofMsg msg = some .stopSelf ∨ ApexRequest.ofMsg msg = some .suspendSelf →
        ∃ s', procServerHandleMessage cfg dispatch s msg = .ok s' ∧
          (AuthorityRespected s (.message msg) s' ↔ Authorised s msg)) := by
  refine ⟨?_, ?_, ?_⟩
  · intro s₀ evs s hrun
    exact hrun.steps fun s e s' hok hs => step_authorityRespected hok hs
  · intro hcfg evs s hreach msg
    exact authorised_iff hcfg dispatch (hreach.inv hcfg) msg
  · intro hcfg evs s hreach hmode hidle msg hmsg
    have hinv := hreach.inv hcfg
    obtain ⟨r, hr, hstops, heff, hok⟩ : ∃ r, ApexRequest.ofMsg msg = some r ∧
        r.Stops s s.currentThread ∧ Effective s r ∧ Accepted s r := by
      rcases hmsg with hr | hr
      · exact ⟨_, hr, rfl, trivial, trivial⟩
      · exact ⟨_, hr, rfl, trivial, trivial⟩
    obtain ⟨s', hs'⟩ := step_progress (e := .request r) hcfg hinv hok (by simp)
    have hhandle : procServerHandleMessage cfg dispatch s msg = .ok s' := by
      simp only [procServerHandleMessage, hr]
      exact hs'
    refine ⟨s', hhandle, ?_⟩
    constructor
    · intro hrespected
      exact hrespected (by simp [hr])
        (not_recordsKept_of_stops hcfg hinv hmode hidle hstops heff hs')
    · intro hauth _ _
      exact hauth

/-- A message with given badge, label and first two registers. -/
def Msg.of (badge infoLabel mr0 mr1 : UInt32) : Msg where
  badge := badge
  infoLabel := infoLabel
  mr n := if n = 0 then mr0 else if n = 1 then mr1 else 0

/-- The request of partition 0's process to enter the normal mode. -/
def enterNormalMsg : Msg := .of 6 seL4NoFault 0xf001 3

/-- A VM fault of partition 1's process, at instruction address 0xf002. -/
def faultMsg : Msg := .of 7 seL4VMFault 0xf002 0

/-- Dispatchers that leave the scheduler alone. -/
def dispatchOther (s : State) (_ : Msg) : Except Failure State := .ok s

theorem exists_serverRun {evs : List ServerEvent} {P : State → Prop} [DecidablePred P]
    (h : (match systemInit deployment with
      | .ok s₀ => (Run.exec (serverStep deployment dispatchOther) (fun _ _ => True) evs
          (schedulerThreadStart s₀)).any fun s => P s
      | .error _ => false) = true) :
    ∃ s₀ s, systemInit deployment = .ok s₀ ∧
      Run (serverStep deployment dispatchOther) (fun _ _ => True) (schedulerThreadStart s₀) evs s ∧
      P s := by
  cases hinit : systemInit deployment with
  | error f => simp [hinit] at h
  | ok s₀ =>
      rw [hinit] at h
      obtain ⟨s, hrun, hP⟩ := Run.exists_of_exec h
      exact ⟨s₀, s, rfl, hrun, hP⟩

/-- In the deployed configuration, thread 1 of partition 0 asks to be stopped: the message with the
badge of its own process is respected, and so is the run in which it is sent. -/
theorem authority_respected_deployed :
    ∃ s s', Reached deployment (fun _ _ => True)
        [.tick, .threadCreate, .request (.setPartitionMode partModeNormal)] s ∧
      procServerHandleMessage deployment dispatchOther s (.of 6 seL4NoFault 0xf002 0) = .ok s' ∧
      AuthorityRespected s (.message (.of 6 seL4NoFault 0xf002 0)) s' ∧
      Steps (serverStep deployment dispatchOther) AuthorityRespected
        [.message (.of 6 seL4NoFault 0xf002 0)] s := by
  obtain ⟨s, hs, hmode, hidle, hauth⟩ : ∃ s, Reached deployment (fun _ _ => True)
      [.tick, .threadCreate, .request (.setPartitionMode partModeNormal)] s ∧
        (s.partArray s.currentPartition).mode = .normal ∧
        s.currentThread ≠ deployment.idleThread ∧
        Authorised s (.of 6 seL4NoFault 0xf002 0) := by
    apply Reached.exists_of_boot
    decide +kernel
  obtain ⟨hruns, _, hstops⟩ := authority_respected deployment dispatchOther
  obtain ⟨s', hs', hiff⟩ := hstops deployment_partitionsOk _ s hs hmode hidle
    (.of 6 seL4NoFault 0xf002 0) (Or.inl (by decide))
  exact ⟨s, s', hs, hs', hiff.2 hauth,
    hruns s _ s' (Run.single (Or.inl hauth) hs')⟩

/-- The status of the current thread before and after a message. -/
def currentStatus (s : State) (msg : Msg) : Option (PokState × PokState) :=
  match procServerHandleMessage deployment dispatchOther s msg with
  | .ok s' =>
      some ((s.procArray s.currentThread).status, (s'.procArray s.currentThread).status)
  | .error _ => none

/-- A VM fault of partition 1's process stops the thread of partition 0 that is running. -/
theorem fault_stops_thread :
    ∃ s₀ s s', systemInit deployment = .ok s₀ ∧
      Run (serverStep deployment dispatchOther) (fun _ _ => True) (schedulerThreadStart s₀)
        [.tick, .threadCreate, .message enterNormalMsg] s ∧
      procServerHandleMessage deployment dispatchOther s faultMsg = .ok s' ∧
      ¬Authorised s faultMsg ∧ ¬RecordsKept s s' ∧
      ¬AuthorityRespected s (.message faultMsg) s' := by
  obtain ⟨s₀, s, hinit, hrun, hauth, hstatus⟩ : ∃ s₀ s, systemInit deployment = .ok s₀ ∧
      Run (serverStep deployment dispatchOther) (fun _ _ => True) (schedulerThreadStart s₀)
        [.tick, .threadCreate, .message enterNormalMsg] s ∧
      ¬Authorised s faultMsg ∧ currentStatus s faultMsg = some (.runnable, .stopped) := by
    apply exists_serverRun
    decide +kernel
  rw [currentStatus] at hstatus
  cases hs' : procServerHandleMessage deployment dispatchOther s faultMsg with
  | error f => simp [hs'] at hstatus
  | ok s' =>
      simp only [hs', Option.some.injEq, Prod.mk.injEq] at hstatus
      have hchanged : ¬RecordsKept s s' := by
        rintro ⟨hprocs, _⟩
        rw [hprocs, hstatus.1] at hstatus
        cases hstatus.2
      exact ⟨s₀, s, s', hinit, hrun, hs', hauth, hchanged, fun hrespected =>
        hauth (hrespected (by decide) hchanged)⟩

end PartitionSeL4
