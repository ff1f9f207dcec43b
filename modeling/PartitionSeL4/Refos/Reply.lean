import PartitionSeL4.Lib.Run
import PartitionSeL4.Refos.DataStruct

/-!
# Saved replies: who is answered by whom

A process blocks in two ways that the process server answers later: in a blocking `proc_new_proc`,
until the child exits, and on a page fault delegated to a pager, until the pager maps a page. For
both there is one slot in the PCB, `faultReply`. The exit of a child answers whatever its parent has
saved if the parent's flag `parentWaiting` is set, and `proc_window_map` answers whatever the owner
of the window has saved.

The flag is set by the first blocking `proc_new_proc` and stays set, so that later children answer
page faults, and other children answer a parent that is blocked on one of them. It is cleared in the
wrong place: when a process exits, its children lose *their* flags, and with them the answers they
are waiting for themselves. `reply_of_undisputed` says that this is all: in a run in which no event
meets a saved reply that it is not for (`Undisputed`), a parent is answered exactly once, by the
child it waits for, and a page fault only by a mapping into its window.
-/

namespace PartitionSeL4.Refos

open Lib

/-! ## Blocked threads -/

/-- What a thread is blocked on. -/
inductive Reason where
  /-- A blocking `proc_new_proc`, until the child exits. -/
  | child (pid : Nat)
  /-- A delegated page fault, in the window with this serial number. -/
  | fault (window : Nat)
  deriving DecidableEq, Repr

/-- A blocked thread, which is what its reply cap stands for. -/
structure BlockedThread where
  serial : Nat
  pid : Nat
  reason : Reason
  deriving DecidableEq, Repr

/-- What is sent to a blocked thread. -/
inductive ReplyMsg where
  | empty
  | exitStatus (status : Int)
  deriving DecidableEq, Repr

/-! ## Processes and windows -/

/-- The part of `struct proc_pcb` that replies are about. The cap pointer 0 is `none`. -/
structure ReplyPcb where
  parentPID : Nat
  parentWaiting : Bool
  faultReply : Option BlockedThread
  deriving DecidableEq, Repr

/-- The part of `struct w_window` that replies are about. Ids are used again; the serial number
tells the windows apart that have had an id. -/
structure ReplyWindow where
  clientOwnerPID : Nat
  serial : Nat
  deriving DecidableEq, Repr

/-- The processes, the windows, the threads that are blocked and the replies sent so far. -/
structure ReplyState where
  /-- `PIDList.pids` -/
  pids : Cpool
  /-- `PIDList.pcbs` -/
  pcbs : Nat → Option ReplyPcb
  windows : Nat → Option ReplyWindow
  blocked : List BlockedThread
  sent : List (BlockedThread × ReplyMsg)
  /-- The next serial number. -/
  serial : Nat

/-- `pid_init` -/
def replyInit (pidMax : Nat) : ReplyState where
  pids := .init 1 pidMax
  pcbs _ := none
  windows _ := none
  blocked := []
  sent := []
  serial := 0

/-- Change the record of a process. -/
def ReplyState.setPcb (s : ReplyState) (pid : Nat) (pcb : ReplyPcb) : ReplyState :=
  { s with pcbs := Function.update s.pcbs pid (some pcb) }

/-- `seL4_Send` to the saved reply cap, which is then deleted. -/
def ReplyState.sendSaved (s : ReplyState) (pid : Nat) (pcb : ReplyPcb) (thread : BlockedThread)
    (msg : ReplyMsg) : ReplyState :=
  { s.setPcb pid { pcb with faultReply := none } with
    blocked := s.blocked.filter fun t => t ≠ thread
    sent := s.sent ++ [(thread, msg)] }

/-- The calling thread is blocked, and `proc_save_caller` saves its reply cap in place of an earlier
one. Without a free `cslot` nothing is saved. In a new slot `vka_cnode_saveCaller` does not fail. -/
def procSaveCaller (s : ReplyState) (pid : Nat) (pcb : ReplyPcb) (reason : Reason) (cslot : Bool) :
    ReplyState :=
  let thread : BlockedThread := { serial := s.serial, pid := pid, reason := reason }
  { s.setPcb pid { pcb with faultReply := if cslot then some thread else none } with
    blocked := s.blocked ++ [thread]
    serial := s.serial + 1 }

/-- `proc_fault_reply` -/
def procFaultReply (s : ReplyState) (pid : Nat) : ReplyState :=
  match s.pcbs pid with
  | none => s
  | some pcb =>
      match pcb.faultReply with
      | none => s
      | some thread => s.sendSaved pid pcb thread .empty

/-- `proc_parent_reply` -/
def procParentReply (s : ReplyState) (parentPID : Nat) (exitStatus : Int) : ReplyState :=
  match s.pcbs parentPID with
  | none => s
  | some parent =>
      if !parent.parentWaiting then s
      else
        match parent.faultReply with
        | none => s
        | some thread => s.sendSaved parentPID parent thread (.exitStatus exitStatus)

/-- `proc_load_direct`: the new PID. `loaded` says whether the process can be configured and
started. -/
def procLoadDirect (s : ReplyState) (parentPID : Nat) (loaded : Bool) :
    Except Failure (Option Nat × ReplyState) :=
  match s.pids.alloc with
  | none => .ok (none, s)
  | some (npid, pids) =>
      if npid < 1 ∨ s.pids.stop ≤ npid then .ok (none, { s with pids := pids })
      else if (s.pcbs npid).isSome then .error .assertion
      else if !loaded then .ok (none, { s with pids := pids.free npid })
      else
        let pcb : ReplyPcb :=
          { parentPID := parentPID, parentWaiting := false, faultReply := none }
        .ok (some npid, { s.setPcb npid pcb with pids := pids })

/-- `proc_new_proc_handler` -/
def procNewProcHandler (s : ReplyState) (pid : Nat) (block loaded cslot : Bool) :
    Except Failure ReplyState := do
  match ← procLoadDirect s pid loaded with
  | (none, s) => return s
  | (some npid, s) =>
      if !block then return s
      else
        match s.pcbs pid with
        | none => .error .fault
        | some pcb =>
            return procSaveCaller s pid { pcb with parentWaiting := true } (.child npid) cslot

/-- `proc_purge_pid_callback`, for every process. -/
def procPurgePid (s : ReplyState) (deathPID : Nat) : ReplyState :=
  { s with
    pcbs := fun i => (s.pcbs i).map fun pcb =>
      if i ≠ deathPID ∧ pcb.parentPID = deathPID then
        { pcb with parentPID := 0, parentWaiting := false }
      else pcb }

/-- `proc_exit_handler` and `proc_syscall_postaction`: `proc_release` and `pid_free`. The threads
of the process are gone. -/
def procExitHandler (s : ReplyState) (pid : Nat) (status : Int) : ReplyState :=
  match s.pcbs pid with
  | none => s
  | some pcb =>
      let s := procPurgePid s pid
      let s := if pcb.parentPID ≠ 0 then procParentReply s pcb.parentPID status else s
      { s with
        pcbs := Function.update s.pcbs pid none
        pids := s.pids.free pid
        blocked := s.blocked.filter fun t => t.pid ≠ pid }

/-- `handle_vm_fault` for a window with a pager. `pager` says whether the pager exists and has a
notification buffer; a process with a saved reply is not expected to fault. -/
def handleVmFaultPager (s : ReplyState) (pid wID : Nat) (pager cslot : Bool) : ReplyState :=
  match s.pcbs pid, s.windows wID with
  | some pcb, some window =>
      if pcb.faultReply.isSome then s
      else if window.clientOwnerPID ≠ pid then s
      else if !pager then s
      else procSaveCaller s pid pcb (.fault window.serial) cslot
  | _, _ => s

/-- `proc_window_map_handler` and `mem_syscall_postaction`. `mapped` says whether `vs_map` puts a
page into the window. -/
def procWindowMapHandler (s : ReplyState) (wID : Nat) (mapped : Bool) : ReplyState :=
  match s.windows wID with
  | none => s
  | some window => if !mapped then s else procFaultReply s window.clientOwnerPID

/-! ## Events -/

/-- What can happen to blocked threads. -/
inductive ReplyEvent where
  /-- A process without a parent is started. -/
  | boot (loaded : Bool)
  | newProc (pid : Nat) (block loaded cslot : Bool)
  | fault (pid wID : Nat) (pager cslot : Bool)
  | windowMap (wID : Nat) (mapped : Bool)
  | exit (pid : Nat) (status : Int)
  /-- A window is created for a process, or deleted. -/
  | window (wID : Nat) (clientOwnerPID : Option Nat)
  deriving DecidableEq, Repr

/-- The state after an event. -/
def replyStep (s : ReplyState) : ReplyEvent → Except Failure ReplyState
  | .boot loaded => do return (← procLoadDirect s 0 loaded).2
  | .newProc pid block loaded cslot =>
      if (s.pcbs pid).isNone then .ok s else procNewProcHandler s pid block loaded cslot
  | .fault pid wID pager cslot => .ok (handleVmFaultPager s pid wID pager cslot)
  | .windowMap wID mapped => .ok (procWindowMapHandler s wID mapped)
  | .exit pid status => .ok (procExitHandler s pid status)
  | .window wID clientOwnerPID =>
      .ok { s with
        windows := Function.update s.windows wID (clientOwnerPID.map fun owner => ⟨owner, s.serial⟩)
        serial := s.serial + 1 }

/-! ## The property and the condition -/

/-- The event is the one that the thread waits for, and the message is the one for it: the exit of
the child, with its exit status, or a mapping into the window. -/
def RightReply (s : ReplyState) (e : ReplyEvent) (thread : BlockedThread) (msg : ReplyMsg) : Prop :=
  match thread.reason with
  | .child pid => ∃ status, e = .exit pid status ∧ msg = .exitStatus status
  | .fault serial => ∃ wID window, e = .windowMap wID true ∧ s.windows wID = some window ∧
      window.serial = serial

/-- What a step may send: replies to threads that were blocked and are not any more, each of them
the right one; and the exit of a process answers all that wait for it. -/
structure RepliesRight (s : ReplyState) (e : ReplyEvent) (s' : ReplyState) : Prop where
  sent : ∃ new, s'.sent = s.sent ++ new ∧ ∀ r ∈ new,
    r.1 ∈ s.blocked ∧ r.1 ∉ s'.blocked ∧ RightReply s e r.1 r.2
  answered : ∀ pid status, e = .exit pid status → ∀ thread ∈ s.blocked,
    thread.reason = .child pid → (thread, .exitStatus status) ∈ s'.sent

/-- The event does not meet a saved reply that it is not for.

* A blocking `proc_new_proc` can save its reply, and no other thread of the process is blocked in
  one.
* Where a page is mapped, the owner of the window has no saved reply, or that of a fault in the
  window.
* Where a process exits, its parent, if its flag is set, has no saved reply, or that of a thread
  waiting for this process; and no child of the process is blocked on a child. -/
def Undisputed (s : ReplyState) : ReplyEvent → Prop
  | .newProc pid block loaded cslot =>
      block = true → loaded = true → cslot = true ∧
        ∀ pcb thread, s.pcbs pid = some pcb → pcb.faultReply = some thread →
          ∀ child, thread.reason ≠ .child child
  | .windowMap wID mapped =>
      mapped = true → ∀ window pcb thread, s.windows wID = some window →
        s.pcbs window.clientOwnerPID = some pcb → pcb.faultReply = some thread →
          thread.reason = .fault window.serial
  | .exit pid _ =>
      ∀ pcb, s.pcbs pid = some pcb →
        (∀ parent thread, s.pcbs pcb.parentPID = some parent → parent.parentWaiting = true →
          parent.faultReply = some thread → thread.reason = .child pid) ∧
        ∀ i child thread, s.pcbs i = some child → child.parentPID = pid →
          child.faultReply = some thread → ∀ grandchild, thread.reason ≠ .child grandchild
  | _ => True

/-! ## The invariant -/

/-- A thread blocked on a child: its reply is saved with the flag set, and the child lives. -/
def Waits (s : ReplyState) (thread : BlockedThread) (pid : Nat) : Prop :=
  ∃ pcb child, s.pcbs thread.pid = some pcb ∧ pcb.faultReply = some thread ∧
    pcb.parentWaiting = true ∧ s.pcbs pid = some child ∧ child.parentPID = thread.pid ∧
    pid ≠ thread.pid

theorem Waits.setPcb {s : ReplyState} {thread : BlockedThread} {c pid : Nat} {pcb pcb' : ReplyPcb}
    (h : Waits s thread c) (hne : thread.pid ≠ pid) (hpcb : s.pcbs pid = some pcb)
    (hparent : pcb'.parentPID = pcb.parentPID) : Waits (s.setPcb pid pcb') thread c := by
  obtain ⟨waiting, child, hwaiting, hsaved, hflag, hchild, hchildparent, hself⟩ := h
  refine ⟨waiting, if c = pid then pcb' else child, (Function.update_of_ne hne _ _).trans hwaiting,
    hsaved, hflag, ?_, ?_, hself⟩
  · dsimp only [ReplyState.setPcb]
    rw [Function.update_apply, apply_ite some, hchild]
  · split_ifs with hc
    · rw [hc, hpcb] at hchild
      rw [hparent, Option.some.inj hchild, hchildparent]
    · exact hchildparent

/-- What undisputed events keep. While a process is released, its own threads are not followed any
more; `dying` is its PID, 0 between events. -/
structure ReplyOk (dying : Nat) (s : ReplyState) : Prop where
  zero : s.pcbs 0 = none
  pid_ne : ∀ t ∈ s.blocked, t.pid ≠ 0
  waits : ∀ t ∈ s.blocked, t.pid ≠ dying → ∀ pid, t.reason = .child pid → Waits s t pid
  saved : ∀ i pcb t, s.pcbs i = some pcb → pcb.faultReply = some t → t ∈ s.blocked ∧ t.pid = i
  fresh : ∀ t, t ∈ s.blocked ∨ t ∈ s.sent.map Prod.fst → t.serial < s.serial
  once : (s.sent.map Prod.fst).Nodup
  gone : ∀ t ∈ s.sent.map Prod.fst, t ∉ s.blocked

namespace ReplyOk

variable {s : ReplyState} {dying pid : Nat} {pcb : ReplyPcb} {thread : BlockedThread}

theorem init (pidMax : Nat) : ReplyOk 0 (replyInit pidMax) where
  zero := rfl
  pid_ne t ht := by cases ht
  waits t ht := by cases ht
  saved i pcb t hpcb := by cases hpcb
  fresh t ht := by simp [replyInit] at ht
  once := List.nodup_nil
  gone t ht := by cases ht

theorem pid_ne_zero (h : ReplyOk dying s) (hpcb : s.pcbs pid = some pcb) : pid ≠ 0 := by
  rintro rfl
  rw [h.zero] at hpcb
  cases hpcb

theorem zero_setPcb (h : ReplyOk dying s) (hpid : pid ≠ 0) (pcb : ReplyPcb) :
    (s.setPcb pid pcb).pcbs 0 = none :=
  (Function.update_of_ne (Ne.symm hpid) _ _).trans h.zero

/-- A new process waits for nothing and nobody waits for it yet. -/
theorem setPcb_new (h : ReplyOk dying s) (hzero : pid ≠ 0) (hnew : s.pcbs pid = none)
    (parentPID : Nat) (pids : Cpool) :
    ReplyOk dying { s.setPcb pid ⟨parentPID, false, none⟩ with pids := pids } where
  zero := h.zero_setPcb hzero _
  pid_ne := h.pid_ne
  waits t ht hdying c hreason := by
    obtain ⟨pcb, child, hpcb, hsaved, hflag, hchild, hparent, hne⟩ := h.waits t ht hdying c hreason
    have ht' : t.pid ≠ pid := by
      rintro rfl
      rw [hnew] at hpcb
      cases hpcb
    have hc : c ≠ pid := by
      rintro rfl
      rw [hnew] at hchild
      cases hchild
    refine ⟨pcb, child, ?_, hsaved, hflag, ?_, hparent, hne⟩
    · simp only [ReplyState.setPcb, Function.update_of_ne ht']
      exact hpcb
    · simp only [ReplyState.setPcb, Function.update_of_ne hc]
      exact hchild
  saved i pcb t hpcb hsaved := by
    simp only [ReplyState.setPcb, Function.update_apply] at hpcb
    split_ifs at hpcb with hi
    · obtain rfl := Option.some.inj hpcb
      cases hsaved
    · exact h.saved i pcb t hpcb hsaved
  fresh := h.fresh
  once := h.once
  gone := h.gone

theorem sendSaved (h : ReplyOk dying s) (hpcb : s.pcbs pid = some pcb)
    (hsaved : pcb.faultReply = some thread) (msg : ReplyMsg) :
    ReplyOk dying (s.sendSaved pid pcb thread msg) := by
  have hpid : pid ≠ 0 := h.pid_ne_zero hpcb
  obtain ⟨hblocked, howner⟩ := h.saved pid pcb thread hpcb hsaved
  refine ⟨?_, ?_, ?_, ?_, ?_, ?_, ?_⟩
  · exact h.zero_setPcb hpid _
  · exact fun t ht => h.pid_ne t (List.mem_filter.1 ht).1
  · intro t ht hdying c hreason
    obtain ⟨ht, hne⟩ := List.mem_filter.1 ht
    have hne : t ≠ thread := of_decide_eq_true hne
    have hwaits := h.waits t ht hdying c hreason
    have ht' : t.pid ≠ pid := by
      obtain ⟨pcb', _, hpcb', hsaved', _⟩ := hwaits
      rintro rfl
      obtain rfl := Option.some.inj (hpcb'.symm.trans hpcb)
      exact hne (Option.some.inj (hsaved'.symm.trans hsaved))
    -- the child may be the process whose slot is cleared
    exact hwaits.setPcb ht' hpcb rfl
  · intro i pcb' t hpcb' hsaved'
    simp only [ReplyState.sendSaved, ReplyState.setPcb, Function.update_apply] at hpcb'
    split_ifs at hpcb' with hi
    · obtain rfl := Option.some.inj hpcb'
      cases hsaved'
    · obtain ⟨ht, hti⟩ := h.saved i pcb' t hpcb' hsaved'
      refine ⟨List.mem_filter.2 ⟨ht, decide_eq_true ?_⟩, hti⟩
      rintro rfl
      exact hi (hti.symm.trans howner)
  · intro t ht
    simp only [ReplyState.sendSaved, List.mem_filter, List.map_append, List.mem_append] at ht
    rcases ht with ⟨ht, _⟩ | ht | ht
    · exact h.fresh t (Or.inl ht)
    · exact h.fresh t (Or.inr ht)
    · obtain rfl : t = thread := by simpa using ht
      exact h.fresh t (Or.inl hblocked)
  · simp only [ReplyState.sendSaved, List.map_append]
    show (_ ++ [thread]).Nodup
    rw [← List.concat_eq_append]
    exact h.once.concat fun hgone => h.gone thread hgone hblocked
  · intro t ht hin
    obtain ⟨hin, hne⟩ := List.mem_filter.1 hin
    simp only [ReplyState.sendSaved, List.map_append, List.mem_append] at ht
    rcases ht with ht | ht
    · exact h.gone t ht hin
    · obtain rfl : t = thread := by simpa using ht
      exact of_decide_eq_true hne rfl

/-- A thread is blocked and its reply saved, in place of one that is not for a child. -/
theorem save (h : ReplyOk dying s) (hpcb : s.pcbs pid = some pcb)
    (hover : ∀ t, pcb.faultReply = some t → ∀ c, t.reason ≠ .child c) {reason : Reason}
    (flag : Bool) {cslot : Bool}
    (hchild : ∀ c, reason = .child c → cslot = true ∧ flag = true ∧
      ∃ child, s.pcbs c = some child ∧ child.parentPID = pid ∧ c ≠ pid) :
    ReplyOk dying (procSaveCaller s pid { pcb with parentWaiting := flag } reason cslot) := by
  have hpid : pid ≠ 0 := h.pid_ne_zero hpcb
  have hold : ∀ t ∈ s.blocked, t.serial < s.serial := fun t ht => h.fresh t (Or.inl ht)
  refine ⟨?_, ?_, ?_, ?_, ?_, h.once, ?_⟩
  · exact h.zero_setPcb hpid _
  · intro t ht
    rcases List.mem_append.1 ht with ht | ht
    · exact h.pid_ne t ht
    · rw [List.mem_singleton.1 ht]
      exact hpid
  · intro t ht hdying c hreason
    rcases List.mem_append.1 ht with ht | ht
    · have hwaits := h.waits t ht hdying c hreason
      have ht' : t.pid ≠ pid := by
        obtain ⟨pcb', _, hpcb', hsaved', _⟩ := hwaits
        rintro rfl
        obtain rfl := Option.some.inj (hpcb'.symm.trans hpcb)
        exact hover t hsaved' c hreason
      exact hwaits.setPcb ht' hpcb rfl
    · rw [List.mem_singleton] at ht
      subst ht
      obtain ⟨hcslot, hflag, child, hc, hparent, hself⟩ := hchild c hreason
      refine ⟨_, child, Function.update_self _ _ _, ?_, hflag,
        (Function.update_of_ne hself _ _).trans hc, hparent, hself⟩
      simp only [hcslot, if_true]
  · intro i pcb' t hpcb' hsaved'
    by_cases hi : i = pid
    · subst hi
      obtain rfl := Option.some.inj ((Function.update_self i _ s.pcbs).symm.trans hpcb')
      cases cslot with
      | false => cases hsaved'
      | true =>
          obtain rfl := Option.some.inj hsaved'
          exact ⟨List.mem_append_right _ (List.mem_singleton_self _), rfl⟩
    · replace hpcb' := (Function.update_of_ne hi _ s.pcbs).symm.trans hpcb'
      obtain ⟨ht, hti⟩ := h.saved i pcb' t hpcb' hsaved'
      exact ⟨List.mem_append_left _ ht, hti⟩
  · intro t ht
    show t.serial < s.serial + 1
    rcases ht with ht | ht
    · rcases List.mem_append.1 ht with ht | ht
      · exact Nat.lt_succ_of_lt (hold t ht)
      · rw [List.mem_singleton.1 ht]
        exact Nat.lt_succ_self _
    · exact Nat.lt_succ_of_lt (h.fresh t (Or.inr ht))
  · intro t ht hin
    rcases List.mem_append.1 hin with hin | hin
    · exact h.gone t ht hin
    · have hlt := h.fresh t (Or.inr ht)
      rw [List.mem_singleton.1 hin] at hlt
      exact Nat.lt_irrefl _ hlt

/-- The children of a process are orphaned. None of them may be blocked on a child itself. -/
theorem purge (h : ReplyOk 0 s)
    (hchildren : ∀ i child t, s.pcbs i = some child → child.parentPID = pid →
      child.faultReply = some t → ∀ c, t.reason ≠ .child c) :
    ReplyOk pid (procPurgePid s pid) := by
  have hslot : ∀ i pcb, (procPurgePid s pid).pcbs i = some pcb →
      ∃ old, s.pcbs i = some old ∧ pcb.faultReply = old.faultReply := by
    intro i pcb hpcb
    obtain ⟨old, hold, rfl⟩ := Option.map_eq_some_iff.1 hpcb
    refine ⟨old, hold, ?_⟩
    split_ifs <;> rfl
  refine ⟨?_, h.pid_ne, ?_, ?_, h.fresh, h.once, h.gone⟩
  · simp only [procPurgePid, h.zero, Option.map_none]
  · intro t ht hdying c hreason
    obtain ⟨pcb, child, hpcb, hsaved, hflag, hchild, hparent, hself⟩ :=
      h.waits t ht (h.pid_ne t ht) c hreason
    have hkept : pcb.parentPID ≠ pid := fun heq => hchildren _ _ _ hpcb heq hsaved c hreason
    have hchild' : child.parentPID ≠ pid := fun heq => hdying (hparent.symm.trans heq)
    refine ⟨pcb, child, ?_, hsaved, hflag, ?_, hparent, hself⟩
    · simp only [procPurgePid, hpcb, Option.map_some, hkept, and_false, if_false]
    · simp only [procPurgePid, hchild, Option.map_some, hchild', and_false, if_false]
  · intro i pcb t hpcb hsaved
    obtain ⟨old, hold, heq⟩ := hslot i pcb hpcb
    exact h.saved i old t hold (heq ▸ hsaved)

theorem remove (h : ReplyOk pid s)
    (hnone : ∀ t ∈ s.blocked, t.pid ≠ pid → t.reason ≠ .child pid) (pids : Cpool) :
    ReplyOk 0 { s with
      pcbs := Function.update s.pcbs pid none
      pids := pids
      blocked := s.blocked.filter fun t => t.pid ≠ pid } := by
  refine ⟨?_, ?_, ?_, ?_, ?_, h.once, ?_⟩
  · simp only [Function.update_apply, h.zero, ite_self]
  · exact fun t ht => h.pid_ne t (List.mem_filter.1 ht).1
  · intro t ht _ c hreason
    obtain ⟨ht, hne⟩ := List.mem_filter.1 ht
    have hne : t.pid ≠ pid := of_decide_eq_true hne
    obtain ⟨pcb, child, hpcb, hsaved, hflag, hchild, hparent, hself⟩ := h.waits t ht hne c hreason
    have hc : c ≠ pid := fun heq => hnone t ht hne (heq ▸ hreason)
    exact ⟨pcb, child, (Function.update_of_ne hne _ _).trans hpcb, hsaved, hflag,
      (Function.update_of_ne hc _ _).trans hchild, hparent, hself⟩
  · intro i pcb t hpcb hsaved
    simp only [Function.update_apply] at hpcb
    split_ifs at hpcb with hi
    obtain ⟨ht, hti⟩ := h.saved i pcb t hpcb hsaved
    exact ⟨List.mem_filter.2 ⟨ht, decide_eq_true (hti ▸ hi)⟩, hti⟩
  · intro t ht
    refine h.fresh t (ht.imp_left fun ht => ?_)
    exact (List.mem_filter.1 ht).1
  · exact fun t ht hin => h.gone t ht (List.mem_filter.1 hin).1

end ReplyOk

/-! ## Single steps -/

/-- Starting a process: nothing happens but to the pool, or there is a new process. -/
theorem procLoadDirect_spec {s : ReplyState} {parentPID : Nat} {loaded : Bool}
    {r : Option Nat × ReplyState} (h : procLoadDirect s parentPID loaded = .ok r) :
    (∃ pids, r = (none, { s with pids := pids })) ∨
    ∃ npid pids, r = (some npid, { s.setPcb npid ⟨parentPID, false, none⟩ with pids := pids }) ∧
      npid ≠ 0 ∧ s.pcbs npid = none ∧ loaded = true := by
  rw [procLoadDirect] at h
  cases halloc : s.pids.alloc with
  | none =>
      rw [halloc] at h
      obtain rfl := Except.ok.inj h
      exact Or.inl ⟨s.pids, rfl⟩
  | some new =>
      obtain ⟨npid, pids⟩ := new
      simp only [halloc] at h
      split_ifs at h with hrange hsome hloaded
      · obtain rfl := Except.ok.inj h
        exact Or.inl ⟨pids, rfl⟩
      · obtain rfl := Except.ok.inj h
        exact Or.inl ⟨pids.free npid, rfl⟩
      · obtain rfl := Except.ok.inj h
        exact Or.inr ⟨npid, pids, rfl, by omega, by simpa using hsome, by simpa using hloaded⟩

theorem RepliesRight.of_sent_eq {s s' : ReplyState} {e : ReplyEvent} (h : s'.sent = s.sent)
    (hexit : ∀ pid status, e ≠ .exit pid status) : RepliesRight s e s' where
  sent := ⟨[], by rw [h, List.append_nil], by simp⟩
  answered pid status he := absurd he (hexit pid status)

theorem procNewProcHandler_spec {s s' : ReplyState} {pid : Nat} {pcb : ReplyPcb}
    {block loaded cslot : Bool} (h : ReplyOk 0 s) (hpcb : s.pcbs pid = some pcb)
    (hcond : Undisputed s (.newProc pid block loaded cslot))
    (hs : procNewProcHandler s pid block loaded cslot = .ok s') :
    ReplyOk 0 s' ∧ s'.sent = s.sent := by
  rw [procNewProcHandler] at hs
  obtain ⟨r, hload, hs⟩ := bind_eq_ok_iff.1 hs
  rcases procLoadDirect_spec hload with ⟨pids, rfl⟩ | ⟨npid, pids, rfl, hzero, hnew, hloaded⟩
  · obtain rfl := Except.ok.inj hs
    exact ⟨⟨h.zero, h.pid_ne, h.waits, h.saved, h.fresh, h.once, h.gone⟩, rfl⟩
  · have hne : pid ≠ npid := by
      rintro rfl
      rw [hnew] at hpcb
      cases hpcb
    have hok := h.setPcb_new hzero hnew pid pids
    have hpcb' : (s.setPcb npid ⟨pid, false, none⟩).pcbs pid = some pcb :=
      (Function.update_of_ne hne _ _).trans hpcb
    cases block with
    | false =>
        obtain rfl := Except.ok.inj hs
        exact ⟨hok, rfl⟩
    | true =>
        obtain ⟨hcslot, hover⟩ := hcond rfl hloaded
        simp only [Bool.not_true, Bool.false_eq_true, if_false, hpcb'] at hs
        obtain rfl := Except.ok.inj hs
        refine ⟨hok.save hpcb' (fun t ht c => hover pcb t hpcb ht c) true fun c hc => ?_, rfl⟩
        obtain rfl := Reason.child.inj hc
        exact ⟨hcslot, rfl, _, Function.update_self _ _ _, rfl, Ne.symm hne⟩

theorem procParentReply_cases (s : ReplyState) (parentPID : Nat) (status : Int) :
    procParentReply s parentPID status = s ∨
    ∃ parent t, s.pcbs parentPID = some parent ∧ parent.parentWaiting = true ∧
      parent.faultReply = some t ∧
      procParentReply s parentPID status =
        s.sendSaved parentPID parent t (.exitStatus status) := by
  rw [procParentReply]
  cases hparent : s.pcbs parentPID with
  | none => exact Or.inl rfl
  | some parent =>
      cases hflag : parent.parentWaiting with
      | false => exact Or.inl (by simp [hflag])
      | true =>
          cases hsaved : parent.faultReply with
          | none => exact Or.inl (by simp [hflag, hsaved])
          | some t => exact Or.inr ⟨parent, t, rfl, hflag, hsaved, by simp [hflag, hsaved]⟩

theorem procParentReply_of_waiting {s : ReplyState} {parentPID : Nat} {parent : ReplyPcb}
    {t : BlockedThread} (hparent : s.pcbs parentPID = some parent)
    (hflag : parent.parentWaiting = true) (hsaved : parent.faultReply = some t) (status : Int) :
    procParentReply s parentPID status =
      s.sendSaved parentPID parent t (.exitStatus status) := by
  simp only [procParentReply, hparent, hflag, hsaved, Bool.not_true, Bool.false_eq_true, if_false]

/-- The flag of a process that still has it has not been cleared by the purge. -/
theorem pcbs_of_purge {s : ReplyState} {pid i : Nat} {pcb : ReplyPcb}
    (h : (procPurgePid s pid).pcbs i = some pcb) (hflag : pcb.parentWaiting = true) :
    s.pcbs i = some pcb := by
  obtain ⟨old, hold, heq⟩ := Option.map_eq_some_iff.1 h
  split_ifs at heq with hpurged
  · rw [← heq] at hflag
    cases hflag
  · rw [hold, heq]

/-- From `s` to `s₂` the threads that are answered with `status` are ones that were blocked on the
process `pid`, and are not blocked any more. -/
def AnswersWaiters (pid : Nat) (status : Int) (s s₂ : ReplyState) : Prop :=
  (∀ t ∈ s₂.blocked, t ∈ s.blocked) ∧ ∃ new, s₂.sent = s.sent ++ new ∧ ∀ r ∈ new,
    r.1 ∈ s.blocked ∧ r.1 ∉ s₂.blocked ∧ r.1.reason = .child pid ∧ r.2 = .exitStatus status

theorem answersWaiters_purge (s : ReplyState) (pid : Nat) (status : Int) :
    AnswersWaiters pid status s (procPurgePid s pid) :=
  ⟨fun _ ht => ht, [], by simp [procPurgePid], by simp⟩

/-- The answer to the parent of a process that exits. -/
theorem procParentReply_spec {s : ReplyState} {pid parentPID : Nat} {status : Int}
    (hpurge : ReplyOk pid (procPurgePid s pid))
    (hparent : ∀ parent t, s.pcbs parentPID = some parent → parent.parentWaiting = true →
      parent.faultReply = some t → t.reason = .child pid) :
    ReplyOk pid (procParentReply (procPurgePid s pid) parentPID status) ∧
      AnswersWaiters pid status s (procParentReply (procPurgePid s pid) parentPID status) := by
  rcases procParentReply_cases (procPurgePid s pid) parentPID status with
    heq | ⟨parent, t, hpar, hflag, hsaved, heq⟩
  · rw [heq]
    exact ⟨hpurge, answersWaiters_purge s pid status⟩
  · obtain ⟨hblocked, _⟩ := hpurge.saved _ _ _ hpar hsaved
    rw [heq]
    refine ⟨hpurge.sendSaved hpar hsaved _, ?_, [(t, .exitStatus status)], rfl, ?_⟩
    · exact fun t' ht' => (List.mem_filter.1 ht').1
    · intro r hr
      rw [List.mem_singleton.1 hr]
      refine ⟨hblocked, fun hin => of_decide_eq_true (List.mem_filter.1 hin).2 rfl, ?_, rfl⟩
      exact hparent parent t (pcbs_of_purge hpar hflag) hflag hsaved

/-- Whoever is blocked on a process is answered by its exit. -/
theorem procParentReply_waiter {s : ReplyState} {pid : Nat} {pcb : ReplyPcb} {status : Int}
    (h : ReplyOk 0 s) (hpcb : s.pcbs pid = some pcb)
    (hchildren : ∀ i waiter t, s.pcbs i = some waiter → waiter.parentPID = pid →
      waiter.faultReply = some t → ∀ c, t.reason ≠ .child c)
    {t : BlockedThread} (ht : t ∈ s.blocked) (hreason : t.reason = .child pid) :
    pcb.parentPID ≠ 0 ∧ (t, .exitStatus status) ∈
      (procParentReply (procPurgePid s pid) pcb.parentPID status).sent := by
  obtain ⟨waiter, child, hwaiter, hsaved, hflag, hchild, hpar, _⟩ :=
    h.waits t ht (h.pid_ne t ht) pid hreason
  obtain rfl := Option.some.inj (hpcb.symm.trans hchild)
  have hkept : waiter.parentPID ≠ pid := fun heq => hchildren _ _ _ hwaiter heq hsaved pid hreason
  have hwaiter' : (procPurgePid s pid).pcbs t.pid = some waiter := by
    simp only [procPurgePid, hwaiter, Option.map_some, hkept, and_false, if_false]
  rw [hpar, procParentReply_of_waiting hwaiter' hflag hsaved status]
  exact ⟨h.pid_ne t ht, List.mem_append_right _ (List.mem_singleton_self _)⟩

/-- The exit of a process that answers its parent and is not disputed. -/
theorem procExitHandler_spec {s : ReplyState} {pid : Nat} {status : Int} (h : ReplyOk 0 s)
    (hcond : Undisputed s (.exit pid status)) :
    ReplyOk 0 (procExitHandler s pid status) ∧
      RepliesRight s (.exit pid status) (procExitHandler s pid status) := by
  rw [procExitHandler]
  cases hpcb : s.pcbs pid with
  | none =>
      refine ⟨h, ⟨[], by simp, by simp⟩, ?_⟩
      rintro _ _ ⟨⟩ t ht hreason
      obtain ⟨_, child, _, _, _, hchild, _⟩ := h.waits t ht (h.pid_ne t ht) pid hreason
      rw [hpcb] at hchild
      cases hchild
  | some pcb =>
      obtain ⟨hparent, hchildren⟩ := hcond pcb hpcb
      have hpurge := h.purge hchildren
      simp only
      generalize hs₂ : (if pcb.parentPID ≠ 0 then
        procParentReply (procPurgePid s pid) pcb.parentPID status else procPurgePid s pid) = s₂
      -- what has been sent, and to whom
      obtain ⟨hok, hsub, new, hsent, hnew⟩ : ReplyOk pid s₂ ∧ AnswersWaiters pid status s s₂ := by
        rw [← hs₂]
        split_ifs
        · exact procParentReply_spec hpurge hparent
        · exact ⟨hpurge, answersWaiters_purge s pid status⟩
      have hanswered : ∀ t ∈ s.blocked, t.reason = .child pid →
          (t, .exitStatus status) ∈ s₂.sent := by
        intro t ht hreason
        obtain ⟨hzero, hin⟩ := procParentReply_waiter h hpcb hchildren ht hreason
        rw [← hs₂, if_pos hzero]
        exact hin
      refine ⟨hok.remove (fun t ht _ hreason => ?_) _, ⟨new, hsent, fun r hr => ?_⟩, ?_⟩
      · exact hok.gone t (List.mem_map_of_mem (hanswered t (hsub t ht) hreason)) ht
      · obtain ⟨hbefore, hafter, hreason, hmsg⟩ := hnew r hr
        refine ⟨hbefore, fun hin => hafter (List.mem_filter.1 hin).1, ?_⟩
        simp only [RightReply, hreason]
        exact ⟨status, rfl, hmsg⟩
      · rintro _ _ ⟨⟩ t ht hreason
        exact hanswered t ht hreason

/-- An event that is not the exit of a process, and that sends nothing. -/
theorem ReplyOk.quiet {s : ReplyState} {e : ReplyEvent} (h : ReplyOk 0 s)
    (hexit : ∀ pid status, e ≠ .exit pid status) : ReplyOk 0 s ∧ RepliesRight s e s :=
  ⟨h, .of_sent_eq rfl hexit⟩

theorem handleVmFaultPager_spec {s : ReplyState} (h : ReplyOk 0 s) (pid wID : Nat)
    (pager cslot : Bool) :
    ReplyOk 0 (handleVmFaultPager s pid wID pager cslot) ∧
      RepliesRight s (.fault pid wID pager cslot) (handleVmFaultPager s pid wID pager cslot) := by
  rw [handleVmFaultPager]
  split
  · rename_i pcb window hpcb hwindow
    split_ifs with hsaved
    · exact h.quiet (by simp)
    · exact h.quiet (by simp)
    · exact h.quiet (by simp)
    · refine ⟨h.save hpcb (fun t ht => ?_) pcb.parentWaiting (by simp), .of_sent_eq rfl (by simp)⟩
      rw [ht] at hsaved
      exact absurd rfl hsaved
  · exact h.quiet (by simp)

theorem procWindowMapHandler_spec {s : ReplyState} {wID : Nat} {mapped : Bool} (h : ReplyOk 0 s)
    (hcond : Undisputed s (.windowMap wID mapped)) :
    ReplyOk 0 (procWindowMapHandler s wID mapped) ∧
      RepliesRight s (.windowMap wID mapped) (procWindowMapHandler s wID mapped) := by
  rw [procWindowMapHandler]
  cases hwindow : s.windows wID with
  | none => exact h.quiet (by simp)
  | some window =>
      cases mapped with
      | false => exact h.quiet (by simp)
      | true =>
          simp only [Bool.not_true, Bool.false_eq_true, if_false]
          rw [procFaultReply]
          cases hpcb : s.pcbs window.clientOwnerPID with
          | none => exact h.quiet (by simp)
          | some pcb =>
              cases hsaved : pcb.faultReply with
              | none =>
                  simp only [hsaved]
                  exact h.quiet (by simp)
              | some thread =>
                  simp only [hsaved]
                  refine ⟨h.sendSaved hpcb hsaved _, ⟨[(thread, .empty)], rfl, ?_⟩, by simp⟩
                  intro r hr
                  rw [List.mem_singleton.1 hr]
                  refine ⟨(h.saved _ _ _ hpcb hsaved).1,
                    fun hin => of_decide_eq_true (List.mem_filter.1 hin).2 rfl, ?_⟩
                  have hreason := hcond rfl window pcb thread hwindow hpcb hsaved
                  simp only [RightReply, hreason]
                  exact ⟨wID, window, rfl, hwindow, rfl⟩

/-- Every undisputed event keeps the invariant and sends the right replies. -/
theorem replyStep_spec {s s' : ReplyState} {e : ReplyEvent} (h : ReplyOk 0 s)
    (hcond : Undisputed s e) (hs : replyStep s e = .ok s') :
    ReplyOk 0 s' ∧ RepliesRight s e s' := by
  cases e with
  | boot loaded =>
      obtain ⟨r, hload, hs⟩ := bind_eq_ok_iff.1 hs
      obtain rfl := Except.ok.inj hs
      rcases procLoadDirect_spec hload with ⟨pids, rfl⟩ | ⟨npid, pids, rfl, hzero, hnew, _⟩
      · exact ⟨⟨h.zero, h.pid_ne, h.waits, h.saved, h.fresh, h.once, h.gone⟩,
          .of_sent_eq rfl (by simp)⟩
      · exact ⟨h.setPcb_new hzero hnew 0 pids, .of_sent_eq rfl (by simp)⟩
  | newProc pid block loaded cslot =>
      simp only [replyStep] at hs
      cases hpcb : s.pcbs pid with
      | none =>
          rw [hpcb] at hs
          obtain rfl := Except.ok.inj hs
          exact h.quiet (by simp)
      | some pcb =>
          simp only [hpcb, Option.isNone_some, Bool.false_eq_true, if_false] at hs
          obtain ⟨hok, hsent⟩ := procNewProcHandler_spec h hpcb hcond hs
          exact ⟨hok, .of_sent_eq hsent (by simp)⟩
  | fault pid wID pager cslot =>
      obtain rfl := Except.ok.inj hs
      exact handleVmFaultPager_spec h pid wID pager cslot
  | windowMap wID mapped =>
      obtain rfl := Except.ok.inj hs
      exact procWindowMapHandler_spec h hcond
  | exit pid status =>
      obtain rfl := Except.ok.inj hs
      exact procExitHandler_spec h hcond
  | window wID clientOwnerPID =>
      obtain rfl := Except.ok.inj hs
      refine ⟨⟨h.zero, h.pid_ne, h.waits, h.saved, ?_, h.once, h.gone⟩, .of_sent_eq rfl (by simp)⟩
      exact fun t ht => Nat.lt_succ_of_lt (h.fresh t ht)

/-- **Saved replies.** In every run in which no event meets a saved reply that it is not for, every
step sends the right replies: the exit of a process answers all that are blocked on it, with its
exit status, and nobody else; a page fault is answered by a mapping into its window only. And no
blocked thread is answered twice. -/
theorem reply_of_undisputed (pidMax : Nat) {evs : List ReplyEvent} {s : ReplyState}
    (hrun : Run replyStep Undisputed (replyInit pidMax) evs s) :
    Steps replyStep RepliesRight evs (replyInit pidMax) ∧ (s.sent.map Prod.fst).Nodup := by
  obtain ⟨hok, hsteps⟩ :=
    hrun.steps_invariant (ReplyOk.init pidMax) fun t e u => replyStep_spec
  exact ⟨hsteps, hok.once⟩

/-- Process 1 has started process 2 and is blocked on it. -/
def blockedOnChild : ReplyState where
  pids := ⟨1, 4, 3, []⟩
  pcbs :=
    Function.update (Function.update (Function.update (fun _ => none) 1 (some ⟨0, false, none⟩)) 2
      (some ⟨1, false, none⟩)) 1 (some ⟨0, true, some ⟨0, 1, .child 2⟩⟩)
  windows _ := none
  blocked := [⟨0, 1, .child 2⟩]
  sent := []
  serial := 1

/-- Then 2 exits with status 7. -/
theorem reply_of_undisputed_child :
    ∃ s, Run replyStep Undisputed (replyInit 4)
        [.boot true, .newProc 1 true true true, .exit 2 7] s ∧
      s.sent = [(⟨0, 1, .child 2⟩, .exitStatus 7)] ∧ s.blocked = [] ∧
      Steps replyStep RepliesRight [.boot true, .newProc 1 true true true, .exit 2 7]
        (replyInit 4) := by
  have hboot : Run replyStep Undisputed (replyInit 4) [.boot true] _ := .single trivial rfl
  have hblock : Run replyStep Undisputed (replyInit 4) [.boot true, .newProc 1 true true true]
      blockedOnChild :=
    .snoc hboot (fun _ _ => ⟨rfl, fun pcb t hpcb ht => by cases hpcb; cases ht⟩) rfl
  have hexit : Undisputed blockedOnChild (.exit 2 7) := by
    intro pcb hpcb
    cases hpcb
    constructor
    · intro parent t hparent _ ht
      cases hparent
      cases ht
      rfl
    · intro i child t hi hparent ht c
      simp only [blockedOnChild, Function.update_apply] at hi
      split_ifs at hi <;> cases hi <;> cases hparent
  have hrun := Run.snoc hblock hexit rfl
  exact ⟨_, hrun, rfl, rfl, (reply_of_undisputed 4 hrun).1⟩

theorem not_steps_of_sent {ok : ReplyState → ReplyEvent → Prop} {pidMax : Nat}
    {evs : List ReplyEvent} {e : ReplyEvent} {t : ReplyState} {thread : BlockedThread}
    {msg : ReplyMsg} (hrun : Run replyStep ok (replyInit pidMax) evs t)
    (hsent : ((replyStep t e).toOption.any fun u => u.sent = t.sent ++ [(thread, msg)]) = true)
    (hwrong : ¬RightReply t e thread msg) :
    ¬Steps replyStep RepliesRight (evs ++ [e]) (replyInit pidMax) := by
  intro hsteps
  obtain ⟨u, hu, hafter⟩ := (Option.any_eq_true _ _).1 hsent
  obtain ⟨new, hnew, hright⟩ := (hrun.last_step hsteps (eq_ok_of_toOption hu)).sent
  rw [of_decide_eq_true hafter, List.append_cancel_left_eq] at hnew
  exact hwrong (hright (thread, msg) (hnew ▸ List.mem_singleton_self _)).2.2

/-- Process 1 starts process 2, then process 3, for which it blocks: the exit of 2 answers it. And a
process that has once blocked on a child and starts another one without blocking is answered by the
exit of that one when it is blocked on a page fault. -/
theorem wrong_child_replies :
    ¬Steps replyStep RepliesRight
        [.boot true, .newProc 1 false true true, .newProc 1 true true true, .exit 2 5]
        (replyInit 4) ∧
    ¬Steps replyStep RepliesRight
        [.boot true, .newProc 1 true true true, .exit 2 0, .newProc 1 false true true,
          .window 9 (some 1), .fault 1 9 true true, .exit 2 5]
        (replyInit 4) := by
  constructor
  · obtain ⟨t, hrun, hsent⟩ : ∃ t, Run replyStep (fun _ _ => True) (replyInit 4)
        [.boot true, .newProc 1 false true true, .newProc 1 true true true] t ∧
        ((replyStep t (.exit 2 5)).toOption.any fun u =>
          u.sent = t.sent ++ [(⟨0, 1, .child 3⟩, .exitStatus 5)]) = true := by
      apply Run.exists_of_exec
      decide +kernel
    exact not_steps_of_sent hrun hsent (by simp [RightReply])
  · obtain ⟨t, hrun, hsent⟩ : ∃ t, Run replyStep (fun _ _ => True) (replyInit 4)
        [.boot true, .newProc 1 true true true, .exit 2 0, .newProc 1 false true true,
          .window 9 (some 1), .fault 1 9 true true] t ∧
        ((replyStep t (.exit 2 5)).toOption.any fun u =>
          u.sent = t.sent ++ [(⟨2, 1, .fault 1⟩, .exitStatus 5)]) = true := by
      apply Run.exists_of_exec
      decide +kernel
    exact not_steps_of_sent hrun hsent (by simp [RightReply])

end PartitionSeL4.Refos
