import PartitionSeL4.Creation
import PartitionSeL4.Refos.Dataspace

/-!
# `proc_clone`: a thread of the process and of its partition

`proc_clone` makes a thread for the calling process, starts it, and only then asks the scheduler to
register it (`pok_partition_thread_create`), for the partition of the running slot. The verdict of
the scheduler is dropped, so a thread that it refuses keeps running unregistered, and one that it
registers is suspended only if the TCB it looks up is that of the new thread.

What the steps inside depend on is the parameter `CloneOutcome`. A lookup of a thread that the
process does not have ends the server; it is the capability 0 here, on which
`pok_partition_thread_create` asserts.
-/

namespace PartitionSeL4

open Lib Refos

/-- `struct proc_tcb` -/
structure ProcTcb where
  priority : Nat
  entryPoint : Nat
  /-- `thread_tcb_obj` -/
  tcb : Nat
  deriving DecidableEq, Repr

/-- The scheduler, and the threads of every process by its PID. -/
structure CloneServ where
  sched : State
  threads : Nat → List ProcTcb

/-- `get_tcb_cptr_from_pid` -/
def tcbCptrFromPid (threads : Nat → List ProcTcb) (pid tid : Nat) : Nat :=
  match (threads pid)[tid]? with
  | some t => t.tcb
  | none => 0

/-- Which of the steps inside `proc_clone` succeed. -/
structure CloneOutcome where
  /-- `kmalloc` of the thread structure. -/
  kmalloc : Bool
  /-- `sel4utils_configure_thread`: the TCB of the new thread. -/
  configure : Option Nat
  /-- `cvector_add` gets the memory it may need, or asserts. -/
  vectorAdd : Bool
  /-- `sel4utils_internal_start_thread` -/
  start : Bool
  deriving DecidableEq, Repr

/-- What `proc_clone` returns: its error code, `*threadID` (`none` is -1), and the local variables
`ret` and `thread_id` of the registration, which it drops. -/
structure CloneResult where
  err : Err
  threadID : Option Nat := none
  ret : Option PokRet := none
  registered : Option Nat := none
  deriving DecidableEq, Repr

/-- `thread_config`: a new TCB does not run. -/
def threadConfig (σ : CloneServ) (tcb : Nat) : CloneServ :=
  { σ with sched := { σ.sched with tcbRunning := Function.update σ.sched.tcbRunning tcb false } }

/-- `cvector_add` on the thread list of process `pid`. -/
def addThread (σ : CloneServ) (pid : Nat) (t : ProcTcb) : CloneServ :=
  { σ with threads := Function.update σ.threads pid (σ.threads pid ++ [t]) }

/-- `cvector_delete` of thread `tID`, and `thread_release`. -/
def dropThread (σ : CloneServ) (pid tID tcb : Nat) : CloneServ :=
  { sched := σ.sched.tcbSuspend tcb
    threads := Function.update σ.threads pid ((σ.threads pid).eraseIdx tID) }

/-- The last step of `proc_clone`: the registration, whose verdict is dropped. -/
def registerThread (cfg : Config) (σ : CloneServ) (tID : Nat) :
    Except Failure (CloneResult × CloneServ) := do
  let (ret, id, s) ← pokPartitionThreadCreate
    { cfg with getTcbCptrFromPid := tcbCptrFromPid σ.threads } σ.sched σ.sched.currentPartition
  return ({ err := .success, threadID := some tID, ret := some ret, registered := id },
    { σ with sched := s })

/-- `proc_clone`, called by process `pid`. -/
def procClone (cfg : Config) (σ : CloneServ) (pid stackAddr entryPoint : Nat) (o : CloneOutcome) :
    Except Failure (CloneResult × CloneServ) :=
  if stackAddr = 0 ∨ entryPoint = 0 then .ok ({ err := .invalidParam }, σ)
  else
    match (σ.threads pid).head? with
    | none => .ok ({ err := .invalid }, σ)
    | some t =>
        if t.entryPoint = 0 then .error .assertion
        else if o.kmalloc = false then .ok ({ err := .nomem }, σ)
        else
          match o.configure with
          | none => .ok ({ err := .invalid }, σ)
          | some tcb =>
              if o.vectorAdd = false then .error .assertion
              else
                let tID := (σ.threads pid).length
                let σ := addThread (threadConfig σ tcb) pid
                  { priority := t.priority, entryPoint := entryPoint, tcb := tcb }
                if o.start = false then
                  .ok ({ err := .invalid, threadID := some tID }, dropThread σ pid tID tcb)
                else registerThread cfg { σ with sched := σ.sched.tcbResume tcb } tID

/-! ## All or nothing -/

/-- A call that succeeds leaves its new thread suspended and registered in the range of the
caller's own partition, and one that fails leaves the threads there were and starts none. -/
structure AllOrNothing (σ : CloneServ) (pid : Nat) (r : CloneResult) (σ' : CloneServ) : Prop where
  success : r.err = .success → ∃ t id p, σ'.threads = Function.update σ.threads pid
      (σ.threads pid ++ [t]) ∧ p + configPcbOffset = pid ∧ r.registered = some id ∧
    (σ.sched.partArray p).low < id ∧ id ≤ (σ.sched.partArray p).high ∧
    (σ'.sched.procArray id).ktcb = t.tcb ∧ σ'.sched.tcbRunning t.tcb = false
  failure : r.err ≠ .success → σ'.threads = σ.threads ∧
    ∀ c, σ'.sched.tcbRunning c = true → σ.sched.tcbRunning c = true

/-- One of the steps before the registration fails. -/
def FailsEarly (σ : CloneServ) (pid stackAddr entryPoint : Nat) (o : CloneOutcome) : Prop :=
  stackAddr = 0 ∨ entryPoint = 0 ∨ σ.threads pid = [] ∨ o.kmalloc = false ∨
    o.configure = none ∨ o.start = false

/-- The caller is the process of the current partition, which is in a start mode, has room for
another thread, and has as many threads registered as the process has. -/
def RegistersCaller (σ : CloneServ) (pid : Nat) : Prop :=
  let part := σ.sched.partArray σ.sched.currentPartition
  σ.sched.currentPartition + configPcbOffset = pid ∧ part.InStartMode ∧
    part.low + part.threadIndex ≤ part.high ∧ part.threadIndex = (σ.threads pid).length

/-- The partition's fields are machine words. -/
def Partition.Words (part : Partition) : Prop :=
  part.low < 2 ^ 32 ∧ part.high < 2 ^ 32 ∧ part.threadIndex < 2 ^ 32

/-- The state in which the registration is asked for: the new thread is the last one of the
process, and it runs. -/
def startedThread (σ : CloneServ) (pid : Nat) (t : ProcTcb) : CloneServ :=
  let σ := addThread (threadConfig σ t.tcb) pid t
  { σ with sched := σ.sched.tcbResume t.tcb }

/-- Everything a call that returns has done: a step failed and nothing is left of the call, or the
new thread was started and its registration asked for. -/
theorem procClone_cases {cfg : Config} {σ σ' : CloneServ} {pid stackAddr entryPoint : Nat}
    {o : CloneOutcome} {r : CloneResult}
    (h : procClone cfg σ pid stackAddr entryPoint o = .ok (r, σ')) :
    (FailsEarly σ pid stackAddr entryPoint o ∧ r.err ≠ .success ∧ σ'.threads = σ.threads ∧
        ∀ c, σ'.sched.tcbRunning c = true → σ.sched.tcbRunning c = true) ∨
      (¬ FailsEarly σ pid stackAddr entryPoint o ∧ ∃ t : ProcTcb, o.configure = some t.tcb ∧
        registerThread cfg (startedThread σ pid t) (σ.threads pid).length = .ok (r, σ')) := by
  simp only [procClone] at h
  by_cases haddr : stackAddr = 0 ∨ entryPoint = 0
  · rw [if_pos haddr] at h
    cases h
    refine Or.inl ⟨?_, by simp, rfl, fun _ hc => hc⟩
    rcases haddr with h0 | h0
    · exact Or.inl h0
    · exact Or.inr (Or.inl h0)
  rw [if_neg haddr] at h
  cases hthreads : σ.threads pid with
  | nil =>
      rw [hthreads, List.head?_nil] at h
      cases h
      exact Or.inl ⟨Or.inr (Or.inr (Or.inl hthreads)), by simp, rfl, fun _ hc => hc⟩
  | cons main rest =>
      rw [hthreads, List.head?_cons] at h
      simp only at h
      by_cases hentry : main.entryPoint = 0
      · rw [if_pos hentry] at h
        cases h
      rw [if_neg hentry] at h
      by_cases hk : o.kmalloc = false
      · rw [if_pos hk] at h
        cases h
        exact Or.inl ⟨Or.inr (Or.inr (Or.inr (Or.inl hk))), by simp, rfl, fun _ hc => hc⟩
      rw [if_neg hk] at h
      cases hconf : o.configure with
      | none =>
          rw [hconf] at h
          cases h
          refine Or.inl ⟨?_, by simp, rfl, fun _ hc => hc⟩
          exact Or.inr (Or.inr (Or.inr (Or.inr (Or.inl hconf))))
      | some tcb =>
          rw [hconf] at h
          simp only at h
          by_cases hadd : o.vectorAdd = false
          · rw [if_pos hadd] at h
            cases h
          rw [if_neg hadd] at h
          by_cases hstart : o.start = false
          · rw [if_pos hstart] at h
            cases h
            refine Or.inl ⟨?_, by simp, ?_, ?_⟩
            · exact Or.inr (Or.inr (Or.inr (Or.inr (Or.inr hstart))))
            · -- The thread added last is deleted again.
              simp only [dropThread, addThread, threadConfig, Function.update_idem,
                Function.update_self, ← hthreads]
              rw [List.eraseIdx_append_of_length_le (Nat.le_refl _), Nat.sub_self,
                List.eraseIdx_cons_zero, List.append_nil, Function.update_eq_self]
            · intro c hc
              simp only [dropThread, addThread, threadConfig, State.tcbSuspend,
                Function.update_idem, Function.update_apply] at hc
              split_ifs at hc
              exact hc
          · rw [if_neg hstart] at h
            refine Or.inr ⟨?_, ⟨main.priority, entryPoint, tcb⟩, rfl, ?_⟩
            · rw [FailsEarly]
              simp only [not_or] at haddr ⊢
              exact ⟨haddr.1, haddr.2, by simp [hthreads], hk, by simp [hconf], hstart⟩
            · rw [← hthreads] at h ⊢
              exact h

/-- The TCB looked up for a thread of process `pid'` is the new one only at its own place. -/
theorem tcbCptrFromPid_eq_new {σ : CloneServ} {pid pid' tid : Nat} {t : ProcTcb} (h0 : t.tcb ≠ 0)
    (hfresh : ∀ q, ∀ t' ∈ σ.threads q, t'.tcb ≠ t.tcb) :
    tcbCptrFromPid (startedThread σ pid t).threads pid' tid = t.tcb ↔
      pid' = pid ∧ tid = (σ.threads pid).length := by
  have hold : ∀ q tid, tcbCptrFromPid σ.threads q tid ≠ t.tcb := by
    intro q tid heq
    rw [tcbCptrFromPid] at heq
    cases hget : (σ.threads q)[tid]? with
    | none =>
        rw [hget] at heq
        exact h0 heq.symm
    | some t' =>
        rw [hget] at heq
        exact hfresh q t' (List.mem_of_getElem? hget) heq
  simp only [startedThread, addThread, threadConfig, tcbCptrFromPid, Function.update_apply]
  by_cases hpid : pid' = pid
  · rw [if_pos hpid]
    by_cases htid : tid = (σ.threads pid).length
    · simp [hpid, htid]
    · refine ⟨fun heq => ?_, fun hand => absurd hand.2 htid⟩
      rcases Nat.lt_or_ge tid (σ.threads pid).length with hlt | hge
      · rw [List.getElem?_append_left hlt] at heq
        exact absurd heq (hold pid tid)
      · rw [List.getElem?_eq_none (by simp; omega)] at heq
        exact absurd heq.symm h0
  · rw [if_neg hpid]
    exact ⟨fun heq => absurd heq (hold pid' tid), fun hand => absurd hand.1 hpid⟩

section Words

variable {part : Partition} (h : part.Words)

include h

theorem Partition.nextId_sub_low : u32 (part.nextId + 2 ^ 32 - part.low) = part.threadIndex := by
  obtain ⟨hlow, _, hindex⟩ := h
  unfold Partition.nextId u32
  omega

theorem Partition.nextId_mem_iff :
    part.low < part.nextId ∧ part.nextId ≤ part.high ↔
      0 < part.threadIndex ∧ part.low + part.threadIndex ≤ part.high := by
  obtain ⟨hlow, hhigh, hindex⟩ := h
  unfold Partition.nextId u32
  omega

end Words

theorem startedThread_running (σ : CloneServ) (pid : Nat) (t : ProcTcb) :
    (startedThread σ pid t).sched.tcbRunning t.tcb = true := by
  simp [startedThread, State.tcbResume]

theorem last_eq_of_update {threads : Nat → List ProcTcb} {pid : Nat} {t t' : ProcTcb}
    (heq : Function.update threads pid (threads pid ++ [t]) =
      Function.update threads pid (threads pid ++ [t'])) : t' = t := by
  have := congrFun heq pid
  simpa [eq_comm] using this

/-- A thread whose registration is refused runs on. -/
theorem not_allOrNothing_of_refused {σ : CloneServ} {pid : Nat} {t : ProcTcb} {r : CloneResult}
    (hr : r.err = .success) : ¬ AllOrNothing σ pid r (startedThread σ pid t) := by
  intro hall
  obtain ⟨t', _, _, hthreads, _, _, _, _, _, hstop⟩ := hall.success hr
  rw [last_eq_of_update hthreads, startedThread_running] at hstop
  cases hstop

/-- The registration finds the new thread if it is for the caller's partition, which has as many
threads registered as the process had. -/
theorem lookedUpTcb_eq_new (cfg : Config) {σ : CloneServ} (pid : Nat) {t : ProcTcb}
    (h0 : t.tcb ≠ 0) (hfresh : ∀ q, ∀ t' ∈ σ.threads q, t'.tcb ≠ t.tcb)
    (hword : (σ.sched.partArray σ.sched.currentPartition).Words) :
    lookedUpTcb { cfg with getTcbCptrFromPid := tcbCptrFromPid (startedThread σ pid t).threads }
        (startedThread σ pid t).sched (σ.sched.partArray σ.sched.currentPartition).nextId =
          t.tcb ↔
      σ.sched.currentPartition + configPcbOffset = pid ∧
        (σ.sched.partArray σ.sched.currentPartition).threadIndex = (σ.threads pid).length := by
  have hpart : (startedThread σ pid t).sched.partArray = σ.sched.partArray := rfl
  have hcurrent : (startedThread σ pid t).sched.currentPartition = σ.sched.currentPartition := rfl
  simp only [lookedUpTcb, hcurrent, hpart]
  rw [Partition.nextId_sub_low hword]
  exact tcbCptrFromPid_eq_new h0 hfresh

/-- The registration makes the call all or nothing exactly when it is one for the caller. -/
theorem allOrNothing_registerThread_iff {cfg : Config} {σ σ' : CloneServ} {pid : Nat}
    {t : ProcTcb} {r : CloneResult} (h0 : t.tcb ≠ 0)
    (hfresh : ∀ q, ∀ t' ∈ σ.threads q, t'.tcb ≠ t.tcb) (hmain : σ.threads pid ≠ [])
    (hword : (σ.sched.partArray σ.sched.currentPartition).Words)
    (h : registerThread cfg (startedThread σ pid t) (σ.threads pid).length = .ok (r, σ')) :
    AllOrNothing σ pid r σ' ↔ RegistersCaller σ pid := by
  obtain ⟨⟨ret, id, s'⟩, hcreate, hret⟩ := bind_eq_ok_iff.1 h
  cases hret
  have hpart : (startedThread σ pid t).sched.partArray = σ.sched.partArray := rfl
  have hcurrent : (startedThread σ pid t).sched.currentPartition = σ.sched.currentPartition := rfl
  rcases pokPartitionThreadCreate_cases
      { cfg with getTcbCptrFromPid := tcbCptrFromPid (startedThread σ pid t).threads }
      (startedThread σ pid t).sched (startedThread σ pid t).sched.currentPartition with
    ⟨hmode, heq⟩ | ⟨hmode, hfull, heq⟩ | ⟨hmode, hle, ⟨_, heq⟩ | ⟨htcb, s'', heq, hreg⟩⟩
  · rw [heq] at hcreate
    cases hcreate
    exact ⟨fun hall => absurd hall (not_allOrNothing_of_refused rfl), fun hr => absurd hr.2.1 hmode⟩
  · rw [heq] at hcreate
    cases hcreate
    refine ⟨fun hall => absurd hall (not_allOrNothing_of_refused rfl), fun hr => ?_⟩
    have hle := hr.2.2.1
    rw [hpart, hcurrent] at hfull
    omega
  · rw [heq] at hcreate
    cases hcreate
  · rw [heq] at hcreate
    cases hcreate
    rw [hcurrent, hpart] at hreg
    have hlook := lookedUpTcb_eq_new cfg pid h0 hfresh hword
    constructor
    · intro hall
      obtain ⟨t', id', p, hthreads, hp, hid, hlow, hhigh, hktcb, hstop⟩ := hall.success rfl
      rw [last_eq_of_update hthreads, hreg.tcbRunning, Function.update_apply] at hstop
      split_ifs at hstop with hnew
      · obtain ⟨hpid, hindex⟩ := hlook.1 hnew.symm
        obtain rfl : p = σ.sched.currentPartition := by omega
        cases hid
        have hrange := (Partition.nextId_mem_iff hword).1 ⟨hlow, hhigh⟩
        exact ⟨hpid, hmode, hrange.2, hindex⟩
      · rw [startedThread_running] at hstop
        cases hstop
    · rintro ⟨hpid, _, hrange, hindex⟩
      have hnew := hlook.2 ⟨hpid, hindex⟩
      have hpos : 0 < (σ.sched.partArray σ.sched.currentPartition).threadIndex := by
        rw [hindex]
        exact List.length_pos_iff.2 hmain
      obtain ⟨hlow, hhigh⟩ := (Partition.nextId_mem_iff hword).2 ⟨hpos, hrange⟩
      refine ⟨fun _ => ⟨t, _, σ.sched.currentPartition, rfl, hpid, rfl, hlow, hhigh, ?_, ?_⟩,
        fun hne => absurd rfl hne⟩
      · rw [← hnew]
        exact hreg.ktcb
      · rw [hreg.tcbRunning, hnew, Function.update_self]

/-- **`proc_clone` is all or nothing** exactly when a step before the registration fails, or the
registration is one for the caller's own partition that finds the new thread. -/
theorem procClone_allOrNothing_iff {cfg : Config} {σ σ' : CloneServ}
    {pid stackAddr entryPoint : Nat} {o : CloneOutcome} {r : CloneResult}
    (hfresh : ∀ tcb, o.configure = some tcb →
      tcb ≠ 0 ∧ ∀ q, ∀ t ∈ σ.threads q, t.tcb ≠ tcb)
    (hword : (σ.sched.partArray σ.sched.currentPartition).Words)
    (h : procClone cfg σ pid stackAddr entryPoint o = .ok (r, σ')) :
    AllOrNothing σ pid r σ' ↔
      FailsEarly σ pid stackAddr entryPoint o ∨ RegistersCaller σ pid := by
  rcases procClone_cases h with ⟨hearly, herr, hthreads, hrun⟩ | ⟨hlate, t, hconf, hregister⟩
  · exact ⟨fun _ => Or.inl hearly, fun _ =>
      ⟨fun hok => absurd hok herr, fun _ => ⟨hthreads, hrun⟩⟩⟩
  · obtain ⟨h0, hnew⟩ := hfresh t.tcb hconf
    have hmain : σ.threads pid ≠ [] := fun hnil => hlate (Or.inr (Or.inr (Or.inl hnil)))
    rw [allOrNothing_registerThread_iff h0 hnew hmain hword hregister]
    exact ⟨Or.inr, fun hor => hor.resolve_left hlate⟩

/-- The process server after start-up, with the main threads of the two partitions. -/
def bootedThreads (pid : Nat) : List ProcTcb :=
  if pid = 3 ∨ pid = 4 then [{ priority := 1, entryPoint := 0x8000, tcb := 256 * pid }] else []

/-- Every step succeeds; the new TCB is at 999. -/
def cloneGoesWell : CloneOutcome where
  kmalloc := true
  configure := some 999
  vectorAdd := true
  start := true

theorem bootedThreads_fresh (tcb : Nat) (htcb : cloneGoesWell.configure = some tcb) :
    tcb ≠ 0 ∧ ∀ q, ∀ t ∈ bootedThreads q, t.tcb ≠ tcb := by
  cases htcb
  refine ⟨by decide, fun q t ht => ?_⟩
  rw [bootedThreads] at ht
  split_ifs at ht with hq
  · rw [List.mem_singleton.1 ht]
    show 256 * q ≠ 999
    omega
  · cases ht

/-- In the first slot the first partition clones its main thread. -/
theorem procClone_allOrNothing_iff_booted :
    ∃ s r σ', systemInit deployment = .ok s ∧
      procClone deployment ⟨s, bootedThreads⟩ 3 0x7000 0x8000 cloneGoesWell = .ok (r, σ') ∧
      (AllOrNothing ⟨s, bootedThreads⟩ 3 r σ' ↔
        FailsEarly ⟨s, bootedThreads⟩ 3 0x7000 0x8000 cloneGoesWell ∨
          RegistersCaller ⟨s, bootedThreads⟩ 3) := by
  obtain ⟨s, hs⟩ : ∃ s, systemInit deployment = .ok s := ⟨_, rfl⟩
  obtain ⟨r, σ', hclone, hword⟩ : ∃ r σ',
      procClone deployment ⟨s, bootedThreads⟩ 3 0x7000 0x8000 cloneGoesWell = .ok (r, σ') ∧
        (s.partArray s.currentPartition).Words := by
    cases hs
    exact ⟨_, _, rfl, by unfold Partition.Words; decide +kernel⟩
  exact ⟨s, r, σ', hs, hclone, procClone_allOrNothing_iff bootedThreads_fresh hword hclone⟩

/-- The first partition has entered its normal mode: the clone is refused, succeeds all the same,
and its thread runs unregistered. -/
theorem procClone_runs_unregistered :
    ∃ s r σ', Reached deployment Allowed
        [.tick, .request (.setPartitionMode partModeNormal)] s ∧
      procClone deployment ⟨s, bootedThreads⟩ 3 0x7000 0x8000 cloneGoesWell = .ok (r, σ') ∧
      r.err = .success ∧ r.ret = some .mode ∧ σ'.sched.tcbRunning 999 = true ∧
      ¬ AllOrNothing ⟨s, bootedThreads⟩ 3 r σ' := by
  obtain ⟨s, hs, hmode⟩ : ∃ s, Reached deployment Allowed
      [.tick, .request (.setPartitionMode partModeNormal)] s ∧
        (s.currentPartition = 0 ∧ (s.partArray 0).mode = .normal) := by
    apply Reached.exists_of_boot
    decide +kernel
  have hnot : ¬ (s.partArray s.currentPartition).InStartMode := by
    rw [hmode.1, Partition.InStartMode, hmode.2]
    decide
  have hclone : procClone deployment ⟨s, bootedThreads⟩ 3 0x7000 0x8000 cloneGoesWell =
      .ok ({ err := .success, threadID := some 1, ret := some .mode, registered := none },
        startedThread ⟨s, bootedThreads⟩ 3 ⟨1, 0x8000, 999⟩) := by
    show registerThread deployment (startedThread ⟨s, bootedThreads⟩ 3 ⟨1, 0x8000, 999⟩) 1 = _
    rcases pokPartitionThreadCreate_cases
        { deployment with
          getTcbCptrFromPid := tcbCptrFromPid
            (startedThread ⟨s, bootedThreads⟩ 3 ⟨1, 0x8000, 999⟩).threads }
        (startedThread ⟨s, bootedThreads⟩ 3 ⟨1, 0x8000, 999⟩).sched s.currentPartition with
      ⟨_, heq⟩ | ⟨hstart, _⟩ | ⟨hstart, _⟩
    · exact bind_eq_ok_iff.2 ⟨_, heq, rfl⟩
    · exact absurd hstart hnot
    · exact absurd hstart hnot
  refine ⟨s, _, _, hs, hclone, rfl, rfl, ?_, fun hall => ?_⟩
  · simp [startedThread, State.tcbResume]
  · obtain ⟨_, _, _, _, _, hregistered, _⟩ := hall.success rfl
    cases hregistered

end PartitionSeL4
