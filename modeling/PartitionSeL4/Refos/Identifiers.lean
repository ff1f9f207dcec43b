import PartitionSeL4.Clone
import PartitionSeL4.Refos.ProcessTable

/-!
# Requests with identifiers that denote nothing

`proc_nice` takes the index of a thread of the caller, and `proc_stop`, `proc_resume` and
`proc_set_prio` take a PID that is checked against the range of the caller's partition, which is one
of indices of `proc_array`. None of them checks that the identifier denotes something:

* `cvector_get` asserts that the index is in the vector, so that the `NULL` that `proc_nice` looks
  for never comes back;
* `pid_get_pcb` returns `NULL` for a PID without a process, and `proc_stop_handler` and
  `proc_resume_handler` go on with it;
* `proc_set_prio_handler` never looks the PID up and changes the caller's own first thread.

`requestRight_iff` says for which identifiers each request does what it should, in every process
table that can be reached: the invariant is that a process has a thread and that every thread has a
TCB.
-/

namespace PartitionSeL4.Refos

open Lib

/-! ## Threads -/

/-- The process table, with the threads of each process. -/
abbrev ProcTable := PidList (List ProcTcb)

/-- A thread, by its process and its place in the list of the process. -/
structure ThreadAt where
  pid : Nat
  tindex : Nat
  deriving DecidableEq, Repr

/-- A call to the kernel that takes effect on a thread. -/
inductive KernelCall where
  | setPriority (thread : ThreadAt) (priority : Int)
  | suspend (thread : ThreadAt)
  | resume (thread : ThreadAt)
  deriving DecidableEq, Repr

/-- What the requests return: `ESUCCESS` or `POK_ERRNO_OK`, `EINVALID`, and `POK_ERRNO_PARAM`. -/
inductive RequestCode where
  | success
  | invalid
  | param
  deriving DecidableEq, Repr

/-- `cvector_get` -/
def cvectorGet {α : Type} (v : List α) (index : Int) : Except Failure α :=
  match v[word index]? with
  | some item => .ok item
  | none => .error .assertion

/-! ## The handlers -/

/-- `proc_nice`, called by process `caller`; `accepted` is the kernel's answer. The entries of the
vector are not null. -/
def procNice (s : ProcTable) (caller : Nat) (tindex priority : Int) (accepted : Bool) :
    Except Failure (RequestCode × List KernelCall × ProcTable) :=
  match s.pcbs caller with
  | none => .error .fault
  | some threads =>
      if threads.length < 1 then .error .assertion
      else
        match cvectorGet threads tindex with
        | .error f => .error f
        | .ok t =>
            if t.tcb = 0 then .error .assertion
            else if accepted = false then .ok (.invalid, [], s)
            else
              let t := { t with priority := (priority % 2 ^ 8).toNat }
              .ok (.success, [.setPriority ⟨caller, word tindex⟩ priority],
                { s with
                  pcbs := Function.update s.pcbs caller (some (threads.set (word tindex) t)) })

/-- The check of the three handlers against the range of the caller's partition. -/
def OutOfRange (part : Partition) (pid : Int) : Prop := word pid < part.low ∨ part.high < word pid

instance (part : Partition) (pid : Int) : Decidable (OutOfRange part pid) :=
  inferInstanceAs (Decidable (_ ∨ _))

/-- `proc_set_prio_handler` -/
def procSetPrioHandler (s : ProcTable) (caller : Nat) (part : Partition) (pid prio : Int)
    (accepted : Bool) : Except Failure (RequestCode × List KernelCall × ProcTable) :=
  match s.pcbs caller with
  | none => .error .fault
  | some threads =>
      match cvectorGet threads 0 with
      | .error f => .error f
      | .ok _ =>
          if OutOfRange part pid then .ok (.param, [], s)
          else if accepted = false then .ok (.param, [], s)
          else .ok (.success, [.setPriority ⟨caller, 0⟩ prio], s)

/-- The handlers that pass the first thread of process `pid` to the kernel. -/
def firstThreadHandler (call : ThreadAt → KernelCall) (s : ProcTable) (part : Partition)
    (pid : Int) : Except Failure (RequestCode × List KernelCall × ProcTable) :=
  if OutOfRange part pid then .ok (.param, [], s)
  else
    match pidGetPcb s (word pid) with
    | none => .error .fault
    | some threads =>
        match cvectorGet threads 0 with
        | .error f => .error f
        | .ok _ => .ok (.success, [call ⟨word pid, 0⟩], s)

/-- `proc_stop_handler` -/
def procStopHandler := firstThreadHandler .suspend

/-- `proc_resume_handler` -/
def procResumeHandler := firstThreadHandler .resume

/-- A request with an identifier. -/
inductive IdRequest where
  | nice (tindex priority : Int)
  | stop (pid : Int)
  | resume (pid : Int)
  | setPrio (pid prio : Int)
  deriving DecidableEq, Repr

/-- The handler of a request. -/
def IdRequest.serve (s : ProcTable) (caller : Nat) (part : Partition) (accepted : Bool) :
    IdRequest → Except Failure (RequestCode × List KernelCall × ProcTable)
  | .nice tindex priority => procNice s caller tindex priority accepted
  | .stop pid => procStopHandler s part pid
  | .resume pid => procResumeHandler s part pid
  | .setPrio pid prio => procSetPrioHandler s caller part pid prio accepted

/-! ## Process tables that can be reached -/

/-- `proc_load_direct`: without memory there is no process; if it cannot be configured, or its
thread not be started, it is gone again. -/
def ProcTable.procLoadDirect (s : ProcTable) (kmalloc : Bool) (thread : Option ProcTcb)
    (start : Bool) : Except Failure ProcTable := do
  let (pid, s) ← pidAlloc s (if kmalloc then some [] else none)
  if pid = pidNull then return s
  match thread with
  | none => return pidFree s pid
  | some t =>
      let s := { s with pcbs := Function.update s.pcbs pid (some [t]) }
      if start then return s
      return pidFree s pid

/-- What happens to the process table: a process is loaded, gets another thread, or exits, or there
is a request. -/
inductive TableEvent where
  | load (kmalloc : Bool) (thread : Option ProcTcb) (start : Bool)
  | clone (pid : Nat) (thread : ProcTcb)
  | exit (pid : Nat)
  | request (caller : Nat) (part : Partition) (accepted : Bool) (req : IdRequest)

/-- One event. -/
def tableStep (s : ProcTable) : TableEvent → Except Failure ProcTable
  | .load kmalloc thread start => ProcTable.procLoadDirect s kmalloc thread start
  | .clone pid thread =>
      match pidGetPcb s pid with
      | none => .ok s
      | some threads =>
          .ok { s with pcbs := Function.update s.pcbs pid (some (threads ++ [thread])) }
  | .exit pid => .ok (pidFree s pid)
  | .request caller part accepted req => do
      let (_, _, s) ← req.serve s caller part accepted
      return s

/-- A thread that has been configured has a TCB. -/
def TableEvent.HasTcb (_ : ProcTable) : TableEvent → Prop
  | .load _ (some t) _ | .clone _ t => t.tcb ≠ 0
  | .load _ none _ | .exit _ | .request _ _ _ _ => True

instance (s : ProcTable) : (e : TableEvent) → Decidable (e.HasTcb s)
  | .load _ (some t) _ | .clone _ t => inferInstanceAs (Decidable (t.tcb ≠ 0))
  | .load _ none _ | .exit _ | .request _ _ _ _ => inferInstanceAs (Decidable True)

/-! ## The property and the condition -/

/-- The thread is there. -/
def ThreadAt.Exists (s : ProcTable) (t : ThreadAt) : Prop :=
  ∃ threads, pidGetPcb s t.pid = some threads ∧ t.tindex < threads.length

/-- The thread that the identifier of a request denotes: of the caller, by its index, or the first
one of a process. -/
def IdRequest.Denotes (caller : Nat) (t : ThreadAt) : IdRequest → Prop
  | .nice tindex _ => t.pid = caller ∧ t.tindex = word tindex
  | .stop pid | .resume pid | .setPrio pid _ => t.pid = word pid ∧ t.tindex = 0

/-- What a request asks of the kernel. -/
def IdRequest.call (t : ThreadAt) : IdRequest → KernelCall
  | .nice _ priority => .setPriority t priority
  | .stop _ => .suspend t
  | .resume _ => .resume t
  | .setPrio _ prio => .setPriority t prio

/-- The request returns, with an error and without an effect, or it acts on a thread that is there
and that the identifier denotes. -/
def RequestRight (s : ProcTable) (caller : Nat) (part : Partition) (accepted : Bool)
    (req : IdRequest) : Prop :=
  ∃ code calls s', req.serve s caller part accepted = .ok (code, calls, s') ∧
    (code ≠ .success ∧ calls = [] ∧ s' = s ∨
      code = .success ∧ ∃ t : ThreadAt, t.Exists s ∧ req.Denotes caller t ∧ calls = [req.call t])

/-- The index is one of the caller's threads; the PID is outside the partition's range, or it is
that of a process; and where a priority is to be set, that of the caller, unless the kernel refuses
the priority. -/
def RequestFits (s : ProcTable) (caller : Nat) (part : Partition) (accepted : Bool) :
    IdRequest → Prop
  | .nice tindex _ => ThreadAt.Exists s ⟨caller, word tindex⟩
  | .stop pid | .resume pid => OutOfRange part pid ∨ (pidGetPcb s (word pid)).isSome
  | .setPrio pid _ => OutOfRange part pid ∨ word pid = caller ∨ accepted = false

/-! ## The invariant -/

/-- A process has a PID in range and a thread, and its threads have TCBs. -/
def ThreadsOk (pcbs : Nat → Option (List ProcTcb)) : Prop :=
  ∀ pid threads, pcbs pid = some threads →
    pidStart ≤ pid ∧ pid < pidMax ∧ threads ≠ [] ∧ ∀ t ∈ threads, t.tcb ≠ 0

/-- What `pid_alloc` returns is no PID, or that of the new process. -/
theorem pidAlloc_cases {α : Type} {p q : PidList α} {kmalloc : Option α} {pid : Nat}
    (h : pidAlloc p kmalloc = .ok (pid, q)) :
    (pid = pidNull ∧ q.pcbs = p.pcbs) ∨
      ∃ pcb, pidStart ≤ pid ∧ pid < pidMax ∧ q.pcbs = Function.update p.pcbs pid (some pcb) ∧
        kmalloc = some pcb := by
  rw [pidAlloc] at h
  split at h
  next new pids _ =>
    split_ifs at h with hrange hset
    · obtain ⟨rfl, rfl⟩ := Prod.mk.inj (Except.ok.inj h)
      exact Or.inl ⟨rfl, rfl⟩
    · cases kmalloc with
      | none =>
          obtain ⟨rfl, rfl⟩ := Prod.mk.inj (Except.ok.inj h)
          exact Or.inl ⟨rfl, rfl⟩
      | some pcb =>
          obtain ⟨rfl, rfl⟩ := Prod.mk.inj (Except.ok.inj h)
          exact Or.inr ⟨pcb, by omega, by omega, rfl, rfl⟩

theorem pidFree_pcbs {α : Type} (p : PidList α) {pid : Nat} (hstart : pidStart ≤ pid)
    (hmax : pid < pidMax) : (pidFree p pid).pcbs = Function.update p.pcbs pid none := by
  rw [pidFree, if_neg (by omega)]
  split_ifs with hnone
  · rw [← Option.isNone_iff_eq_none.1 hnone, Function.update_eq_self]
  · rfl

namespace ThreadsOk

variable {pcbs : Nat → Option (List ProcTcb)} {s t : ProcTable}

theorem update (h : ThreadsOk pcbs) (pid : Nat) (new : Option (List ProcTcb))
    (hnew : ∀ threads, new = some threads →
      pidStart ≤ pid ∧ pid < pidMax ∧ threads ≠ [] ∧ ∀ t ∈ threads, t.tcb ≠ 0) :
    ThreadsOk (Function.update pcbs pid new) := by
  intro i threads hi
  by_cases heq : i = pid
  · subst heq
    rw [Function.update_self] at hi
    exact hnew threads hi
  · rw [Function.update_of_ne heq] at hi
    exact h i threads hi

theorem free (h : ThreadsOk s.pcbs) (pid : Nat) : ThreadsOk (pidFree s pid).pcbs := by
  by_cases hrange : pidStart ≤ pid ∧ pid < pidMax
  · rw [pidFree_pcbs s hrange.1 hrange.2]
    exact h.update pid none fun _ hnone => nomatch hnone
  · rw [pidFree, if_pos (by omega)]
    exact h

/-- Only a process with a thread stays. -/
theorem load (h : ThreadsOk s.pcbs) {kmalloc start : Bool} {thread : Option ProcTcb}
    (hthread : ∀ t, thread = some t → t.tcb ≠ 0)
    (hload : ProcTable.procLoadDirect s kmalloc thread start = .ok t) : ThreadsOk t.pcbs := by
  rw [ProcTable.procLoadDirect] at hload
  obtain ⟨⟨pid, s₁⟩, halloc, hload⟩ := bind_eq_ok_iff.1 hload
  dsimp only at hload
  rcases pidAlloc_cases halloc with ⟨rfl, hpcbs⟩ | ⟨pcb, hstart, hmax, hpcbs, _⟩
  · rw [if_pos rfl] at hload
    obtain rfl := Except.ok.inj hload
    exact hpcbs ▸ h
  · have hne : pid ≠ pidNull := by
      have : pidStart = pidNull + 1 := rfl
      omega
    have hgone : ∀ s₂ : ProcTable, (∃ new, s₂.pcbs = Function.update s.pcbs pid new) →
        ThreadsOk (pidFree s₂ pid).pcbs := by
      rintro s₂ ⟨new, hs₂⟩
      rw [pidFree_pcbs s₂ hstart hmax, hs₂, Function.update_idem]
      exact h.update pid none fun _ hnone => nomatch hnone
    rw [if_neg hne] at hload
    cases thread with
    | none =>
        obtain rfl := Except.ok.inj hload
        exact hgone s₁ ⟨_, hpcbs⟩
    | some tcb =>
        dsimp only at hload
        rw [hpcbs, Function.update_idem] at hload
        split_ifs at hload with hstarted
        · obtain rfl := Except.ok.inj hload
          refine h.update pid _ fun threads hthreads => ⟨hstart, hmax, ?_⟩
          obtain rfl := Option.some.inj hthreads
          exact ⟨List.cons_ne_nil _ _, fun t ht => List.mem_singleton.1 ht ▸ hthread tcb rfl⟩
        · obtain rfl := Except.ok.inj hload
          exact hgone _ ⟨_, rfl⟩

theorem getPcb (h : ThreadsOk s.pcbs) (pid : Nat) : pidGetPcb s pid = s.pcbs pid := by
  rw [pidGetPcb]
  split_ifs with hout
  · cases hpcb : s.pcbs pid with
    | none => rfl
    | some threads =>
        have := h pid threads hpcb
        omega
  · rfl

end ThreadsOk

/-! ## What a request does -/

theorem cvectorGet_ok {α : Type} {v : List α} {index : Int} {item : α}
    (h : v[word index]? = some item) : cvectorGet v index = .ok item := by
  rw [cvectorGet, h]

theorem cvectorGet_outside {α : Type} {v : List α} {index : Int} (h : v.length ≤ word index) :
    cvectorGet v index = .error .assertion := by
  rw [cvectorGet, List.getElem?_eq_none h]

theorem ThreadsOk.head {s : ProcTable} {pid : Nat} {threads : List ProcTcb}
    (h : ThreadsOk s.pcbs) (hpcb : s.pcbs pid = some threads) :
    ThreadAt.Exists s ⟨pid, 0⟩ ∧ ∃ t, cvectorGet threads 0 = .ok t := by
  obtain ⟨_, _, hne, _⟩ := h pid threads hpcb
  obtain ⟨t, rest, rfl⟩ := List.exists_cons_of_ne_nil hne
  exact ⟨⟨t :: rest, (h.getPcb pid).trans hpcb, Nat.succ_pos _⟩, t, rfl⟩

section

variable {s : ProcTable} {caller : Nat} {threads : List ProcTcb}

theorem procNice_inside (h : ThreadsOk s.pcbs) (hcaller : s.pcbs caller = some threads)
    {tindex : Int} (hlt : word tindex < threads.length) (priority : Int) (accepted : Bool) :
    procNice s caller tindex priority accepted =
      if accepted = false then .ok (.invalid, [], s)
      else .ok (.success, [.setPriority ⟨caller, word tindex⟩ priority],
        { s with
          pcbs := Function.update s.pcbs caller (some (threads.set (word tindex)
            { threads[word tindex] with priority := (priority % 2 ^ 8).toNat })) }) := by
  obtain ⟨_, _, _, htcb⟩ := h caller threads hcaller
  have hget := cvectorGet_ok (List.getElem?_eq_getElem hlt)
  have hne := htcb _ (List.getElem_mem hlt)
  rw [procNice, hcaller]
  dsimp only
  rw [if_neg (by omega), hget]
  dsimp only
  rw [if_neg hne]

theorem procNice_outside (hcaller : s.pcbs caller = some threads) {tindex : Int}
    (hle : threads.length ≤ word tindex) (priority : Int) (accepted : Bool) :
    procNice s caller tindex priority accepted = .error .assertion := by
  rw [procNice, hcaller]
  dsimp only
  rw [cvectorGet_outside hle]
  exact ite_self _

theorem procSetPrioHandler_eq (h : ThreadsOk s.pcbs) (hcaller : s.pcbs caller = some threads)
    (part : Partition) (pid prio : Int) (accepted : Bool) :
    procSetPrioHandler s caller part pid prio accepted =
      if OutOfRange part pid ∨ accepted = false then .ok (.param, [], s)
      else .ok (.success, [.setPriority ⟨caller, 0⟩ prio], s) := by
  obtain ⟨_, t, hget⟩ := h.head hcaller
  rw [procSetPrioHandler, hcaller]
  dsimp only
  rw [hget, ite_or]

theorem firstThreadHandler_some (h : ThreadsOk s.pcbs) {pid : Int}
    (hpcb : s.pcbs (word pid) = some threads) (call : ThreadAt → KernelCall) (part : Partition) :
    firstThreadHandler call s part pid =
      if OutOfRange part pid then .ok (.param, [], s)
      else .ok (.success, [call ⟨word pid, 0⟩], s) := by
  obtain ⟨_, t, hget⟩ := h.head hpcb
  rw [firstThreadHandler, h.getPcb, hpcb]
  dsimp only
  rw [hget]

theorem firstThreadHandler_none {pid : Int} (hpcb : pidGetPcb s (word pid) = none)
    (call : ThreadAt → KernelCall) (part : Partition) :
    firstThreadHandler call s part pid =
      if OutOfRange part pid then .ok (.param, [], s) else .error .fault := by
  rw [firstThreadHandler, hpcb]

end

/-! ## Runs -/

/-- The first thread's handlers leave the process table alone. -/
theorem firstThreadHandler_state {call : ThreadAt → KernelCall} {s t : ProcTable}
    {part : Partition} {pid : Int} {code : RequestCode} {calls : List KernelCall}
    (h : firstThreadHandler call s part pid = .ok (code, calls, t)) : t = s := by
  rw [firstThreadHandler] at h
  split_ifs at h with hout
  · cases h
    rfl
  · cases hpcb : pidGetPcb s (word pid) with
    | none =>
        rw [hpcb] at h
        cases h
    | some threads =>
        rw [hpcb] at h
        dsimp only at h
        split at h <;> cases h
        rfl

/-- A request leaves the processes and their threads alone, apart from the priority that is kept
with a thread. -/
theorem ThreadsOk.serve {s t : ProcTable} (h : ThreadsOk s.pcbs) {caller : Nat} {part : Partition}
    {accepted : Bool} {req : IdRequest} {code : RequestCode} {calls : List KernelCall}
    (hserve : req.serve s caller part accepted = .ok (code, calls, t)) : ThreadsOk t.pcbs := by
  cases req with
  | stop pid => exact firstThreadHandler_state hserve ▸ h
  | resume pid => exact firstThreadHandler_state hserve ▸ h
  | nice tindex priority =>
      rw [IdRequest.serve] at hserve
      cases hcaller : s.pcbs caller with
      | none =>
          rw [procNice, hcaller] at hserve
          cases hserve
      | some threads =>
          obtain ⟨hstart, hmax, hne, htcb⟩ := h caller threads hcaller
          by_cases hlt : word tindex < threads.length
          · rw [procNice_inside h hcaller hlt] at hserve
            split_ifs at hserve with hrefused
            · cases hserve
              exact h
            · cases hserve
              refine h.update caller _ fun threads' hthreads' => ⟨hstart, hmax, ?_⟩
              obtain rfl := Option.some.inj hthreads'
              refine ⟨fun hnil => hne ((List.set_eq_nil_iff _ _).1 hnil), fun t ht => ?_⟩
              rcases List.mem_or_eq_of_mem_set ht with ht | rfl
              · exact htcb t ht
              · exact htcb threads[word tindex] (List.getElem_mem hlt)
          · rw [procNice_outside hcaller (Nat.le_of_not_lt hlt)] at hserve
            cases hserve
  | setPrio pid prio =>
      rw [IdRequest.serve] at hserve
      cases hcaller : s.pcbs caller with
      | none =>
          rw [procSetPrioHandler, hcaller] at hserve
          cases hserve
      | some threads =>
          rw [procSetPrioHandler_eq h hcaller] at hserve
          split_ifs at hserve <;> cases hserve <;> exact h

theorem ThreadsOk.step {s t : ProcTable} {e : TableEvent} (h : ThreadsOk s.pcbs)
    (htcb : e.HasTcb s) (hstep : tableStep s e = .ok t) : ThreadsOk t.pcbs := by
  cases e with
  | load kmalloc thread start =>
      refine h.load (fun tcb hthread => ?_) hstep
      subst hthread
      exact htcb
  | clone pid thread =>
      rw [tableStep] at hstep
      cases hpcb : pidGetPcb s pid with
      | none =>
          rw [hpcb] at hstep
          exact Except.ok.inj hstep ▸ h
      | some threads =>
          rw [hpcb] at hstep
          obtain rfl := Except.ok.inj hstep
          obtain ⟨hstart, hmax, hne, hall⟩ := h pid threads (h.getPcb pid ▸ hpcb)
          refine h.update pid _ fun threads' hthreads' => ⟨hstart, hmax, ?_⟩
          obtain rfl := Option.some.inj hthreads'
          refine ⟨List.append_ne_nil_of_left_ne_nil hne _, fun t ht => ?_⟩
          rcases List.mem_append.1 ht with ht | ht
          · exact hall t ht
          · exact List.mem_singleton.1 ht ▸ htcb
  | exit pid => exact Except.ok.inj hstep ▸ h.free pid
  | request caller part accepted req =>
      obtain ⟨⟨code, calls, s'⟩, hserve, hs'⟩ := bind_eq_ok_iff.1 hstep
      exact Except.ok.inj hs' ▸ h.serve hserve

theorem threadsOk_of_run {evs : List TableEvent} {s : ProcTable}
    (hrun : Run tableStep (fun s e => e.HasTcb s) pidInit evs s) : ThreadsOk s.pcbs :=
  hrun.invariant (I := fun s => ThreadsOk s.pcbs) (fun _ _ h => nomatch h)
    fun _ _ _ h htcb hstep => h.step htcb hstep

/-! ## The identifiers that are served right -/

section

variable {s s' : ProcTable} {caller : Nat} {part : Partition} {accepted : Bool} {req : IdRequest}

theorem not_requestRight_of_error {f : Failure}
    (h : req.serve s caller part accepted = .error f) :
    ¬RequestRight s caller part accepted req := by
  rintro ⟨code, calls, s', hserve, _⟩
  rw [h] at hserve
  cases hserve

theorem requestRight_of_refused {code : RequestCode}
    (h : req.serve s caller part accepted = .ok (code, [], s)) (hcode : code ≠ .success) :
    RequestRight s caller part accepted req :=
  ⟨code, [], s, h, Or.inl ⟨hcode, rfl, rfl⟩⟩

theorem IdRequest.call_injective (req : IdRequest) {t t' : ThreadAt}
    (h : req.call t = req.call t') : t = t' := by
  cases req <;> injection h

theorem requestRight_of_success (req : IdRequest) {t : ThreadAt}
    (h : req.serve s caller part accepted = .ok (.success, [req.call t], s')) (hex : t.Exists s) :
    RequestRight s caller part accepted req ↔ req.Denotes caller t := by
  constructor
  · rintro ⟨code, calls, u, hserve, hright⟩
    rw [h] at hserve
    cases hserve
    rcases hright with ⟨hcode, _⟩ | ⟨_, t', _, hden, hcall⟩
    · exact absurd rfl hcode
    · rwa [req.call_injective (List.singleton_inj.1 hcall)]
  · exact fun hden => ⟨.success, [req.call t], s', h, Or.inr ⟨rfl, t, hex, hden, rfl⟩⟩

theorem nice_iff (h : ThreadsOk s.pcbs) {threads : List ProcTcb}
    (hcaller : s.pcbs caller = some threads) (tindex priority : Int) :
    RequestRight s caller part accepted (.nice tindex priority) ↔
      ThreadAt.Exists s ⟨caller, word tindex⟩ := by
  have hexists : ThreadAt.Exists s ⟨caller, word tindex⟩ ↔ word tindex < threads.length := by
    rw [ThreadAt.Exists, h.getPcb, hcaller]
    exact ⟨fun ⟨_, heq, hlt⟩ => Option.some.inj heq ▸ hlt, fun hlt => ⟨threads, rfl, hlt⟩⟩
  rw [hexists]
  by_cases hlt : word tindex < threads.length
  · refine iff_of_true ?_ hlt
    have hserve := procNice_inside h hcaller hlt priority accepted
    by_cases hrefused : accepted = false
    · rw [if_pos hrefused] at hserve
      exact requestRight_of_refused hserve (by decide)
    · rw [if_neg hrefused] at hserve
      exact (requestRight_of_success (.nice tindex priority) hserve (hexists.2 hlt)).2 ⟨rfl, rfl⟩
  · have hserve : (IdRequest.nice tindex priority).serve s caller part accepted =
        .error .assertion := procNice_outside hcaller (Nat.le_of_not_lt hlt) priority accepted
    exact iff_of_false (not_requestRight_of_error hserve) hlt

theorem firstThread_iff (h : ThreadsOk s.pcbs) {pid : Int} {call : ThreadAt → KernelCall}
    (hserve : req.serve s caller part accepted = firstThreadHandler call s part pid)
    (hcall : ∀ t, req.call t = call t) (hden : req.Denotes caller ⟨word pid, 0⟩) :
    RequestRight s caller part accepted req ↔
      OutOfRange part pid ∨ (pidGetPcb s (word pid)).isSome := by
  by_cases hout : OutOfRange part pid
  · refine iff_of_true (requestRight_of_refused (hserve.trans (if_pos hout)) ?_) (Or.inl hout)
    decide
  · cases hpcb : pidGetPcb s (word pid) with
    | none =>
        rw [firstThreadHandler_none hpcb, if_neg hout] at hserve
        exact iff_of_false (not_requestRight_of_error hserve) (by simp [hout])
    | some threads =>
        have hpcbs := h.getPcb (word pid) ▸ hpcb
        rw [firstThreadHandler_some h hpcbs, if_neg hout, ← hcall] at hserve
        have hright := (requestRight_of_success req hserve (h.head hpcbs).1).2 hden
        exact iff_of_true hright (Or.inr rfl)

theorem setPrio_iff (h : ThreadsOk s.pcbs) {threads : List ProcTcb}
    (hcaller : s.pcbs caller = some threads) (pid prio : Int) :
    RequestRight s caller part accepted (.setPrio pid prio) ↔
      OutOfRange part pid ∨ word pid = caller ∨ accepted = false := by
  have hserve := procSetPrioHandler_eq h hcaller part pid prio accepted
  by_cases hrefused : OutOfRange part pid ∨ accepted = false
  · rw [if_pos hrefused] at hserve
    refine iff_of_true (requestRight_of_refused hserve (by decide)) ?_
    exact hrefused.imp_right Or.inr
  · rw [if_neg hrefused] at hserve
    rw [requestRight_of_success (.setPrio pid prio) hserve (h.head hcaller).1, IdRequest.Denotes]
    push Not at hrefused
    simp [hrefused.1, hrefused.2, eq_comm]

end

/-- **Requests with arbitrary identifiers.** In every process table that can be reached, with
processes that are loaded, get threads and exit and with requests before, and for every process that
makes the request and every range of its partition: the request acts on a thread that is there and
that the identifier denotes, or returns an error and has no effect, if and only if the identifier
fits. -/
theorem requestRight_iff (evs : List TableEvent) (s : ProcTable) (caller : Nat) (part : Partition)
    (accepted : Bool) (req : IdRequest)
    (hrun : Run tableStep (fun s e => e.HasTcb s) pidInit evs s)
    (hcaller : (pidGetPcb s caller).isSome) :
    RequestRight s caller part accepted req ↔ RequestFits s caller part accepted req := by
  have h := threadsOk_of_run hrun
  obtain ⟨threads, hthreads⟩ := Option.isSome_iff_exists.1 hcaller
  rw [h.getPcb] at hthreads
  cases req with
  | nice tindex priority => exact nice_iff h hthreads tindex priority
  | stop pid => exact firstThread_iff h rfl (fun _ => rfl) ⟨rfl, rfl⟩
  | resume pid => exact firstThread_iff h rfl (fun _ => rfl) ⟨rfl, rfl⟩
  | setPrio pid prio => exact setPrio_iff h hthreads pid prio

/-- A process with one thread, in a partition with room for four. -/
theorem requestRight_iff_one :
    ∃ s, Run tableStep (fun s e => e.HasTcb s) pidInit
        [.load true (some ⟨100, 4096, 7⟩) true,
          .request 1 { low := 1, high := 4 } true (.stop 1)] s ∧
      (RequestRight s 1 { low := 1, high := 4 } true (.nice 0 50) ↔
        RequestFits s 1 { low := 1, high := 4 } true (.nice 0 50)) := by
  obtain ⟨s, hrun, hpcb⟩ : ∃ s, Run tableStep (fun s e => e.HasTcb s) pidInit
      [.load true (some ⟨100, 4096, 7⟩) true, .request 1 { low := 1, high := 4 } true (.stop 1)] s ∧
      (pidGetPcb s 1).isSome = true := by
    apply Run.exists_of_exec
    decide +kernel
  exact ⟨s, hrun, requestRight_iff _ s 1 { low := 1, high := 4 } true (.nice 0 50) hrun hpcb⟩

/-- The same process asks for its thread 1, and for PID 2, which is in the range and no process:
the server fails an assertion or goes on with a null pointer, and the priority it sets is that of
the caller. -/
theorem identifiers_denote_nothing :
    ∃ s, Run tableStep (fun s e => e.HasTcb s) pidInit
        [.load true (some ⟨100, 4096, 7⟩) true] s ∧ (pidGetPcb s 1).isSome ∧
      ¬RequestRight s 1 { low := 1, high := 4 } true (.nice 1 50) ∧
      ¬RequestRight s 1 { low := 1, high := 4 } true (.stop 2) ∧
      ¬RequestRight s 1 { low := 1, high := 4 } true (.resume 2) ∧
      ¬RequestRight s 1 { low := 1, high := 4 } true (.setPrio 2 50) := by
  obtain ⟨s, hrun, hone, htwo⟩ : ∃ s, Run tableStep (fun s e => e.HasTcb s) pidInit
      [.load true (some ⟨100, 4096, 7⟩) true] s ∧ s.pcbs 1 = some [⟨100, 4096, 7⟩] ∧
      pidGetPcb s (word 2) = none := by
    apply Run.exists_of_exec
    decide +kernel
  have h := threadsOk_of_run hrun
  have hout : ¬OutOfRange { low := 1, high := 4 } 2 := by decide
  refine ⟨s, hrun, ?_, ?_, ?_, ?_, ?_⟩
  · rw [h.getPcb, hone]
    rfl
  · have hserve : (IdRequest.nice 1 50).serve s 1 { low := 1, high := 4 } true =
        .error .assertion := procNice_outside hone (by decide) 50 true
    exact not_requestRight_of_error hserve
  · have hserve := firstThreadHandler_none htwo .suspend { low := 1, high := 4 }
    rw [if_neg hout] at hserve
    exact not_requestRight_of_error hserve
  · have hserve := firstThreadHandler_none htwo .resume { low := 1, high := 4 }
    rw [if_neg hout] at hserve
    exact not_requestRight_of_error hserve
  · rw [setPrio_iff h hone]
    decide

end PartitionSeL4.Refos
