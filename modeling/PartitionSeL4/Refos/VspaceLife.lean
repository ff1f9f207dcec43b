import PartitionSeL4.Clone
import PartitionSeL4.Lib.RefCount

/-!
# The life of an address space

The address space of a process is a part of its process control block and counts its references:
one of the process and one of each of its threads. `thread_config` takes a reference and drops it
again if the thread cannot be configured; `thread_release`, two exit stacks and `proc_release` drop
references, the last of them that of the process before those of its threads. Whoever drops the last
one releases the address space.

The state has, for the sake of the statement, a log of what was done with the address space. That it
goes through (`life`) says that `vs_release` is called for the last reference and that nobody
touches the address space after that. What carries the proof is `HasRefs`: the log goes through and
leads to `n` references, and so many does `vs->ref` count. There is a lemma for each of `vs_ref` and
`vs_unref`, and the rest is counting.
-/

namespace PartitionSeL4.Refos

open Lib

/-! ## The address space -/

/-- `struct vs_vspace` -/
structure VsVspace where
  /-- `magic == REFOS_VSPACE_MAGIC` -/
  magic : Bool := false
  /-- A `uint32_t`. -/
  ref : Nat := 0
  deriving DecidableEq, Repr

/-- `struct proc_pcb`, and what has been done with its address space so far. The threads in the
list have been configured for the address space of the process. -/
structure VsPcb where
  /-- `magic == REFOS_PCB_MAGIC` -/
  magic : Bool := false
  vspace : VsVspace := {}
  threads : List ProcTcb := []
  log : List Access := []
  deriving DecidableEq, Repr

/-- What the steps inside `proc_config_new` come to. -/
structure ConfigOutcome where
  /-- The image has a name. -/
  imageName : Bool
  /-- What `vs_initialise` returns. -/
  vsInitialise : Err
  /-- `kmalloc` of the thread structure. -/
  kmalloc : Bool
  /-- `sel4utils_elf_load`: the entry point, or `NULL`. -/
  elfLoad : Nat
  /-- `sel4utils_configure_thread` -/
  configure : Option Nat
  /-- `cvector_add` gets its memory, or asserts. -/
  vectorAdd : Bool
  deriving DecidableEq, Repr

/-- What the steps inside `proc_clone` come to; `registered` says that the scheduler's own
assertions hold. -/
structure CloneSteps extends CloneOutcome where
  registered : Bool
  deriving DecidableEq, Repr

namespace VsPcb

/-- An access to the address space. -/
def did (p : VsPcb) (a : Access) : VsPcb := { p with log := p.log ++ [a] }

/-- `memset(p, 0, sizeof(struct proc_pcb))` -/
def clear (p : VsPcb) : VsPcb := { log := p.log }

/-- `vs_initialise`, with what it returns. Where it fails there is no address space: its own exit
stack frees what there is of it. -/
def vsInitialise (p : VsPcb) (err : Err) : VsPcb :=
  let p := { p with vspace := { magic := true, ref := 1 } }
  if err = .success then p.did .create else p

/-- `vs_release` -/
def vsRelease (p : VsPcb) : Except Failure VsPcb :=
  if !p.vspace.magic ∨ p.vspace.ref ≠ 0 then .error .assertion
  else .ok ({ p with vspace := {} }.did .destroy)

/-- `vs_ref` -/
def vsRef (p : VsPcb) : Except Failure VsPcb :=
  if !p.vspace.magic then .error .assertion
  else .ok ({ p with vspace := { p.vspace with ref := u32 (p.vspace.ref + 1) } }.did .take)

/-- `vs_unref` -/
def vsUnref (p : VsPcb) : Except Failure VsPcb :=
  if !p.vspace.magic then .error .assertion
  else
    let p := { p with vspace := { p.vspace with ref := u32 (p.vspace.ref + 2 ^ 32 - 1) } }.did .drop
    if p.vspace.ref ≤ 0 then p.vsRelease else .ok p

/-! ## Threads -/

/-- `thread_config`; `configure` is the TCB of the new thread. -/
def threadConfig (p : VsPcb) (priority entryPoint : Nat) (configure : Option Nat) :
    Except Failure (Err × Option ProcTcb × VsPcb) := do
  if entryPoint = 0 then return (.invalidParam, none, p)
  let p ← p.vsRef
  let p := p.did .use
  match configure with
  | none => return (.invalid, none, ← p.vsUnref)
  | some tcb =>
      return (.success, some { priority := priority, entryPoint := entryPoint, tcb := tcb }, p)

/-- `thread_release`: the clean-up of the thread uses the address space. -/
def threadRelease (p : VsPcb) : Except Failure VsPcb := (p.did .use).vsUnref

/-! ## Processes -/

/-- The exit stack of `proc_config_new` from `exit1` on. -/
def configExit (p : VsPcb) (error : Err) : Except Failure (Err × VsPcb) := do
  let p ← p.vsUnref
  return (error, p.clear)

/-- `proc_config_new` -/
def procConfigNew (p : VsPcb) (priority : Nat) (o : ConfigOutcome) :
    Except Failure (Err × VsPcb) := do
  if o.imageName = false then return (.invalidParam, p)
  let p := { p.clear with magic := true }.vsInitialise o.vsInitialise
  if o.vsInitialise ≠ .success then return (o.vsInitialise, p.clear)
  if o.kmalloc = false then p.configExit .nomem
  else
    let p := p.did .use
    if o.elfLoad = 0 then p.configExit .invalidParam
    else
      match ← p.threadConfig priority o.elfLoad o.configure with
      | (error, none, p) => p.configExit error
      | (_, some thread, p) =>
          if o.vectorAdd = false then .error .assertion
          else return (.success, { p with threads := [thread] })

/-- `proc_clone` -/
def procClone (p : VsPcb) (stackAddr entryPoint : Nat) (o : CloneSteps) :
    Except Failure (Err × VsPcb) := do
  if !p.magic then .error .assertion
  else if stackAddr = 0 ∨ entryPoint = 0 then return (.invalidParam, p)
  else
    match p.threads.head? with
    | none => return (.invalid, p)
    | some t =>
        if t.entryPoint = 0 then .error .assertion
        else if o.kmalloc = false then return (.nomem, p)
        else
          match ← p.threadConfig t.priority entryPoint o.configure with
          | (error, none, p) => return (error, p)
          | (_, some thread, p) =>
              if o.vectorAdd = false then .error .assertion
              else
                let tID := p.threads.length
                let p := { p with threads := p.threads ++ [thread] }
                if o.start = false then
                  return (.invalid, ← { p with threads := p.threads.eraseIdx tID }.threadRelease)
                else if o.registered = false then .error .assertion
                else return (.success, p)

/-- `proc_release`, without what it does about other processes and the buffers. -/
def procRelease (p : VsPcb) : Except Failure VsPcb := do
  if !p.magic then .error .assertion
  else
    let p ← p.vsUnref
    let p ← p.threads.foldlM (fun p _ => p.threadRelease) p
    return { p with magic := false, threads := [] }

end VsPcb

/-! ## Histories of a process -/

/-- What happens to a process control block. -/
inductive VsEvent where
  | configNew (priority : Nat) (o : ConfigOutcome)
  | clone (stackAddr entryPoint : Nat) (o : CloneSteps)
  | release
  deriving DecidableEq, Repr

/-- One event. -/
def vsStep (p : VsPcb) : VsEvent → Except Failure VsPcb
  | .configNew priority o => do return (← p.procConfigNew priority o).2
  | .clone stackAddr entryPoint o => do return (← p.procClone stackAddr entryPoint o).2
  | .release => p.procRelease

/-- The process is configured once, and 2^32 thread structures do not fit into the address space
of the server. -/
def VsEvent.Admitted (p : VsPcb) : VsEvent → Prop
  | .configNew _ _ => p.magic = false
  | .clone _ _ o => o.kmalloc = true → p.threads.length + 2 < 2 ^ 32
  | .release => True

instance (p : VsPcb) : (e : VsEvent) → Decidable (e.Admitted p)
  | .configNew _ _ => inferInstanceAs (Decidable (p.magic = false))
  | .clone _ _ o => inferInstanceAs (Decidable (o.kmalloc = true → p.threads.length + 2 < 2 ^ 32))
  | .release => inferInstanceAs (Decidable True)

/-- Assertions apart that are not about the address space: the process is there, there is memory
for the vector of its threads, and those of the scheduler hold. -/
def VsEvent.Goes (p : VsPcb) : VsEvent → Prop
  | .configNew _ o => o.vectorAdd = true
  | .clone _ _ o => p.magic = true ∧ o.vectorAdd = true ∧ o.registered = true
  | .release => p.magic = true

/-- While the process is there, its address space has one reference more than it has threads, and
it counts so many; otherwise there is no address space. Everything that was done with it so far was
done while it was there, it was released as soon as its last reference was dropped, and so once for
each time it was set up. No assertion about it fails in the next step. -/
structure VsPcb.Right (p : VsPcb) : Prop where
  life : life p.log = some (if p.magic then some (1 + p.threads.length) else none)
  count : p.magic = true → p.vspace.magic = true ∧ p.vspace.ref = 1 + p.threads.length
  once : p.log.count .create = p.log.count .destroy + p.magic.toNat
  returns : ∀ e : VsEvent, e.Admitted p → e.Goes p → ∃ q, vsStep p e = .ok q

/-! ## References -/

namespace VsPcb

variable {p q : VsPcb} {n : Nat}

/-- There are `n` references, and the address space counts so many; it is there if `n` is not 0. -/
structure HasRefs (p : VsPcb) (n : Nat) : Prop where
  life : Lib.life p.log = some (if n = 0 then none else some n)
  count : n ≠ 0 → p.vspace.magic = true ∧ p.vspace.ref = n

/-- The call returns and leads to `n` references; the rest of the control block stays. -/
def LeadsTo (x : Except Failure VsPcb) (p : VsPcb) (n : Nat) : Prop :=
  ∃ q, x = .ok q ∧ q.HasRefs n ∧ q.magic = p.magic ∧ q.threads = p.threads

namespace HasRefs

theorem life_succ (h : p.HasRefs (n + 1)) : Lib.life p.log = some (some (n + 1)) :=
  h.life.trans (by rw [if_neg (Nat.succ_ne_zero n)])

theorem use (h : p.HasRefs (n + 1)) : (p.did .use).HasRefs (n + 1) where
  life := by
    rw [did, life_snoc h.life_succ, if_neg (Nat.succ_ne_zero n)]
    rfl
  count := h.count

theorem ref (h : p.HasRefs (n + 1)) (hsmall : n + 2 < 2 ^ 32) : LeadsTo p.vsRef p (n + 2) := by
  obtain ⟨hmagic, href⟩ := h.count (Nat.succ_ne_zero n)
  have hinc : u32 (p.vspace.ref + 1) = n + 2 := by rw [href, u32_of_lt hsmall]
  rw [vsRef, hmagic, hinc]
  exact ⟨_, rfl, ⟨life_snoc h.life_succ .take, fun _ => ⟨hmagic, rfl⟩⟩, rfl, rfl⟩

/-- Whoever drops the last reference releases the address space. -/
theorem unref (h : p.HasRefs (n + 1)) (hsmall : n + 1 < 2 ^ 32) : LeadsTo p.vsUnref p n := by
  obtain ⟨hmagic, href⟩ := h.count (Nat.succ_ne_zero n)
  have hlog : Lib.life (p.log ++ [.drop]) = some (some n) := life_snoc h.life_succ .drop
  have hdec : u32 (p.vspace.ref + 2 ^ 32 - 1) = n := by
    rw [href]
    exact u32_sub (Nat.succ_pos n) hsmall
  rw [vsUnref, hmagic, hdec]
  cases n with
  | zero =>
      refine ⟨({ p with vspace := {}, log := p.log ++ [.drop] } : VsPcb).did .destroy, ?_,
        ⟨life_snoc hlog .destroy, fun hne => absurd rfl hne⟩, rfl, rfl⟩
      simp [did, vsRelease, hmagic]
  | succ n =>
      refine ⟨({ p with vspace := { p.vspace with ref := n + 1 } } : VsPcb).did .drop, ?_,
        ⟨hlog, fun _ => ⟨hmagic, rfl⟩⟩, rfl, rfl⟩
      simp [did]

theorem congr (h : p.HasRefs n) (hvspace : q.vspace = p.vspace) (hlog : q.log = p.log) :
    q.HasRefs n where
  life := hlog ▸ h.life
  count := hvspace ▸ h.count

theorem threadConfig (h : p.HasRefs (n + 1)) (hsmall : n + 2 < 2 ^ 32) (priority : Nat)
    {entryPoint : Nat} (hentry : entryPoint ≠ 0) (configure : Option Nat) :
    ∃ q, q.magic = p.magic ∧ q.threads = p.threads ∧
      match configure with
      | none => p.threadConfig priority entryPoint configure = .ok (.invalid, none, q) ∧
          q.HasRefs (n + 1)
      | some tcb => p.threadConfig priority entryPoint configure =
            .ok (.success, some { priority := priority, entryPoint := entryPoint, tcb := tcb }, q) ∧
          q.HasRefs (n + 2) := by
  obtain ⟨p₁, href, h₁, hmagic₁, hthreads₁⟩ := h.ref hsmall
  cases configure with
  | none =>
      obtain ⟨p₂, hunref, h₂, hmagic₂, hthreads₂⟩ := h₁.use.unref hsmall
      refine ⟨p₂, hmagic₂.trans hmagic₁, hthreads₂.trans hthreads₁, ?_, h₂⟩
      rw [VsPcb.threadConfig, if_neg hentry, href]
      exact bind_eq_ok_iff.2 ⟨p₁, rfl, bind_eq_ok_iff.2 ⟨p₂, hunref, rfl⟩⟩
  | some tcb =>
      refine ⟨p₁.did .use, hmagic₁, hthreads₁, ?_, h₁.use⟩
      rw [VsPcb.threadConfig, if_neg hentry, href]
      rfl

theorem threadRelease (h : p.HasRefs (n + 1)) (hsmall : n + 1 < 2 ^ 32) :
    LeadsTo p.threadRelease p n := h.use.unref hsmall

/-- The loop over the threads drops one reference for each of them. -/
theorem releaseAll (threads : List ProcTcb) (h : p.HasRefs threads.length)
    (hsmall : threads.length < 2 ^ 32) :
    LeadsTo (threads.foldlM (fun p _ => p.threadRelease) p) p 0 := by
  induction threads generalizing p with
  | nil => exact ⟨p, rfl, h, rfl, rfl⟩
  | cons t threads ih =>
      obtain ⟨p₁, hrelease, h₁, hmagic₁, hthreads₁⟩ := h.threadRelease hsmall
      obtain ⟨p₂, hrest, h₂, hmagic₂, hthreads₂⟩ := ih h₁ (Nat.lt_of_succ_lt hsmall)
      refine ⟨p₂, ?_, h₂, hmagic₂.trans hmagic₁, hthreads₂.trans hthreads₁⟩
      rw [List.foldlM_cons]
      exact bind_eq_ok_iff.2 ⟨p₁, hrelease, hrest⟩

/-- The exit stack of the configuration drops the reference of the process. -/
theorem configExit (h : p.HasRefs 1) (error : Err) :
    ∃ q : VsPcb, p.configExit error = .ok (error, q.clear) ∧ q.clear.HasRefs 0 := by
  obtain ⟨q, hunref, hq, _⟩ := h.unref (by decide)
  refine ⟨q, bind_eq_ok_iff.2 ⟨q, hunref, rfl⟩, hq.life, fun hne => absurd rfl hne⟩

end HasRefs

/-! ## The invariant -/

/-- A process has one reference more than it has threads, which start somewhere. -/
structure Ok (p : VsPcb) : Prop where
  refs : p.HasRefs (if p.magic then p.threads.length + 1 else 0)
  small : p.threads.length + 1 < 2 ^ 32
  entry : ∀ t ∈ p.threads, t.entryPoint ≠ 0

namespace Ok

theorem init : ({} : VsPcb).Ok where
  refs := ⟨rfl, fun hne => absurd rfl hne⟩
  small := by decide
  entry _ ht := nomatch ht

theorem clear (h : p.clear.HasRefs 0) : p.clear.Ok where
  refs := h
  small := show 0 + 1 < 2 ^ 32 by decide
  entry _ ht := nomatch ht

theorem right_refs (h : p.Ok) (hmagic : p.magic = true) : p.HasRefs (p.threads.length + 1) := by
  have hrefs := h.refs
  rwa [hmagic, if_pos rfl] at hrefs

theorem running (hrefs : p.HasRefs (p.threads.length + 1)) (hmagic : p.magic = true)
    (hsmall : p.threads.length + 1 < 2 ^ 32) (hentry : ∀ t ∈ p.threads, t.entryPoint ≠ 0) :
    p.Ok where
  refs := by rwa [hmagic, if_pos rfl]
  small := hsmall
  entry := hentry

theorem configNew (h : p.Ok) (hnew : p.magic = false) (priority : Nat) (o : ConfigOutcome) :
    (∃ r, p.procConfigNew priority o = .ok r ∧ r.2.Ok) ∨
      o.vectorAdd = false ∧ p.procConfigNew priority o = .error .assertion := by
  have hnone : Lib.life p.log = some none := by
    have hlife := h.refs.life
    rwa [hnew] at hlife
  rw [procConfigNew]
  by_cases hname : o.imageName = false
  · rw [if_pos hname]
    exact Or.inl ⟨_, rfl, h⟩
  rw [if_neg hname]
  by_cases hinit : o.vsInitialise = .success
  · obtain ⟨p₁, hp₁, h₁, hmagic₁⟩ : ∃ p₁,
        ({ p.clear with magic := true } : VsPcb).vsInitialise .success = p₁ ∧ p₁.HasRefs 1 ∧
          p₁.magic = true :=
      ⟨_, rfl, ⟨life_snoc hnone .create, fun _ => ⟨rfl, rfl⟩⟩, rfl⟩
    have hexit : ∀ {p₂ : VsPcb} (error : Err), p₂.HasRefs 1 →
        ∃ r, p₂.configExit error = .ok r ∧ r.2.Ok := fun error h₂ =>
      have ⟨_, heq, hrefs⟩ := h₂.configExit error
      ⟨_, heq, clear hrefs⟩
    rw [hinit, hp₁]
    dsimp only
    rw [if_neg (fun hne => hne rfl)]
    by_cases hkmalloc : o.kmalloc = false
    · rw [if_pos hkmalloc]
      exact Or.inl (hexit .nomem h₁)
    · rw [if_neg hkmalloc]
      by_cases helf : o.elfLoad = 0
      · rw [if_pos helf]
        exact Or.inl (hexit .invalidParam h₁.use)
      · rw [if_neg helf]
        obtain ⟨p₂, hmagic₂, _, hconfig⟩ :=
          h₁.use.threadConfig (by decide) priority helf o.configure
        cases hconfigure : o.configure with
        | none =>
            rw [hconfigure] at hconfig
            rw [hconfig.1]
            exact Or.inl (hexit .invalid hconfig.2)
        | some tcb =>
            rw [hconfigure] at hconfig
            rw [hconfig.1]
            by_cases hvector : o.vectorAdd = false
            · exact Or.inr ⟨hvector, if_pos hvector⟩
            · refine Or.inl ⟨_, if_neg hvector, running (hconfig.2.congr rfl rfl)
                (hmagic₂.trans hmagic₁) (by decide : 1 + 1 < 2 ^ 32) fun t ht => ?_⟩
              exact List.mem_singleton.1 ht ▸ helf
  · -- `vs_initialise` has failed, and there is nothing to release
    rw [if_pos hinit, vsInitialise, if_neg hinit]
    exact Or.inl ⟨_, rfl, clear ⟨hnone, fun hne => absurd rfl hne⟩⟩

theorem eraseIdx_concat (threads : List ProcTcb) (t : ProcTcb) :
    (threads ++ [t]).eraseIdx threads.length = threads := by
  rw [List.eraseIdx_append_of_length_le (Nat.le_refl _), Nat.sub_self]
  exact List.append_nil _

theorem push (hrefs : p.HasRefs (p.threads.length + 1 + 1)) (hmagic : p.magic = true)
    (hsmall : p.threads.length + 1 + 1 < 2 ^ 32) (hentry : ∀ t ∈ p.threads, t.entryPoint ≠ 0)
    {t : ProcTcb} (ht : t.entryPoint ≠ 0) :
    ({ p with threads := p.threads ++ [t] } : VsPcb).Ok := by
  have hlength : (p.threads ++ [t]).length = p.threads.length + 1 := List.length_append
  refine running ?_ hmagic ?_ fun t' ht' => ?_
  · rw [hlength]
    exact hrefs.congr rfl rfl
  · rw [hlength]
    exact hsmall
  · rcases List.mem_append.1 ht' with ht' | ht'
    · exact hentry t' ht'
    · exact List.mem_singleton.1 ht' ▸ ht

/-- A thread that leaves the list again: its reference is dropped. -/
theorem takeBack (hrefs : p.HasRefs (p.threads.length + 1 + 1)) (hmagic : p.magic = true)
    (hsmall : p.threads.length + 1 + 1 < 2 ^ 32) (hentry : ∀ t ∈ p.threads, t.entryPoint ≠ 0)
    (t : ProcTcb) :
    ∃ r, ({ p with threads := (p.threads ++ [t]).eraseIdx p.threads.length } :
      VsPcb).threadRelease = .ok r ∧ r.Ok := by
  obtain ⟨r, hrelease, hr, hmagicr, hthreadsr⟩ := hrefs.threadRelease hsmall
  have hmagicr := hmagicr.trans hmagic
  rw [← hthreadsr] at hr hsmall hentry
  rw [eraseIdx_concat]
  exact ⟨r, hrelease, running hr hmagicr (Nat.lt_of_succ_lt hsmall) hentry⟩

theorem clone (h : p.Ok) (stackAddr entryPoint : Nat) (o : CloneSteps)
    (hsmall : o.kmalloc = true → p.threads.length + 2 < 2 ^ 32) :
    (∃ r, p.procClone stackAddr entryPoint o = .ok r ∧ r.2.Ok) ∨
      (p.magic = false ∨ o.vectorAdd = false ∨ o.registered = false) ∧
        p.procClone stackAddr entryPoint o = .error .assertion := by
  rw [procClone]
  cases hmagic : p.magic with
  | false => exact Or.inr ⟨Or.inl rfl, rfl⟩
  | true =>
      rw [if_neg (by decide)]
      by_cases haddr : stackAddr = 0 ∨ entryPoint = 0
      · rw [if_pos haddr]
        exact Or.inl ⟨_, rfl, h⟩
      rw [if_neg haddr]
      cases hhead : p.threads.head? with
      | none => exact Or.inl ⟨_, rfl, h⟩
      | some t =>
          dsimp only
          rw [if_neg (h.entry t (List.mem_of_head? hhead))]
          cases hkmalloc : o.kmalloc with
          | false => exact Or.inl ⟨_, rfl, h⟩
          | true =>
              have hroom := hsmall hkmalloc
              have hentry : entryPoint ≠ 0 := fun hzero => haddr (Or.inr hzero)
              obtain ⟨q, hmagicq, hthreadsq, hconfig⟩ :=
                (h.right_refs hmagic).threadConfig hroom t.priority hentry o.configure
              rw [if_neg (by decide)]
              have hall := h.entry
              rw [← hthreadsq] at hroom hconfig hall
              have hmagicq := hmagicq.trans hmagic
              cases hconfigure : o.configure with
              | none =>
                  rw [hconfigure] at hconfig
                  rw [hconfig.1]
                  exact Or.inl ⟨_, rfl, running hconfig.2 hmagicq (Nat.lt_of_succ_lt hroom) hall⟩
              | some tcb =>
                  rw [hconfigure] at hconfig
                  rw [hconfig.1]
                  by_cases hvector : o.vectorAdd = false
                  · exact Or.inr ⟨Or.inr (Or.inl hvector), if_pos hvector⟩
                  by_cases hstart : o.start = false
                  · obtain ⟨r, hrelease, hr⟩ := takeBack hconfig.2 hmagicq hroom hall _
                    exact Or.inl ⟨(.invalid, r), (if_neg hvector).trans ((if_pos hstart).trans
                      (bind_eq_ok_iff.2 ⟨r, hrelease, rfl⟩)), hr⟩
                  by_cases hregistered : o.registered = false
                  · refine Or.inr ⟨Or.inr (Or.inr hregistered), (if_neg hvector).trans ?_⟩
                    exact (if_neg hstart).trans (if_pos hregistered)
                  · exact Or.inl ⟨_, (if_neg hvector).trans ((if_neg hstart).trans
                      (if_neg hregistered)), push hconfig.2 hmagicq hroom hall hentry⟩

/-- The process drops its reference first, and each of its threads one more. -/
theorem release (h : p.Ok) (hmagic : p.magic = true) :
    ∃ q, p.procRelease = .ok q ∧ q.Ok := by
  obtain ⟨p₁, hunref, h₁, _, hthreads₁⟩ := (h.right_refs hmagic).unref h.small
  rw [← hthreads₁] at h₁
  have hsmall := h.small
  rw [← hthreads₁] at hsmall
  obtain ⟨p₂, hloop, h₂, _⟩ := h₁.releaseAll p₁.threads (Nat.lt_of_succ_lt hsmall)
  refine ⟨{ p₂ with magic := false, threads := [] }, ?_, h₂.congr rfl rfl,
    (by decide : 0 + 1 < 2 ^ 32), fun t ht => nomatch ht⟩
  rw [procRelease, hmagic, if_neg (by decide), hunref]
  exact bind_eq_ok_iff.2 ⟨p₁, rfl, bind_eq_ok_iff.2 ⟨p₂, hloop, rfl⟩⟩

/-- An event keeps the invariant, or it ends the server with an assertion that is not about the
address space. -/
theorem step (h : p.Ok) (e : VsEvent) (hadm : e.Admitted p) :
    (∃ q, vsStep p e = .ok q ∧ q.Ok) ∨ ¬e.Goes p ∧ ∀ q, vsStep p e ≠ .ok q := by
  cases e with
  | configNew priority o =>
      rcases h.configNew hadm priority o with ⟨r, heq, hr⟩ | ⟨hvector, herr⟩
      · exact Or.inl ⟨r.2, bind_eq_ok_iff.2 ⟨r, heq, rfl⟩, hr⟩
      · refine Or.inr ⟨fun hgoes => Bool.false_ne_true (hvector.symm.trans hgoes), fun q hq => ?_⟩
        rw [vsStep, herr] at hq
        cases hq
  | clone stackAddr entryPoint o =>
      rcases h.clone stackAddr entryPoint o hadm with ⟨r, heq, hr⟩ | ⟨hfails, herr⟩
      · exact Or.inl ⟨r.2, bind_eq_ok_iff.2 ⟨r, heq, rfl⟩, hr⟩
      · refine Or.inr ⟨fun ⟨hmagic, hvector, hregistered⟩ => ?_, fun q hq => ?_⟩
        · simp [hmagic, hvector, hregistered] at hfails
        · rw [vsStep, herr] at hq
          cases hq
  | release =>
      cases hmagic : p.magic with
      | true => exact Or.inl (h.release hmagic)
      | false =>
          refine Or.inr ⟨fun hgoes => Bool.false_ne_true (hmagic.symm.trans hgoes), fun q hq => ?_⟩
          rw [vsStep, procRelease, hmagic] at hq
          cases hq

theorem right (h : p.Ok) : p.Right where
  life := by
    cases hmagic : p.magic with
    | false =>
        have hlife := h.refs.life
        rwa [hmagic] at hlife
    | true =>
        have hlife := (h.right_refs hmagic).life_succ
        rwa [Nat.add_comm] at hlife
  count hmagic := by
    rw [Nat.add_comm]
    exact (h.right_refs hmagic).count (Nat.succ_ne_zero _)
  once := by
    rw [life_count h.refs.life]
    cases p.magic <;> rfl
  returns e hadm hgoes := by
    rcases h.step e hadm with ⟨q, hq, _⟩ | ⟨hnot, _⟩
    · exact ⟨q, hq⟩
    · exact absurd hgoes hnot

end Ok

end VsPcb

/-- **The life of an address space.** In every history of a process, whichever steps of its
configuration and of the creation of its threads fail: as long as the process is there, its address
space has as many references as it has threads and one more; it is released when the last one is
dropped, once, and not touched after that. -/
theorem vspace_life_right (evs : List VsEvent) (p : VsPcb)
    (hrun : Run vsStep (fun p e => e.Admitted p) {} evs p) : p.Right := by
  refine (hrun.invariant (I := VsPcb.Ok) .init fun p e q h hadm hq => ?_).right
  rcases h.step e hadm with ⟨q', hq', hok⟩ | ⟨_, herr⟩
  · exact Except.ok.inj (hq'.symm.trans hq) ▸ hok
  · exact absurd hq (herr q)

/-- A process whose first configuration fails, with four threads asked for, of which one cannot be
configured and one not be started. -/
theorem vspace_life_right_four :
    ∃ p, Run vsStep (fun p e => e.Admitted p) {}
        [.configNew 100 ⟨true, .success, true, 4096, none, true⟩,
          .configNew 100 ⟨true, .success, true, 4096, some 7, true⟩,
          .clone 8192 4160 ⟨⟨true, none, true, true⟩, true⟩,
          .clone 8192 4160 ⟨⟨true, some 8, true, false⟩, true⟩,
          .clone 8192 4160 ⟨⟨true, some 8, true, true⟩, true⟩, .release] p ∧
      p.log.count .destroy = 2 ∧ p.Right := by
  obtain ⟨p, hrun, hcount⟩ : ∃ p, Run vsStep (fun p e => e.Admitted p) {}
      [.configNew 100 ⟨true, .success, true, 4096, none, true⟩,
        .configNew 100 ⟨true, .success, true, 4096, some 7, true⟩,
        .clone 8192 4160 ⟨⟨true, none, true, true⟩, true⟩,
        .clone 8192 4160 ⟨⟨true, some 8, true, false⟩, true⟩,
        .clone 8192 4160 ⟨⟨true, some 8, true, true⟩, true⟩, .release] p ∧
      p.log.count .destroy = 2 := by
    apply Run.exists_of_exec
    decide +kernel
  exact ⟨p, hrun, hcount, vspace_life_right _ p hrun⟩

end PartitionSeL4.Refos
