import PartitionSeL4.Refos.MemServ

/-!
# The process table

A PID is an id of a pool whose last one is `PID_MAX`, and an index of an array of `PID_MAX`
pointers. `pid_alloc` turns the last id down and does not give it back, so the pool hands it out
once, and from then on what is live in the pool below `PID_MAX` has a process control block
(`PidTable.Ok`). A client is known by the badge of its endpoint, which is its PID on top of a base;
liveness capabilities, windows and dataspaces have the badges above.

`process_table_right` is about runs of `pid_alloc`, whether or not there is memory, and of
`pid_free` with any PID. A run is paired with the PIDs that are live: returned by the one and not
freed by the other.
-/

namespace PartitionSeL4.Refos

open Lib

variable {α : Type}

/-! ## `badge.h` -/

/-- `PID_START` -/
def pidStart : Nat := 1

/-- `PID_MAX` -/
def pidMax : Nat := 2048

/-- `PID_NULL` -/
def pidNull : Nat := 0

/-- `PID_BADGE_BASE` -/
def pidBadgeBase : Nat := 3

/-- `PID_BADGE_END` -/
def pidBadgeEnd : Nat := pidBadgeBase + pidMax

/-- `PID_LIVENESS_BADGE_BASE` -/
def pidLivenessBadgeBase : Nat := pidBadgeEnd

/-- `PID_LIVENESS_BADGE_END` -/
def pidLivenessBadgeEnd : Nat := pidLivenessBadgeBase + pidMax

/-- `W_BADGE_BASE` -/
def wBadgeBase : Nat := pidLivenessBadgeEnd

/-- `W_BADGE_END` -/
def wBadgeEnd : Nat := wBadgeBase + wMaxWindows

/-- `RAM_DATASPACE_BADGE_BASE` -/
def ramDataspaceBadgeBase : Nat := wBadgeEnd

/-- The kinds of capabilities that are not a process's own. -/
inductive BadgeKind where
  | liveness
  | window
  | dataspace
  deriving DecidableEq, Repr

/-- The badge minted for an id. -/
def BadgeKind.badge : BadgeKind → Nat → Nat
  | .liveness, pid => pid + pidLivenessBadgeBase
  | .window, id => wBadgeBase + id
  | .dataspace, id => ramDataspaceBadgeBase + id

/-- The last id of the kind's table. -/
def BadgeKind.last : BadgeKind → Nat
  | .liveness => pidMax
  | .window => wMaxWindows
  | .dataspace => ramDataspaceMaxNumDataspace

/-! ## `pid.c` -/

/-- `struct pid_list`, with any type of pointers to process control blocks. -/
structure PidList (α : Type) where
  pids : Cpool
  pcbs : Nat → Option α

/-- `pid_init` -/
def pidInit : PidList α where
  pids := .init pidStart pidMax
  pcbs _ := none

/-- `pid_alloc`, with what `kmalloc` returns. -/
def pidAlloc (p : PidList α) (kmalloc : Option α) : Except Failure (Nat × PidList α) :=
  let (pid, pids) := p.pids.alloc.getD (0, p.pids)
  if pid < pidStart ∨ pidMax ≤ pid then .ok (pidNull, { p with pids := pids })
  else if (p.pcbs pid).isSome then .error .assertion
  else
    match kmalloc with
    | none => .ok (pidNull, { p with pids := pids.free pid })
    | some pcb => .ok (pid, { pids := pids, pcbs := Function.update p.pcbs pid (some pcb) })

/-- `pid_free` -/
def pidFree (p : PidList α) (pid : Nat) : PidList α :=
  if pid < pidStart ∨ pidMax ≤ pid then p
  else if (p.pcbs pid).isNone then p
  else { pids := p.pids.free pid, pcbs := Function.update p.pcbs pid none }

/-- `pid_get_pcb` -/
def pidGetPcb (p : PidList α) (pid : Nat) : Option α :=
  if pid < pidStart ∨ pidMax ≤ pid then none else p.pcbs pid

/-- `pid_get_badge` -/
def pidGetBadge (pid : Nat) : Except Failure Nat :=
  if pid < pidStart ∨ pidMax ≤ pid then .error .assertion else .ok (pid + pidBadgeBase)

/-- `pid_get_pcb_from_badge` -/
def pidGetPcbFromBadge (p : PidList α) (badge : Nat) : Option α :=
  if badge < pidBadgeBase then none else pidGetPcb p (badge - pidBadgeBase)

/-- `dispatcher_badge_PID` -/
def dispatcherBadgePID (badge : Nat) : Bool := pidBadgeBase ≤ badge ∧ badge < pidBadgeEnd

/-- The client of a message, as `check_dispatch_interface` looks it up. -/
def clientOfBadge (p : PidList α) (badge : Nat) : Option α :=
  if dispatcherBadgePID badge then pidGetPcbFromBadge p badge else none

/-! ## Runs -/

/-- The process table and the live PIDs. -/
structure PidTable (α : Type) where
  list : PidList α
  live : List Nat

inductive PidEvent (α : Type) where
  | alloc (kmalloc : Option α)
  | free (pid : Nat)

/-- One call. -/
def pidStep (x : PidTable α) : PidEvent α → Except Failure (PidTable α)
  | .alloc kmalloc => do
      let (pid, list) ← pidAlloc x.list kmalloc
      return { list := list, live := if pid = pidNull then x.live else x.live ++ [pid] }
  | .free pid => .ok { list := pidFree x.list pid, live := x.live.erase pid }

/-- Live PIDs are distinct and in range, and they are those with a control block; no call fails an
assertion; the badge of a PID leads back to its control block, and a badge of another kind leads to
none. -/
structure PidTable.Right (x : PidTable α) : Prop where
  distinct : x.live.Nodup
  range : ∀ pid ∈ x.live, pidStart ≤ pid ∧ pid < pidMax
  pcb : ∀ pid, (pidGetPcb x.list pid).isSome ↔ pid ∈ x.live
  returns : ∀ e, ∃ y, pidStep x e = .ok y
  badge : ∀ pid, pidStart ≤ pid → pid < pidMax → ∃ badge, pidGetBadge pid = .ok badge ∧
    pidGetPcbFromBadge x.list badge = pidGetPcb x.list pid ∧
    clientOfBadge x.list badge = pidGetPcb x.list pid
  others : ∀ (kind : BadgeKind) id, id ≤ kind.last → clientOfBadge x.list (kind.badge id) = none

/-! ## Badges -/

theorem pidGetBadge_eq {pid : Nat} (hstart : pidStart ≤ pid) (hmax : pid < pidMax) :
    pidGetBadge pid = .ok (pid + pidBadgeBase) := if_neg (by omega)

theorem pidGetPcbFromBadge_badge (p : PidList α) (pid : Nat) :
    pidGetPcbFromBadge p (pid + pidBadgeBase) = pidGetPcb p pid := by
  rw [pidGetPcbFromBadge, if_neg (by omega), Nat.add_sub_cancel]

theorem dispatcherBadgePID_badge {pid : Nat} (hmax : pid < pidMax) :
    dispatcherBadgePID (pid + pidBadgeBase) = true := by
  rw [dispatcherBadgePID, decide_eq_true_eq, pidBadgeEnd]
  omega

theorem pidBadgeEnd_le_badge (kind : BadgeKind) (id : Nat) : pidBadgeEnd ≤ kind.badge id := by
  cases kind with
  | liveness => exact Nat.le_add_left _ _
  | window =>
      simp only [BadgeKind.badge, wBadgeBase, pidLivenessBadgeEnd, pidLivenessBadgeBase]
      omega
  | dataspace =>
      simp only [BadgeKind.badge, ramDataspaceBadgeBase, wBadgeEnd, wBadgeBase,
        pidLivenessBadgeEnd, pidLivenessBadgeBase]
      omega

theorem clientOfBadge_other (p : PidList α) (kind : BadgeKind) (id : Nat) :
    clientOfBadge p (kind.badge id) = none := by
  have hend := pidBadgeEnd_le_badge kind id
  refine if_neg ?_
  rw [dispatcherBadgePID, decide_eq_true_eq]
  omega

/-! ## The invariant -/

/-- The live PIDs are those with a control block, and those below `PID_MAX` that the pool has handed
out. -/
structure PidTable.Ok (x : PidTable α) : Prop where
  pool : x.list.pids.Ok
  start_eq : x.list.pids.start = pidStart
  stop_eq : x.list.pids.stop = pidMax
  distinct : x.live.Nodup
  range : ∀ pid ∈ x.live, pidStart ≤ pid ∧ pid < pidMax
  pcbs : ∀ pid, (x.list.pcbs pid).isSome ↔ pid ∈ x.live
  pids : ∀ pid, pid < pidMax → (x.list.pids.Live pid ↔ pid ∈ x.live)

namespace PidTable.Ok

variable {x y : PidTable α}

theorem init : (⟨pidInit, []⟩ : PidTable α).Ok where
  pool := .init (by decide) (by decide)
  start_eq := rfl
  stop_eq := rfl
  distinct := List.nodup_nil
  range pid h := by cases h
  pcbs pid := by simp [pidInit]
  pids pid _ := by
    simp only [pidInit, Cpool.init, Cpool.Live, List.not_mem_nil, iff_false]
    omega

/-- Another state of the pool, in which the same PIDs below `PID_MAX` are live. -/
theorem setPids (h : x.Ok) {pids : Cpool} (hpool : pids.Ok) (hstart : pids.start = pidStart)
    (hstop : pids.stop = pidMax)
    (hlive : ∀ pid, pid < pidMax → (pids.Live pid ↔ x.list.pids.Live pid)) :
    (⟨{ x.list with pids := pids }, x.live⟩ : PidTable α).Ok :=
  ⟨hpool, hstart, hstop, h.distinct, h.range, h.pcbs, fun pid hpid =>
    (hlive pid hpid).trans (h.pids pid hpid)⟩

theorem push (h : x.Ok) {pid : Nat} {pids : Cpool} (pcb : α) (hpid : pidStart ≤ pid ∧ pid < pidMax)
    (hnew : pid ∉ x.live) (hpool : pids.Ok) (hstart : pids.start = pidStart)
    (hstop : pids.stop = pidMax) (hlive : ∀ i, pids.Live i ↔ i = pid ∨ x.list.pids.Live i) :
    (⟨{ pids := pids, pcbs := Function.update x.list.pcbs pid (some pcb) },
      x.live ++ [pid]⟩ : PidTable α).Ok := by
  refine ⟨hpool, hstart, hstop, ?_, fun i hi => ?_, fun i => ?_, fun i hi => ?_⟩
  · rw [← List.concat_eq_append]
    exact h.distinct.concat hnew
  · rcases List.mem_append.1 hi with hi | hi
    · exact h.range i hi
    · exact List.mem_singleton.1 hi ▸ hpid
  · by_cases heq : i = pid <;> simp [heq, h.pcbs]
  · show pids.Live i ↔ _
    rw [hlive, h.pids i hi, List.mem_append, List.mem_singleton, or_comm]

theorem alloc (h : x.Ok) (kmalloc : Option α) :
    ∃ y, pidStep x (.alloc kmalloc) = .ok y ∧ y.Ok := by
  cases halloc : x.list.pids.alloc with
  | none =>
      refine ⟨x, ?_, h⟩
      simp only [pidStep, pidAlloc, halloc, Option.getD_none]
      rfl
  | some new =>
      obtain ⟨pid, pids⟩ := new
      obtain ⟨hpool, hstart, hstop, hnot, hrange, hlive⟩ := h.pool.alloc halloc
      rw [h.start_eq] at hstart hrange
      rw [h.stop_eq] at hstop hrange
      by_cases hlast : pidMax ≤ pid
      · -- the id `PID_MAX`
        refine ⟨⟨{ x.list with pids := pids }, x.live⟩, ?_, h.setPids hpool hstart hstop
          fun i hi => ?_⟩
        · simp only [pidStep, pidAlloc, halloc, Option.getD_some, hlast, or_true, if_true]
          rfl
        · rw [hlive]
          exact or_iff_right (by omega)
      · have hnew : pid ∉ x.live := by
          rwa [← h.pids pid (by omega)]
        have hfree : (x.list.pcbs pid).isSome = false := by
          rw [← Bool.not_eq_true, h.pcbs]
          exact hnew
        have hout : ¬(pid < pidStart ∨ pidMax ≤ pid) := by omega
        cases kmalloc with
        | none =>
            obtain ⟨hpool', hstart', hstop', hlive'⟩ := hpool.free ((hlive pid).2 (Or.inl rfl))
            refine ⟨⟨{ x.list with pids := pids.free pid }, x.live⟩, ?_,
              h.setPids hpool' (hstart'.trans hstart) (hstop'.trans hstop) fun i hi => ?_⟩
            · simp only [pidStep, pidAlloc, halloc, Option.getD_some, hout, if_false, hfree]
              rfl
            · rw [hlive', hlive]
              refine ⟨fun hi => hi.2.resolve_left hi.1, fun hi => ⟨?_, Or.inr hi⟩⟩
              rintro rfl
              exact hnot hi
        | some pcb =>
            have hne : pid ≠ pidNull := by
              have : pidStart = 1 := rfl
              have : pidNull = 0 := rfl
              omega
            refine ⟨⟨{ pids := pids, pcbs := Function.update x.list.pcbs pid (some pcb) },
              x.live ++ [pid]⟩, ?_, h.push pcb (by omega) hnew hpool hstart hstop hlive⟩
            simp only [pidStep, pidAlloc, halloc, Option.getD_some, hout, if_false, hfree,
              Bool.false_eq_true, bind, Except.bind, hne]
            rfl

theorem free (h : x.Ok) (pid : Nat) : (⟨pidFree x.list pid, x.live.erase pid⟩ : PidTable α).Ok := by
  by_cases hmem : pid ∈ x.live
  · have hrange := h.range pid hmem
    have hpcb := (h.pcbs pid).2 hmem
    obtain ⟨hpool, hstart, hstop, hlive⟩ := h.pool.free ((h.pids pid hrange.2).2 hmem)
    rw [pidFree, if_neg (by omega), if_neg (by simpa [Option.isSome_iff_ne_none] using hpcb)]
    refine ⟨hpool, hstart.trans h.start_eq, hstop.trans h.stop_eq, h.distinct.erase pid,
      fun i hi => h.range i (List.mem_of_mem_erase hi), fun i => ?_, fun i hi => ?_⟩
    · rw [h.distinct.mem_erase_iff, ← h.pcbs]
      by_cases heq : i = pid <;> simp [heq]
    · show (x.list.pids.free pid).Live i ↔ _
      rw [hlive, h.distinct.mem_erase_iff, h.pids i hi]
  · have hsame : pidFree x.list pid = x.list := by
      have hnone := Option.not_isSome_iff_eq_none.1 (mt (h.pcbs pid).1 hmem)
      rw [pidFree, hnone]
      exact ite_self _
    rw [hsame, List.erase_of_not_mem hmem]
    exact h

theorem right (h : x.Ok) : x.Right where
  distinct := h.distinct
  range := h.range
  pcb pid := by
    rw [pidGetPcb]
    split_ifs with hout
    · refine iff_of_false (by simp) fun hmem => ?_
      have := h.range pid hmem
      omega
    · exact h.pcbs pid
  returns e := by
    cases e with
    | alloc kmalloc =>
        obtain ⟨y, hy, _⟩ := h.alloc kmalloc
        exact ⟨y, hy⟩
    | free pid => exact ⟨_, rfl⟩
  badge pid hstart hmax := by
    refine ⟨_, pidGetBadge_eq hstart hmax, pidGetPcbFromBadge_badge _ _, ?_⟩
    rw [clientOfBadge, dispatcherBadgePID_badge hmax, if_pos rfl, pidGetPcbFromBadge_badge]
  others kind id _ := clientOfBadge_other x.list kind id

end PidTable.Ok

/-- **The process table.** In every run of `pid_alloc` and of `pid_free` with any PIDs: live PIDs
are distinct and in range, and they are those that have a process control block; no call fails an
assertion; the badge of a PID in range leads to what the PID does, and the badges of liveness
capabilities, windows and dataspaces are no client's. -/
theorem process_table_right (evs : List (PidEvent α)) (x : PidTable α)
    (hrun : Run pidStep (fun _ _ => True) ⟨pidInit, []⟩ evs x) : x.Right := by
  refine (hrun.invariant (I := PidTable.Ok) .init fun t e u h _ hu => ?_).right
  cases e with
  | alloc kmalloc =>
      obtain ⟨y, hy, hok⟩ := h.alloc kmalloc
      exact Except.ok.inj (hy.symm.trans hu) ▸ hok
  | free pid => exact Except.ok.inj hu ▸ h.free pid

/-- Two processes; the first one is freed twice, an allocation fails, and the PID is used again. -/
theorem process_table_right_reused :
    ∃ x, Run pidStep (fun _ _ => True) ⟨pidInit, []⟩
        [.alloc (some 'a'), .alloc (some 'b'), .free 1, .free 1, .free 4000, .alloc none,
          .alloc (some 'c')] x ∧
      x.live = [2, 1] ∧ x.Right := by
  obtain ⟨x, hrun, hlive⟩ : ∃ x, Run pidStep (fun _ _ => True) ⟨pidInit, []⟩
      [.alloc (some 'a'), .alloc (some 'b'), .free 1, .free 1, .free 4000, .alloc none,
        .alloc (some 'c')] x ∧ x.live = [2, 1] := by
    apply Run.exists_of_exec
    decide +kernel
  exact ⟨x, hrun, hlive, process_table_right _ x hrun⟩

end PartitionSeL4.Refos
