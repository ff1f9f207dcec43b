import PartitionSeL4.Refos.DataStruct
import PartitionSeL4.Lib.Run

/-!
# `device_input.c`: the input of the console server

A character typed goes to the backlog, a queue of two from which the oldest character is pruned when
it is full. A `getc` takes the oldest character; a blocking one that finds none is blocked, its
reply capability saved in a list of waiters. An interrupt pushes all characters there are and then
answers the waiters in order, as long as the backlog lasts.

`input_stream` is what a run amounts to: the characters typed are those that have left the backlog,
in this order, followed by those in it, and the callers blocked so far are those answered, in this
order, followed by those that wait. It rests on `serial_getc_handler` being able to save its caller.
Where it is not, it does not reply all the same, and the caller is not in the list.
-/

namespace PartitionSeL4.Refos

open Lib

/-- `CONSERV_DEVICE_INPUT_BACKLOG_MAXSIZE` -/
def conservDeviceInputBacklogMaxsize : Nat := 2

/-- `INPUT_WAITERTYPE_GETC` and `INPUT_WAITERTYPE_READ` -/
inductive InputWaiterType where
  | getc
  | read
  deriving DecidableEq, Repr

/-- `struct input_waiter`. A reply capability stands for the caller it answers. -/
structure InputWaiter where
  reply : Nat
  client : Nat
  type : InputWaiterType
  deriving DecidableEq, Repr

/-- How a character leaves the backlog. -/
inductive Departure where
  /-- Pruned, from a backlog with these characters. -/
  | dropped (c : Int) (held : List Int)
  /-- The result of a `getc`, or the answer to a waiter. -/
  | delivered (c : Int) (waiter : Option InputWaiter)
  deriving DecidableEq, Repr

/-- `struct input_state`, with what has happened so far. -/
structure InputState where
  inputBacklog : Cqueue Int
  waiterList : List InputWaiter
  /-- The characters typed. -/
  typed : List Int
  /-- The characters that have left the backlog. -/
  gone : List Departure
  /-- The number of calls that were not replied to at once. -/
  calls : Nat
  /-- Those of them that are not answered yet. -/
  blocked : List Nat

/-- `input_init`, on a queue with some contents. -/
def inputInit (data : Nat → Int) : InputState where
  inputBacklog := .init data conservDeviceInputBacklogMaxsize
  waiterList := []
  typed := []
  gone := []
  calls := 0
  blocked := []

/-- The loop of `input_push_char` that prunes the backlog. It pops as many times as there are
characters at most. -/
def pruneBacklog : Nat → InputState → Except Failure InputState
  | 0, s => .ok s
  | n + 1, s =>
      if conservDeviceInputBacklogMaxsize ≤ s.inputBacklog.count then do
        let (item, inputBacklog) ← s.inputBacklog.pop
        pruneBacklog n { s with
          inputBacklog := inputBacklog
          gone := s.gone ++ [.dropped (item.getD 0) s.inputBacklog.items] }
      else .ok s

/-- `input_push_char` -/
def inputPushChar (s : InputState) (c : Int) : Except Failure InputState := do
  let s ← pruneBacklog s.inputBacklog.count s
  return { s with
    inputBacklog := (s.inputBacklog.push c).2
    typed := s.typed ++ [c] }

/-- The loop of `input_handle_irq` over the waiters. It deletes the waiter that it has answered, so
its index stays 0. -/
def notifyWaiters : List InputWaiter → InputState → Except Failure InputState
  | [], s => .ok { s with waiterList := [] }
  | waiter :: waiters, s =>
      if s.inputBacklog.count ≤ 0 then .ok { s with waiterList := waiter :: waiters }
      else
        match waiter.type with
        | .getc => do
            let (ch, inputBacklog) ← s.inputBacklog.pop
            notifyWaiters waiters { s with
              inputBacklog := inputBacklog
              gone := s.gone ++ [.delivered (ch.getD 0) (some waiter)]
              blocked := s.blocked.erase waiter.reply }
        | .read => .error .assertion

/-- `input_handle_irq`, for the characters that the devices have. -/
def inputHandleIrq (s : InputState) (chars : List Int) : Except Failure InputState := do
  let s ← chars.foldlM inputPushChar s
  notifyWaiters s.waiterList s

/-- The loop of `input_read`: the characters read. -/
def inputRead : Nat → InputState → Except Failure (List Int × InputState)
  | 0, s => .ok ([], s)
  | count + 1, s =>
      if s.inputBacklog.count > 0 then do
        let (c, inputBacklog) ← s.inputBacklog.pop
        let (dest, s) ← inputRead count { s with
          inputBacklog := inputBacklog
          gone := s.gone ++ [.delivered (c.getD 0) none] }
        return (c.getD 0 :: dest, s)
      else .ok ([], s)

/-- Which of the steps of `input_save_caller_as_waiter` succeed. `malloc` takes in the growth of the
list's vector, which ends in an assertion where it fails. -/
structure SaveOutcome where
  malloc : Bool
  cslot : Bool
  saveCaller : Bool
  deriving DecidableEq, Repr

def SaveOutcome.saved (o : SaveOutcome) : Bool := o.malloc && o.cslot && o.saveCaller

/-- `input_save_caller_as_waiter`, for the caller with the given number. -/
def inputSaveCallerAsWaiter (s : InputState) (reply client : Nat) (type : InputWaiterType)
    (o : SaveOutcome) : InputState :=
  if o.saved then
    { s with waiterList := s.waiterList ++ [{ reply := reply, client := client, type := type }] }
  else s

/-- `serial_getc_handler`: the character returned, or `none` where the reply is skipped. -/
def serialGetcHandler (s : InputState) (client : Nat) (block : Bool) (o : SaveOutcome) :
    Except Failure (Option Int × InputState) := do
  let (read, s) ← inputRead 1 s
  match read with
  | ch :: _ => return (some ch, s)
  | [] =>
      if block then
        return (none, inputSaveCallerAsWaiter
          { s with calls := s.calls + 1, blocked := s.blocked ++ [s.calls] } s.calls client .getc o)
      else return (some (-1), s)

/-- Interrupts and calls. -/
inductive InputEvent where
  | irq (chars : List Int)
  | getc (client : Nat) (block : Bool) (o : SaveOutcome)
  deriving DecidableEq, Repr

/-- The effect of an event. -/
def inputStep (s : InputState) : InputEvent → Except Failure InputState
  | .irq chars => inputHandleIrq s chars
  | .getc client block o => do
      let (_, s) ← serialGetcHandler s client block o
      return s

/-- A caller that has to be blocked can be saved. -/
def InputState.CanSave (s : InputState) : InputEvent → Prop
  | .irq _ => True
  | .getc _ block o => block = true → s.inputBacklog.count = 0 → o.saved = true

instance (s : InputState) : (e : InputEvent) → Decidable (s.CanSave e)
  | .irq _ => inferInstanceAs (Decidable True)
  | .getc _ _ _ => inferInstanceAs (Decidable (_ → _ → _))

/-! ## The stream -/

/-- The character that left. -/
def Departure.char : Departure → Int
  | .dropped c _ | .delivered c _ => c

/-- The characters delivered, in the order of delivery. -/
def InputState.delivered (s : InputState) : List Int :=
  s.gone.filterMap fun
    | .dropped _ _ => none
    | .delivered c _ => some c

/-- The callers answered after they were blocked, in the order of the answers. -/
def InputState.answered (s : InputState) : List Nat :=
  s.gone.filterMap fun
    | .delivered _ (some waiter) => some waiter.reply
    | _ => none

/-- The characters delivered are the characters typed, but for those pruned and those in the
backlog; the callers answered are the first that were blocked; and no caller is blocked while there
is a character for it. -/
structure InputState.StreamKept (s : InputState) : Prop where
  typed_eq : s.typed = s.gone.map Departure.char ++ s.inputBacklog.items
  delivered_sublist : s.delivered.Sublist s.typed
  dropped : ∀ c held, .dropped c held ∈ s.gone →
    held.length = conservDeviceInputBacklogMaxsize ∧ held.head? = some c
  answered_eq : s.answered ++ s.blocked = List.range s.calls
  idle : s.inputBacklog.items = [] ∨ s.blocked = []

/-- The invariant, within an interrupt: `waiters` are those that are left. -/
structure InputState.Ok (s : InputState) (waiters : List InputWaiter) : Prop where
  queue : s.inputBacklog.Ok
  maxSize_eq : s.inputBacklog.maxSize = conservDeviceInputBacklogMaxsize
  typed_eq : s.typed = s.gone.map Departure.char ++ s.inputBacklog.items
  dropped : ∀ c held, .dropped c held ∈ s.gone →
    held.length = conservDeviceInputBacklogMaxsize ∧ held.head? = some c
  getc : ∀ waiter ∈ waiters, waiter.type = .getc
  blocked_eq : s.blocked = waiters.map InputWaiter.reply
  answered_eq : s.answered ++ s.blocked = List.range s.calls

/-- The invariant between two events. -/
def InputState.AtRest (s : InputState) : Prop :=
  s.Ok s.waiterList ∧ (s.inputBacklog.items = [] ∨ s.blocked = [])

namespace InputState.Ok

variable {s : InputState} {waiters : List InputWaiter}

theorem init (data : Nat → Int) : (inputInit data).Ok [] where
  queue := .init data (by decide)
  maxSize_eq := rfl
  typed_eq := rfl
  dropped c held h := by simp [inputInit] at h
  getc := by simp
  blocked_eq := rfl
  answered_eq := rfl

theorem drop {c : Int} {q : Cqueue Int} (h : s.Ok waiters) (hq : q.Ok)
    (hmax : q.maxSize = s.inputBacklog.maxSize) (hitems : s.inputBacklog.items = c :: q.items)
    (hfull : conservDeviceInputBacklogMaxsize ≤ s.inputBacklog.count) :
    Ok { s with
      inputBacklog := q
      gone := s.gone ++ [.dropped c s.inputBacklog.items] } waiters where
  queue := hq
  maxSize_eq := hmax.trans h.maxSize_eq
  typed_eq := by simp [h.typed_eq, hitems, Departure.char]
  dropped c' held hmem := by
    rcases List.mem_append.1 hmem with hmem | hmem
    · exact h.dropped c' held hmem
    · obtain ⟨rfl, rfl⟩ := Departure.dropped.inj (List.mem_singleton.1 hmem)
      have hle := h.queue.count_le
      have hmax := h.maxSize_eq
      refine ⟨?_, by rw [hitems, List.head?_cons]⟩
      rw [Cqueue.length_items]
      omega
  getc := h.getc
  blocked_eq := h.blocked_eq
  answered_eq := by simpa [answered] using h.answered_eq

theorem pruneBacklog {n : Nat} (h : s.Ok waiters) (hn : s.inputBacklog.count ≤ n) :
    ∃ s', pruneBacklog n s = .ok s' ∧ s'.Ok waiters ∧ s'.waiterList = s.waiterList ∧
      s'.inputBacklog.count < conservDeviceInputBacklogMaxsize := by
  induction n generalizing s with
  | zero => exact ⟨s, rfl, h, rfl, by rw [Nat.le_zero.1 hn]; decide⟩
  | succ n ih =>
      rw [Refos.pruneBacklog]
      split_ifs with hfull
      · have hpos : 0 < s.inputBacklog.count := Nat.lt_of_lt_of_le (by decide) hfull
        obtain ⟨c, q, hpop, hq, hitems, hmax, hcount⟩ := h.queue.pop hpos
        obtain ⟨s', hs', hok, hlist, hlt⟩ := ih (h.drop hq hmax hitems hfull) (by simp only; omega)
        refine ⟨s', ?_, hok, hlist, hlt⟩
        rw [hpop]
        exact hs'
      · exact ⟨s, rfl, h, rfl, by omega⟩

theorem pushChar (h : s.Ok waiters) (c : Int) :
    ∃ s', inputPushChar s c = .ok s' ∧ s'.Ok waiters ∧ s'.waiterList = s.waiterList := by
  obtain ⟨s₁, hs₁, hok, hlist, hlt⟩ := h.pruneBacklog (Nat.le_refl _)
  have hroom : s₁.inputBacklog.count < s₁.inputBacklog.maxSize := by
    rw [hok.maxSize_eq]
    exact hlt
  obtain ⟨hq, hitems, hmax⟩ := hok.queue.push hroom c
  refine ⟨{ s₁ with
      inputBacklog := (s₁.inputBacklog.push c).2
      typed := s₁.typed ++ [c] }, ?_, ⟨hq, hmax.trans hok.maxSize_eq, ?_, hok.dropped, hok.getc,
    hok.blocked_eq, hok.answered_eq⟩, hlist⟩
  · rw [inputPushChar, hs₁]
    rfl
  · simp only [hitems, hok.typed_eq, List.append_assoc]

/-- The oldest character is delivered: to a `getc`, or to the first waiter. -/
theorem deliver {c : Int} {q : Cqueue Int} (h : s.Ok waiters) (hq : q.Ok)
    (hmax : q.maxSize = s.inputBacklog.maxSize) (hitems : s.inputBacklog.items = c :: q.items) :
    Ok { s with
      inputBacklog := q
      gone := s.gone ++ [.delivered c none] } waiters where
  queue := hq
  maxSize_eq := hmax.trans h.maxSize_eq
  typed_eq := by simp [h.typed_eq, hitems, Departure.char]
  dropped c' held hmem := h.dropped c' held (by simpa using hmem)
  getc := h.getc
  blocked_eq := h.blocked_eq
  answered_eq := by simpa [answered] using h.answered_eq

theorem answer {waiter : InputWaiter} {c : Int} {q : Cqueue Int} (h : s.Ok (waiter :: waiters))
    (hq : q.Ok) (hmax : q.maxSize = s.inputBacklog.maxSize)
    (hitems : s.inputBacklog.items = c :: q.items) :
    Ok { s with
      inputBacklog := q
      gone := s.gone ++ [.delivered c (some waiter)]
      blocked := s.blocked.erase waiter.reply } waiters where
  queue := hq
  maxSize_eq := hmax.trans h.maxSize_eq
  typed_eq := by simp [h.typed_eq, hitems, Departure.char]
  dropped c' held hmem := h.dropped c' held (by simpa using hmem)
  getc waiter' hmem := h.getc waiter' (List.mem_cons_of_mem _ hmem)
  blocked_eq := by simp [h.blocked_eq]
  answered_eq := by simpa [answered, h.blocked_eq] using h.answered_eq

/-- The waiters are answered until there are none, or no characters. -/
theorem notifyWaiters (h : s.Ok waiters) :
    ∃ s', notifyWaiters waiters s = .ok s' ∧ s'.Ok s'.waiterList ∧
      (s'.inputBacklog.items = [] ∨ s'.blocked = []) := by
  induction waiters generalizing s with
  | nil =>
      refine ⟨{ s with waiterList := [] }, rfl, ⟨h.queue, h.maxSize_eq, h.typed_eq, h.dropped,
        h.getc, h.blocked_eq, h.answered_eq⟩, Or.inr h.blocked_eq⟩
  | cons waiter waiters ih =>
      rw [Refos.notifyWaiters]
      split_ifs with hempty
      · refine ⟨_, rfl, ⟨h.queue, h.maxSize_eq, h.typed_eq, h.dropped, h.getc, h.blocked_eq,
          h.answered_eq⟩, Or.inl ?_⟩
        exact Cqueue.items_eq_nil_iff.2 (Nat.le_zero.1 hempty)
      · obtain ⟨c, q, hpop, hq, hitems, hmax, _⟩ := h.queue.pop (Nat.not_le.1 hempty)
        obtain ⟨s', hs', hrest⟩ := ih (h.answer hq hmax hitems)
        refine ⟨s', ?_, hrest⟩
        rw [h.getc waiter (List.mem_cons_self), hpop]
        exact hs'

theorem handleIrq (h : s.Ok s.waiterList) (chars : List Int) :
    ∃ s', inputHandleIrq s chars = .ok s' ∧ s'.AtRest := by
  obtain ⟨s₁, hs₁, hok, hlist, _⟩ := foldlM_rounds (f := inputPushChar)
    (I := fun t => t.Ok s.waiterList) (R := fun t u => u.waiterList = t.waiterList)
    (Q := fun _ _ => True) (fun _ _ => rfl) (fun _ _ _ h₁ h₂ => h₂.trans h₁)
    (fun t c ht => by
      obtain ⟨u, hu, hok, hlist⟩ := ht.pushChar c
      exact ⟨u, hu, hok, hlist, trivial⟩)
    (fun _ _ _ _ _ => trivial) chars h
  obtain ⟨s', hs', hrest⟩ := hok.notifyWaiters
  refine ⟨s', ?_, hrest⟩
  rw [inputHandleIrq, hs₁]
  show Refos.notifyWaiters s₁.waiterList s₁ = _
  rw [hlist]
  exact hs'

theorem block (h : s.Ok s.waiterList) (client : Nat) :
    Ok { s with
      calls := s.calls + 1
      blocked := s.blocked ++ [s.calls]
      waiterList := s.waiterList ++ [{ reply := s.calls, client := client, type := .getc }] }
      (s.waiterList ++ [{ reply := s.calls, client := client, type := .getc }]) where
  queue := h.queue
  maxSize_eq := h.maxSize_eq
  typed_eq := h.typed_eq
  dropped := h.dropped
  getc waiter hmem := by
    rcases List.mem_append.1 hmem with hmem | hmem
    · exact h.getc waiter hmem
    · rw [List.mem_singleton.1 hmem]
  blocked_eq := by simp [h.blocked_eq]
  answered_eq := by
    show s.answered ++ (s.blocked ++ [s.calls]) = List.range (s.calls + 1)
    rw [← List.append_assoc, h.answered_eq, List.range_succ]

theorem getcHandler {client : Nat} {block : Bool} {o : SaveOutcome} (h : s.AtRest)
    (hsave : s.CanSave (.getc client block o)) :
    ∃ ch s', serialGetcHandler s client block o = .ok (ch, s') ∧ s'.AtRest := by
  obtain ⟨hok, hidle⟩ := h
  by_cases hempty : s.inputBacklog.count = 0
  · have hread : inputRead 1 s = .ok ([], s) := by
      simp [inputRead, hempty]
    simp only [serialGetcHandler, hread]
    cases block with
    | false => exact ⟨_, s, rfl, hok, hidle⟩
    | true =>
        refine ⟨_, _, rfl, ?_, Or.inl (Cqueue.items_eq_nil_iff.2 ?_)⟩
        · simp only [inputSaveCallerAsWaiter, hsave rfl hempty]
          exact hok.block client
        · simp only [inputSaveCallerAsWaiter, hsave rfl hempty]
          exact hempty
  · obtain ⟨c, q, hpop, hq, hitems, hmax, _⟩ := hok.queue.pop (Nat.pos_of_ne_zero hempty)
    have hread : inputRead 1 s = .ok ([c], { s with
        inputBacklog := q
        gone := s.gone ++ [.delivered c none] }) := by
      rw [inputRead, if_pos (Nat.pos_of_ne_zero hempty), hpop]
      rfl
    simp only [serialGetcHandler, hread]
    refine ⟨_, _, rfl, hok.deliver hq hmax hitems, Or.inr ?_⟩
    -- nobody was blocked while there were characters
    exact hidle.resolve_left (by simp [hitems])

theorem step {e : InputEvent} (h : s.AtRest) (hsave : s.CanSave e) :
    ∃ s', inputStep s e = .ok s' ∧ s'.AtRest := by
  cases e with
  | irq chars => exact h.1.handleIrq chars
  | getc client block o =>
      obtain ⟨ch, s', hs', hrest⟩ := getcHandler h hsave
      refine ⟨s', ?_, hrest⟩
      rw [inputStep, hs']
      rfl

theorem streamKept (h : s.AtRest) : s.StreamKept := by
  obtain ⟨hok, hidle⟩ := h
  refine ⟨hok.typed_eq, ?_, hok.dropped, hok.answered_eq, hidle⟩
  rw [hok.typed_eq]
  refine List.Sublist.trans ?_ (List.sublist_append_left _ _)
  have hsub : ∀ l : List Departure, (l.filterMap fun
      | .dropped _ _ => none
      | .delivered c _ => some c).Sublist (l.map Departure.char) := by
    intro l
    induction l with
    | nil => exact List.Sublist.refl _
    | cons d l ih =>
        cases d with
        | dropped c held => exact ih.cons c
        | delivered c waiter => exact ih.cons_cons c
  exact hsub s.gone

end InputState.Ok

/-- **Console input.** In every run of interrupts with any number of characters and of blocking and
non-blocking `getc` calls, in which every caller that has to be blocked can be saved: the
characters delivered are a subsequence of those typed, and the others were the oldest of a full
backlog or are still in it; the callers that were blocked are answered in this order, each once;
no caller is blocked while there is a character; and every further event is handled. -/
theorem input_stream (data : Nat → Int) (evs : List InputEvent) (s : InputState)
    (hrun : Run inputStep InputState.CanSave (inputInit data) evs s) :
    s.StreamKept ∧ ∀ e, s.CanSave e → ∃ s', inputStep s e = .ok s' := by
  have hrest : s.AtRest := by
    refine hrun.invariant ⟨.init data, Or.inr rfl⟩ ?_
    intro t e u h hsave hu
    obtain ⟨u', hu', hrest⟩ := InputState.Ok.step h hsave
    rw [hu] at hu'
    exact Except.ok.inj hu' ▸ hrest
  refine ⟨InputState.Ok.streamKept hrest, fun e hsave => ?_⟩
  obtain ⟨s', hs', _⟩ := InputState.Ok.step hrest hsave
  exact ⟨s', hs'⟩

/-- Two callers wait, four characters come in one interrupt: the first two are dropped, and the
callers get the other two. -/
theorem input_stream_burst :
    ∃ s, Run inputStep InputState.CanSave (inputInit fun _ => 0)
        [.getc 1 true ⟨true, true, true⟩, .getc 2 true ⟨true, true, true⟩,
          .irq [97, 98, 99, 100]] s ∧
      s.delivered = [99, 100] ∧ s.answered = [0, 1] ∧ s.StreamKept := by
  obtain ⟨s, hrun, hdelivered, hanswered⟩ :
      ∃ s, Run inputStep InputState.CanSave (inputInit fun _ => 0)
        [.getc 1 true ⟨true, true, true⟩, .getc 2 true ⟨true, true, true⟩,
          .irq [97, 98, 99, 100]] s ∧ s.delivered = [99, 100] ∧ s.answered = [0, 1] := by
    apply Run.exists_of_exec
    decide +kernel
  exact ⟨s, hrun, hdelivered, hanswered, (input_stream _ _ s hrun).1⟩

/-- A caller that cannot be saved is not replied to and is not a waiter: it stays blocked when a
character comes. -/
theorem getc_blocks_for_good :
    ∃ s, Run inputStep (fun _ _ => True) (inputInit fun _ => 0)
        [.getc 1 true ⟨true, false, true⟩, .irq [97]] s ∧
      s.blocked = [0] ∧ s.waiterList = [] ∧ s.inputBacklog.items = [97] ∧ ¬s.StreamKept := by
  obtain ⟨s, hrun, hblocked, hlist, hitems⟩ :
      ∃ s, Run inputStep (fun _ _ => True) (inputInit fun _ => 0)
        [.getc 1 true ⟨true, false, true⟩, .irq [97]] s ∧
        s.blocked = [0] ∧ s.waiterList = [] ∧ s.inputBacklog.items = [97] := by
    apply Run.exists_of_exec
    decide +kernel
  refine ⟨s, hrun, hblocked, hlist, hitems, fun h => ?_⟩
  rcases h.idle with hnil | hnil
  · rw [hitems] at hnil
    cases hnil
  · rw [hblocked] at hnil
    cases hnil

end PartitionSeL4.Refos
