import PartitionSeL4.WellFormed

/-!
# Creating threads inside the partition

A partition's range `[low, high]` holds its main thread at `low` and room for `nthreads - 1` threads
behind it. `pok_partition_thread_create` counts the threads of the partition in `thread_index`,
which is relative to `low`, and compares that count with the absolute index `high`. The two agree
for a range that starts at 0. In every other partition the check comes too late by `low` threads,
and the surplus ids are those of the next partitions, of the idle thread and of the kernel thread.

* `pokPartitionThreadCreate_cases` — what one call can do;
* `creations_stay_inside_iff` — a sequence of calls keeps to the ranges exactly when no partition
  with `0 < low` asks for more threads than it has room for.
-/

namespace PartitionSeL4

open Lib

/-! ## One call -/

/-- The id that the next creation for a partition hands out. -/
def Partition.nextId (part : Partition) : Nat := u32 (part.low + part.threadIndex)

/-- A partition in which threads may be created. -/
def Partition.InStartMode (part : Partition) : Prop :=
  part.mode = .coldStart ∨ part.mode = .warmStart

instance (part : Partition) : Decidable part.InStartMode :=
  inferInstanceAs (Decidable (_ ∨ _))

/-- The TCB that a call looks up for the id `id`: a thread of the current partition. -/
def lookedUpTcb (cfg : Config) (s : State) (id : Nat) : Nat :=
  cfg.getTcbCptrFromPid (s.currentPartition + configPcbOffset)
    (u32 (id + 2 ^ 32 - (s.partArray s.currentPartition).low))

/-- What a call that hands out `id` leaves behind: the record of `id` alone is written, and the
partition's counter alone is moved. -/
structure Registers (s : State) (p id tcb : Nat) (s' : State) : Prop where
  procArray : ∀ j, j ≠ id → s'.procArray j = s.procArray j
  ktcb : (s'.procArray id).ktcb = tcb
  status : (s'.procArray id).status = .runnable
  partArray : s'.partArray = Function.update s.partArray p
    { s.partArray p with threadIndex := u32 ((s.partArray p).threadIndex + 1) }
  currentPartition : s'.currentPartition = s.currentPartition
  tcbRunning : s'.tcbRunning = Function.update s.tcbRunning tcb false

theorem Registers.partArray_frame {s s' : State} {p id tcb : Nat} (h : Registers s p id tcb s')
    (q : Nat) : (s'.partArray q).low = (s.partArray q).low ∧
      (s'.partArray q).high = (s.partArray q).high ∧
      (s'.partArray q).nthreads = (s.partArray q).nthreads := by
  rw [h.partArray]
  by_cases hq : q = p
  · rw [hq, Function.update_self]
    exact ⟨rfl, rfl, rfl⟩
  · rw [Function.update_of_ne hq]
    exact ⟨rfl, rfl, rfl⟩

/-- Everything a call can do: it refuses because of the mode, it refuses for want of room, it fails
its assertion, or it registers a thread. -/
theorem pokPartitionThreadCreate_cases (cfg : Config) (s : State) (p : Nat) :
    (¬ (s.partArray p).InStartMode ∧
        pokPartitionThreadCreate cfg s p = .ok (.mode, none, s)) ∨
      ((s.partArray p).InStartMode ∧ (s.partArray p).high < (s.partArray p).threadIndex ∧
        pokPartitionThreadCreate cfg s p = .ok (.toomany, none, s)) ∨
      ((s.partArray p).InStartMode ∧ (s.partArray p).threadIndex ≤ (s.partArray p).high ∧
        ((lookedUpTcb cfg s (s.partArray p).nextId = 0 ∧
            pokPartitionThreadCreate cfg s p = .error .assertion) ∨
          (lookedUpTcb cfg s (s.partArray p).nextId ≠ 0 ∧
            ∃ s', pokPartitionThreadCreate cfg s p =
                .ok (.ok, some (s.partArray p).nextId, s') ∧
              Registers s p (s.partArray p).nextId
                (lookedUpTcb cfg s (s.partArray p).nextId) s'))) := by
  have hlow : ((s.updPart p fun part =>
      { part with threadIndex := u32 (part.threadIndex + 1) }).partArray s.currentPartition).low =
        (s.partArray s.currentPartition).low := by
    rw [State.updPart_partArray]
    split_ifs <;> rfl
  simp only [pokPartitionThreadCreate, State.updPart_currentPartition, hlow]
  by_cases hmode : (s.partArray p).InStartMode
  · have hmode' : ¬ ((s.partArray p).mode ≠ .coldStart ∧ (s.partArray p).mode ≠ .warmStart) := by
      rcases hmode with h | h <;> simp [h]
    rw [if_neg hmode']
    refine Or.inr ?_
    by_cases hfull : (s.partArray p).high < (s.partArray p).threadIndex
    · exact Or.inl ⟨hmode, hfull, if_pos hfull⟩
    · refine Or.inr ⟨hmode, by omega, ?_⟩
      rw [if_neg hfull]
      by_cases htcb : lookedUpTcb cfg s (s.partArray p).nextId = 0
      · exact Or.inl ⟨htcb, if_pos htcb⟩
      · refine Or.inr ⟨htcb, _, if_neg htcb, ?_⟩
        constructor
        · intro j hj
          simp only [State.tcbSuspend, State.updProc, State.updPart]
          exact Function.update_of_ne hj _ _
        · simp only [State.tcbSuspend, State.updProc, Partition.nextId, Function.update_self]
          rfl
        · simp only [State.tcbSuspend, State.updProc, Partition.nextId, Function.update_self]
        · rfl
        · rfl
        · rfl
  · refine Or.inl ⟨hmode, if_pos ?_⟩
    rw [Partition.InStartMode, not_or] at hmode
    exact hmode

/-! ## Sequences of calls -/

/-- A call: the partition that is current when it is made, and the partition asked for. -/
structure CreateCall where
  current : Nat
  partition : Nat
  deriving DecidableEq, Repr

/-- What a call answered. -/
structure CreateAnswer where
  partition : Nat
  ret : PokRet
  id : Option Nat
  deriving DecidableEq, Repr

/-- The scheduler's state, and the answers so far. -/
structure Creations where
  state : State
  answers : List CreateAnswer

/-- The number of creations for a partition so far. -/
def Creations.accepted (σ : Creations) (p : Nat) : Nat :=
  σ.answers.countP fun a => decide (a.partition = p ∧ a.ret = .ok)

/-- The ids handed out so far. -/
def Creations.ids (σ : Creations) : List Nat := σ.answers.filterMap CreateAnswer.id

/-- One call, made while `c.current` is the current partition. -/
def createCall (cfg : Config) (σ : Creations) (c : CreateCall) : Except Failure Creations := do
  let (ret, id, s) ← pokPartitionThreadCreate cfg
    { σ.state with currentPartition := c.current } c.partition
  return { state := s, answers := σ.answers ++ [⟨c.partition, ret, id⟩] }

/-- Consecutive ranges below the idle thread, as `partition_init` lays them out. -/
structure ConsecutiveRanges (cfg : Config) (s : State) : Prop where
  next : ∀ p, p + 1 < cfg.nbPartitions → (s.partArray (p + 1)).low = (s.partArray p).high + 1
  length : ∀ p < cfg.nbPartitions,
    (s.partArray p).low + (s.partArray p).nthreads = (s.partArray p).high + 1
  nonempty : ∀ p < cfg.nbPartitions, (s.partArray p).low ≤ (s.partArray p).high
  below : ∀ p < cfg.nbPartitions, (s.partArray p).high < cfg.nbThreads
  word : cfg.kernelThread < 2 ^ 32

theorem ConsecutiveRanges.congr {cfg : Config} {s s' : State} (h : ConsecutiveRanges cfg s)
    (heq : ∀ q, (s'.partArray q).low = (s.partArray q).low ∧
      (s'.partArray q).high = (s.partArray q).high ∧
      (s'.partArray q).nthreads = (s.partArray q).nthreads) : ConsecutiveRanges cfg s' := by
  refine ⟨fun q hq => ?_, fun q hq => ?_, fun q hq => ?_, fun q hq => ?_, h.word⟩
  · rw [(heq (q + 1)).1, (heq q).2.1]
    exact h.next q hq
  · rw [(heq q).1, (heq q).2.1, (heq q).2.2]
    exact h.length q hq
  · rw [(heq q).1, (heq q).2.1]
    exact h.nonempty q hq
  · rw [(heq q).2.1]
    exact h.below q hq

theorem ConsecutiveRanges.high_lt_low {cfg : Config} {s : State} (h : ConsecutiveRanges cfg s)
    {p q : Nat} (hpq : p < q) (hq : q < cfg.nbPartitions) :
    (s.partArray p).high < (s.partArray q).low := by
  induction q, hpq using Nat.le_induction with
  | base =>
      rw [h.next p hq]
      omega
  | succ q hpq ih =>
      have hnext := h.next q hq
      have hne := h.nonempty q (by omega)
      have := ih (by omega)
      omega

theorem ConsecutiveRanges.unique {cfg : Config} {s : State} (h : ConsecutiveRanges cfg s)
    {p q i : Nat} (hp : p < cfg.nbPartitions) (hq : q < cfg.nbPartitions)
    (hpi : (s.partArray p).low ≤ i ∧ i ≤ (s.partArray p).high)
    (hqi : (s.partArray q).low ≤ i ∧ i ≤ (s.partArray q).high) : p = q := by
  rcases Nat.lt_trichotomy p q with hlt | heq | hgt
  · have := h.high_lt_low hlt hq
    omega
  · exact heq
  · have := h.high_lt_low hgt hp
    omega

/-- A call keeps to the range of its partition: it answers with a new id of the range as long as
the partition has had fewer than `nthreads - 1` of them, and `POK_ERRNO_TOOMANY` from then on, and
it writes no record of another partition, of the idle thread or of the kernel thread. -/
structure StaysInside (cfg : Config) (σ : Creations) (c : CreateCall) (σ' : Creations) : Prop where
  answer : ∃ ret id, σ'.answers = σ.answers ++ [⟨c.partition, ret, id⟩] ∧
    (σ.accepted c.partition + 1 < (σ.state.partArray c.partition).nthreads → ret = .ok) ∧
    (¬ σ.accepted c.partition + 1 < (σ.state.partArray c.partition).nthreads →
      ret = .toomany) ∧
    (ret = .ok → ∃ i, id = some i ∧ (σ.state.partArray c.partition).low < i ∧
      i ≤ (σ.state.partArray c.partition).high ∧ i ∉ σ.ids)
  others : ∀ q < cfg.nbPartitions, q ≠ c.partition → ∀ j, (σ.state.partArray q).low ≤ j →
    j ≤ (σ.state.partArray q).high → σ'.state.procArray j = σ.state.procArray j
  idle : σ'.state.procArray cfg.idleThread = σ.state.procArray cfg.idleThread
  kernel : σ'.state.procArray cfg.kernelThread = σ.state.procArray cfg.kernelThread

/-- The call is not one too many: its range starts at 0, or it has room for another thread. -/
def HasRoom (σ : Creations) (c : CreateCall) : Prop :=
  (σ.state.partArray c.partition).low = 0 ∨
    σ.accepted c.partition + 1 < (σ.state.partArray c.partition).nthreads

instance (σ : Creations) (c : CreateCall) : Decidable (HasRoom σ c) :=
  inferInstanceAs (Decidable (_ ∨ _))

/-- What holds between the calls of a sequence that has kept to the ranges. -/
structure Creations.Inv (cfg : Config) (σ : Creations) : Prop where
  ranges : ConsecutiveRanges cfg σ.state
  counted : ∀ p < cfg.nbPartitions, (σ.state.partArray p).threadIndex = σ.accepted p + 1
  room : ∀ p < cfg.nbPartitions, σ.accepted p + 1 ≤ (σ.state.partArray p).nthreads
  handed : ∀ i ∈ σ.ids, ∃ p < cfg.nbPartitions, (σ.state.partArray p).low < i ∧
    i ≤ (σ.state.partArray p).low + σ.accepted p

theorem Creations.accepted_snoc (σ : Creations) (s : State) (a : CreateAnswer) (p : Nat) :
    Creations.accepted { state := s, answers := σ.answers ++ [a] } p =
      σ.accepted p + if a.partition = p ∧ a.ret = .ok then 1 else 0 := by
  simp [Creations.accepted, List.countP_append, List.countP_singleton]

theorem Creations.ids_snoc (σ : Creations) (s : State) (a : CreateAnswer) :
    Creations.ids { state := s, answers := σ.answers ++ [a] } = σ.ids ++ a.id.toList := by
  cases h : a.id <;> simp [Creations.ids, List.filterMap_append, h]

/-- The calls of a sequence are for partitions in a start mode. -/
def StartModeCall (cfg : Config) (σ : Creations) (c : CreateCall) : Prop :=
  c.partition < cfg.nbPartitions ∧ (σ.state.partArray c.partition).InStartMode

instance (cfg : Config) (σ : Creations) (c : CreateCall) : Decidable (StartModeCall cfg σ c) :=
  inferInstanceAs (Decidable (_ ∧ _))

/-- Everything a call for a partition in a start mode that returns has done. -/
theorem createCall_cases {cfg : Config} {σ σ' : Creations} {c : CreateCall}
    (hmode : (σ.state.partArray c.partition).InStartMode) (h : createCall cfg σ c = .ok σ') :
    ((σ.state.partArray c.partition).high < (σ.state.partArray c.partition).threadIndex ∧
        σ' = { state := { σ.state with currentPartition := c.current }
               answers := σ.answers ++ [⟨c.partition, .toomany, none⟩] }) ∨
      ((σ.state.partArray c.partition).threadIndex ≤ (σ.state.partArray c.partition).high ∧
        ∃ s' tcb, Registers { σ.state with currentPartition := c.current } c.partition
            (σ.state.partArray c.partition).nextId tcb s' ∧
          σ' = { state := s'
                 answers := σ.answers ++
                   [⟨c.partition, .ok, some (σ.state.partArray c.partition).nextId⟩] }) := by
  obtain ⟨⟨ret, id, s'⟩, hcall, hret⟩ := bind_eq_ok_iff.1 h
  obtain rfl := Except.ok.inj hret
  rcases pokPartitionThreadCreate_cases cfg { σ.state with currentPartition := c.current }
      c.partition with ⟨hnot, _⟩ | ⟨_, hfull, heq⟩ | ⟨_, hroom, ⟨_, heq⟩ | ⟨_, t, heq, hreg⟩⟩
  · exact absurd hmode hnot
  · rw [heq] at hcall
    cases hcall
    exact Or.inl ⟨hfull, rfl⟩
  · rw [heq] at hcall
    cases hcall
  · rw [heq] at hcall
    cases hcall
    exact Or.inr ⟨hroom, _, _, hreg, rfl⟩

namespace Creations.Inv

variable {cfg : Config} {σ σ' : Creations} {c : CreateCall} (h : σ.Inv cfg)

include h

theorem nextId_eq {p : Nat} (hp : p < cfg.nbPartitions)
    (hroom : σ.accepted p + 1 < (σ.state.partArray p).nthreads) :
    (σ.state.partArray p).nextId = (σ.state.partArray p).low + (σ.accepted p + 1) := by
  have hlen := h.ranges.length p hp
  have hbelow := h.ranges.below p hp
  have hword := h.ranges.word
  unfold Config.kernelThread at hword
  rw [Partition.nextId, h.counted p hp, u32_of_lt (by omega)]

/-- The next id was not handed out before: in its own partition the ids go up, and the ids of the
other partitions lie in their ranges. -/
theorem nextId_not_mem {p : Nat} (hp : p < cfg.nbPartitions)
    (hroom : σ.accepted p + 1 < (σ.state.partArray p).nthreads) :
    (σ.state.partArray p).nextId ∉ σ.ids := by
  intro hmem
  obtain ⟨q, hq, hlow, hhigh⟩ := h.handed _ hmem
  rw [h.nextId_eq hp hroom] at hlow hhigh
  have hlen := h.ranges.length p hp
  have hlenq := h.ranges.length q hq
  have hroomq := h.room q hq
  have hpq : p = q := h.ranges.unique hp hq (i := (σ.state.partArray p).low + (σ.accepted p + 1))
    (by omega) (by omega)
  subst hpq
  omega

/-- A call that the range has no more room for is refused only in the range that starts at 0. -/
theorem hasRoom_of_staysInside (hc : StartModeCall cfg σ c) (hcall : createCall cfg σ c = .ok σ')
    (hin : StaysInside cfg σ c σ') : HasRoom σ c := by
  obtain ⟨hp, hmode⟩ := hc
  by_contra hno
  rw [HasRoom, not_or] at hno
  obtain ⟨ret, id, hans, _, htoomany, _⟩ := hin.answer
  have hlen := h.ranges.length _ hp
  have hcount := h.counted _ hp
  have hroom := h.room _ hp
  rcases createCall_cases hmode hcall with ⟨hfull, _⟩ | ⟨_, s', tcb, _, rfl⟩
  · omega
  · have hlast := List.append_cancel_left hans
    simp only [List.cons.injEq, CreateAnswer.mk.injEq, and_true, true_and] at hlast
    rw [htoomany hno.2] at hlast
    cases hlast.1

theorem refused (current p : Nat) :
    Creations.Inv cfg { state := { σ.state with currentPartition := current }
                        answers := σ.answers ++ [⟨p, .toomany, none⟩] } := by
  have hacc : ∀ (s : State) (q : Nat), Creations.accepted
      { state := s, answers := σ.answers ++ [⟨p, .toomany, none⟩] } q = σ.accepted q := by
    intro s q
    rw [Creations.accepted_snoc, if_neg (by simp), Nat.add_zero]
  constructor
  · exact h.ranges.congr fun _ => ⟨rfl, rfl, rfl⟩
  · intro q hq
    rw [hacc]
    exact h.counted q hq
  · intro q hq
    rw [hacc]
    exact h.room q hq
  · intro i hi
    rw [Creations.ids_snoc, Option.toList_none, List.append_nil] at hi
    obtain ⟨q, hq, hlow, hhigh⟩ := h.handed i hi
    refine ⟨q, hq, hlow, ?_⟩
    rw [hacc]
    exact hhigh

theorem registered {s s' : State} {p tcb : Nat} (hs : s.partArray = σ.state.partArray)
    (hp : p < cfg.nbPartitions)
    (hroom : σ.accepted p + 1 < (σ.state.partArray p).nthreads)
    (hreg : Registers s p (σ.state.partArray p).nextId tcb s') :
    Creations.Inv cfg
      { state := s'
        answers := σ.answers ++ [⟨p, .ok, some (σ.state.partArray p).nextId⟩] } := by
  have hid := h.nextId_eq hp hroom
  have hself : s'.partArray p = { σ.state.partArray p with
      threadIndex := u32 ((σ.state.partArray p).threadIndex + 1) } := by
    rw [hreg.partArray, Function.update_self, hs]
  have hother : ∀ q, q ≠ p → s'.partArray q = σ.state.partArray q := by
    intro q hq
    rw [hreg.partArray, Function.update_of_ne hq, hs]
  have hframe : ∀ q, (s'.partArray q).low = (σ.state.partArray q).low ∧
      (s'.partArray q).high = (σ.state.partArray q).high ∧
      (s'.partArray q).nthreads = (σ.state.partArray q).nthreads := fun q =>
    hs ▸ hreg.partArray_frame q
  have hlow := fun q => (hframe q).1
  constructor
  · exact h.ranges.congr hframe
  · intro q hq
    rw [Creations.accepted_snoc]
    by_cases hqp : q = p
    · subst hqp
      have hcount := h.counted q hq
      have hlen := h.ranges.length q hq
      have hbelow := h.ranges.below q hq
      have hword := h.ranges.word
      unfold Config.kernelThread at hword
      rw [if_pos ⟨rfl, rfl⟩, hself, hcount]
      exact u32_of_lt (by omega)
    · rw [if_neg (fun hand => hqp hand.1.symm), hother q hqp]
      exact h.counted q hq
  · intro q hq
    rw [Creations.accepted_snoc, (hframe q).2.2]
    by_cases hqp : q = p
    · subst hqp
      rw [if_pos ⟨rfl, rfl⟩]
      exact hroom
    · rw [if_neg (fun hand => hqp hand.1.symm)]
      exact h.room q hq
  · intro i hi
    rw [Creations.ids_snoc, Option.toList_some, List.mem_append, List.mem_singleton] at hi
    rcases hi with hi | rfl
    · obtain ⟨q, hq, hi, hi'⟩ := h.handed i hi
      refine ⟨q, hq, ?_, ?_⟩
      · rw [hlow]
        exact hi
      · rw [hlow, Creations.accepted_snoc]
        omega
    · refine ⟨p, hp, ?_, ?_⟩
      · rw [hlow, hid]
        omega
      · rw [hlow, Creations.accepted_snoc, if_pos ⟨rfl, rfl⟩, hid]

theorem staysInside (hc : StartModeCall cfg σ c) (hcall : createCall cfg σ c = .ok σ')
    (hroom : HasRoom σ c) : StaysInside cfg σ c σ' ∧ σ'.Inv cfg := by
  obtain ⟨hp, hmode⟩ := hc
  have hlen := h.ranges.length _ hp
  have hcount := h.counted _ hp
  have hbelow := h.ranges.below _ hp
  rcases createCall_cases hmode hcall with ⟨hfull, rfl⟩ | ⟨hle, s', tcb, hreg, rfl⟩
  · -- Refused: the range starts at 0 and is used up.
    have hno : ¬ σ.accepted c.partition + 1 < (σ.state.partArray c.partition).nthreads := by
      omega
    refine ⟨⟨⟨.toomany, none, rfl, fun hlt => absurd hlt hno, fun _ => rfl, ?_⟩,
      fun _ _ _ _ _ _ => rfl, rfl, rfl⟩, h.refused _ _⟩
    intro hret
    cases hret
  · -- Accepted: the counter is below the size of the range in either case.
    have hlt : σ.accepted c.partition + 1 < (σ.state.partArray c.partition).nthreads := by
      rcases hroom with hlow | hlt <;> omega
    have hid := h.nextId_eq hp hlt
    refine ⟨⟨⟨.ok, some _, rfl, fun _ => rfl, fun hno => absurd hlt hno, fun _ =>
      ⟨_, rfl, by omega, by omega, h.nextId_not_mem hp hlt⟩⟩, ?_, ?_, ?_⟩,
      h.registered (s := { σ.state with currentPartition := c.current }) rfl hp hlt hreg⟩
    · intro q hq hne j hlow hhigh
      refine hreg.procArray j fun hj => hne ?_
      exact h.ranges.unique hq hp (i := j) ⟨hlow, hhigh⟩ (by omega)
    · exact hreg.procArray _ (by unfold Config.idleThread; omega)
    · exact hreg.procArray _ (by unfold Config.kernelThread; omega)

end Creations.Inv

theorem Creations.inv_start {cfg : Config} {s : State} (hranges : ConsecutiveRanges cfg s)
    (hfresh : ∀ p < cfg.nbPartitions, (s.partArray p).threadIndex = 1) :
    Creations.Inv cfg ⟨s, []⟩ where
  ranges := hranges
  counted p hp := hfresh p hp
  room p hp := by
    have hlen := hranges.length p hp
    have hne := hranges.nonempty p hp
    show 0 + 1 ≤ (s.partArray p).nthreads
    omega
  handed i hi := absurd hi List.not_mem_nil

/-- A sequence of calls keeps to the ranges if and only if none of them is one too many. -/
theorem steps_staysInside_iff {cfg : Config} {s : State} (hranges : ConsecutiveRanges cfg s)
    (hfresh : ∀ p < cfg.nbPartitions, (s.partArray p).threadIndex = 1)
    {calls : List CreateCall} {σ : Creations}
    (h : Run (createCall cfg) (StartModeCall cfg) ⟨s, []⟩ calls σ) :
    Steps (createCall cfg) (StaysInside cfg) calls ⟨s, []⟩ ↔
      Steps (createCall cfg) (fun σ c _ => HasRoom σ c) calls ⟨s, []⟩ := by
  refine h.steps_congr (Creations.inv_start hranges hfresh) ?_ ?_
  · intro σ c σ' hinv hc hcall hin
    exact (hinv.staysInside hc hcall (hinv.hasRoom_of_staysInside hc hcall hin)).2
  · intro σ c σ' hinv hc hcall
    exact ⟨hinv.hasRoom_of_staysInside hc hcall, fun hroom => (hinv.staysInside hc hcall hroom).1⟩

/-- A call returns, provided the process has a TCB for the thread it asks for. -/
theorem createCall_returns {cfg : Config}
    (htcb : ∀ p tid, cfg.getTcbCptrFromPid (p + configPcbOffset) tid ≠ 0) (σ : Creations)
    (c : CreateCall) : ∃ σ', createCall cfg σ c = .ok σ' := by
  rcases pokPartitionThreadCreate_cases cfg { σ.state with currentPartition := c.current }
      c.partition with ⟨_, heq⟩ | ⟨_, _, heq⟩ | ⟨_, _, ⟨hzero, _⟩ | ⟨_, t, heq, _⟩⟩
  · exact ⟨_, bind_eq_ok_iff.2 ⟨_, heq, rfl⟩⟩
  · exact ⟨_, bind_eq_ok_iff.2 ⟨_, heq, rfl⟩⟩
  · exact absurd hzero (htcb _ _)
  · exact ⟨_, bind_eq_ok_iff.2 ⟨_, heq, rfl⟩⟩

/-- **Thread creation stays inside the partition** exactly as long as no partition behind the first
one asks for more threads than its range has room for. Every call returns, provided that the process
has a TCB for the thread. -/
theorem creations_stay_inside_iff {cfg : Config} {s : State} (hranges : ConsecutiveRanges cfg s)
    (hfresh : ∀ p < cfg.nbPartitions, (s.partArray p).threadIndex = 1)
    {calls : List CreateCall} {σ : Creations}
    (h : Run (createCall cfg) (StartModeCall cfg) ⟨s, []⟩ calls σ) :
    (Steps (createCall cfg) (StaysInside cfg) calls ⟨s, []⟩ ↔
      Steps (createCall cfg) (fun σ c _ => HasRoom σ c) calls ⟨s, []⟩) ∧
    ((∀ p tid, cfg.getTcbCptrFromPid (p + configPcbOffset) tid ≠ 0) →
      ∀ c, ∃ σ', createCall cfg σ c = .ok σ') :=
  ⟨steps_staysInside_iff hranges hfresh h, fun htcb c => createCall_returns htcb σ c⟩

/-- `system_init` lays the ranges one behind the other, with only the main thread in each. -/
theorem Booted.consecutiveRanges {cfg : Config} {s : State} (hcfg : cfg.PartitionsOk)
    (h : Booted cfg s) : ConsecutiveRanges cfg s ∧
      ∀ p < cfg.nbPartitions, (s.partArray p).threadIndex = 1 := by
  have hlayout := (h.inv hcfg).layout
  refine ⟨⟨fun p hp => ?_, fun p hp => ?_, fun p hp => ?_, fun p hp => ?_, ?_⟩, fun p hp => ?_⟩
  · rw [hlayout.low _ hp, hlayout.high p (by omega), hcfg.high_add_one (by omega)]
  · rw [hlayout.low p hp, hlayout.high p hp, hlayout.nthreads p hp]
    exact hcfg.low_add_nthreads hp
  · rw [hlayout.low p hp, hlayout.high p hp]
    have hpos := hcfg.nthreads_pos p hp
    unfold Config.high
    omega
  · rw [hlayout.high p hp]
    exact hcfg.high_lt_idle hp
  · have hword := hcfg.nbThreads_lt
    unfold Config.kernelThread
    omega
  · rw [(h.arrayStart hcfg).partArray p hp]
    rfl

/-- Two threads for partition 1 and one for partition 0 fit into the deployed table. -/
theorem creations_stay_inside_iff_deployed :
    ∃ s σ, systemInit deployment = .ok s ∧
      Run (createCall deployment) (StartModeCall deployment) ⟨s, []⟩
        [⟨1, 1⟩, ⟨0, 0⟩, ⟨1, 1⟩, ⟨0, 0⟩] σ ∧
      ((Steps (createCall deployment) (StaysInside deployment)
          [⟨1, 1⟩, ⟨0, 0⟩, ⟨1, 1⟩, ⟨0, 0⟩] ⟨s, []⟩ ↔
        Steps (createCall deployment) (fun σ c _ => HasRoom σ c)
          [⟨1, 1⟩, ⟨0, 0⟩, ⟨1, 1⟩, ⟨0, 0⟩] ⟨s, []⟩) ∧
      ((∀ p tid, deployment.getTcbCptrFromPid (p + configPcbOffset) tid ≠ 0) →
        ∀ c, ∃ σ', createCall deployment σ c = .ok σ')) ∧
      σ.ids = [3, 1, 4] := by
  obtain ⟨s, hs⟩ : ∃ s, systemInit deployment = .ok s := ⟨_, rfl⟩
  obtain ⟨hranges, hfresh⟩ :=
    Booted.consecutiveRanges deployment_partitionsOk ⟨s, hs, Or.inl rfl⟩
  obtain ⟨σ, hrun, hids⟩ : ∃ σ, Run (createCall deployment) (StartModeCall deployment) ⟨s, []⟩
      [⟨1, 1⟩, ⟨0, 0⟩, ⟨1, 1⟩, ⟨0, 0⟩] σ ∧ σ.ids = [3, 1, 4] := by
    cases hs
    apply Run.exists_of_exec
    decide +kernel
  exact ⟨s, σ, hs, hrun, creations_stay_inside_iff hranges hfresh hrun, hids⟩

/-- A third thread for partition 1 is registered as the idle thread. -/
theorem creation_takes_idle_thread :
    ∃ s σ, systemInit deployment = .ok s ∧ ConsecutiveRanges deployment s ∧
      (∀ p < deployment.nbPartitions, (s.partArray p).threadIndex = 1) ∧
      Run (createCall deployment) (StartModeCall deployment) ⟨s, []⟩
        [⟨1, 1⟩, ⟨1, 1⟩, ⟨1, 1⟩] σ ∧
      σ.ids = [3, 4, deployment.idleThread] ∧
      ¬ Steps (createCall deployment) (StaysInside deployment)
        [⟨1, 1⟩, ⟨1, 1⟩, ⟨1, 1⟩] ⟨s, []⟩ := by
  obtain ⟨s, hs⟩ : ∃ s, systemInit deployment = .ok s := ⟨_, rfl⟩
  obtain ⟨hranges, hfresh⟩ :=
    Booted.consecutiveRanges deployment_partitionsOk ⟨s, hs, Or.inl rfl⟩
  obtain ⟨σ₂, hrun₂, hroom₂, hmode₂⟩ : ∃ σ, Run (createCall deployment)
      (StartModeCall deployment) ⟨s, []⟩ [⟨1, 1⟩, ⟨1, 1⟩] σ ∧
      ¬ HasRoom σ ⟨1, 1⟩ ∧ StartModeCall deployment σ ⟨1, 1⟩ := by
    cases hs
    apply Run.exists_of_exec
    decide +kernel
  obtain ⟨σ, hrun, hids⟩ : ∃ σ, Run (createCall deployment) (StartModeCall deployment) ⟨s, []⟩
      [⟨1, 1⟩, ⟨1, 1⟩, ⟨1, 1⟩] σ ∧ σ.ids = [3, 4, deployment.idleThread] := by
    cases hs
    apply Run.exists_of_exec
    decide +kernel
  obtain ⟨σ₃, hcall⟩ : ∃ σ₃, createCall deployment σ₂ ⟨1, 1⟩ = .ok σ₃ :=
    createCall_returns (by simp [deployment, configPcbOffset]) σ₂ ⟨1, 1⟩
  refine ⟨s, σ, hs, hranges, hfresh, hrun, hids, fun hsteps => hroom₂ ?_⟩
  have hlast := (steps_staysInside_iff hranges hfresh hrun).1 hsteps
  exact hrun₂.last_step (Q := fun σ c _ => HasRoom σ c) hlast hcall

end PartitionSeL4
