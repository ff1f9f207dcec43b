import PartitionSeL4.Budget

/-!
# Exact time accounting

Every tick should cost the thread that is current one unit of its budget, and nothing else should
cost anything. The code charges in `pok_elect_thread`, in the case for a partition in normal mode of
the switch on the partition *elected*, and it does so on every call of the scheduler. So a tick at
which a partition in a start mode is elected is not charged, and a request that enters the scheduler
between two ticks is charged like a tick.

`accounting_exact_iff` says exactly which steps are accounted for as they should be:
`ChargedRight` is the condition, on the state and the event before the step.
-/

namespace PartitionSeL4

open Lib

/-- What exact accounting asks for the budget of the current thread, before and after a step. A tick
costs it one unit, unless it is idle or a main thread, and a request to give up may take all that is
left. -/
def CurrentAccounted (cfg : Config) (s : State) (e : Event) (before after : Nat) : Prop :=
  match e with
  | .tick => if Chargeable cfg s then after = before - 1 else before ≤ after
  | .request .giveUp => after = 0 ∨ before ≤ after
  | _ => before ≤ after

/-- What exact accounting asks of a step from `s` to `s'`: apart from the current thread, nobody
loses anything. -/
def Accounted (cfg : Config) (s : State) (e : Event) (s' : State) : Prop :=
  ∀ p < cfg.nbPartitions, ∀ i, cfg.Owns p i →
    let before := (s.procArray i).remainingTimeCapacity
    let after := (s'.procArray i).remainingTimeCapacity
    if i = s.currentThread then CurrentAccounted cfg s e before after else before ≤ after

/-- The partition that an event elects is in normal mode. -/
def ElectsNormal (cfg : Config) (s : State) (e : Event) : Prop :=
  (s.partArray (electedPartition cfg (entry cfg s e))).mode = .normal

instance (cfg : Config) (s : State) (e : Event) : Decidable (ElectsNormal cfg s e) :=
  inferInstanceAs (Decidable (_ = _))

/-- When a step is accounted for exactly. A tick with a chargeable thread current must elect a
partition in normal mode, or the thread has nothing left. A request that enters the scheduler must
not find a chargeable thread with budget left when it elects a partition in normal mode; a request
to give up, only if it would refill a full budget of two or more units at once. -/
def ChargedRight (cfg : Config) (s : State) (e : Event) : Prop :=
  let thread := s.procArray s.currentThread
  match e with
  | .tick => Chargeable cfg s → ElectsNormal cfg s .tick ∨ thread.remainingTimeCapacity = 0
  | .request .giveUp =>
      Chargeable cfg s → ElectsNormal cfg s (.request .giveUp) →
        s.currentPartition = electedPartition cfg (entry cfg s (.request .giveUp)) →
        thread.nextActivation ≤ s.tickCounter → 2 ≤ thread.timecap →
        thread.remainingTimeCapacity < thread.timecap
  | .request r =>
      Effective s r → Chargeable cfg s → ElectsNormal cfg s (.request r) →
        thread.remainingTimeCapacity = 0
  | .threadCreate => True

/-! ## One record -/

@[simp] theorem Process.charge_remaining (t : Process) :
    t.charge.remainingTimeCapacity = t.remainingTimeCapacity - 1 := by
  unfold Process.charge
  split_ifs with hpos
  · rfl
  · show t.remainingTimeCapacity = t.remainingTimeCapacity - 1
    omega

theorem Process.Sound.remaining_le_activate {t : Process} (h : t.Sound) (now : Nat) :
    t.remainingTimeCapacity ≤ (t.activate now).remainingTimeCapacity := by
  rw [h.activate_eq]
  unfold Process.replenish
  split_ifs
  · exact h.budget
  · exact le_rfl

theorem Process.Sound.activate_of_ne {t : Process} (h : t.Sound) (now : Nat)
    (hne : t.status ≠ .waitNextActivation) : t.activate now = t := by
  rw [h.activate_eq]
  simp [Process.replenish, hne]

theorem effect_remaining_of_ne (s : State) {r : ApexRequest} (hr : r ≠ .giveUp) (t : Process) :
    (r.effect s t).remainingTimeCapacity = t.remainingTimeCapacity := by
  cases r <;> first | rfl | exact absurd rfl hr

section Step

variable {cfg : Config} {s s' : State} {e : Event} {p i : Nat}

theorem Ready.remaining_le_activatedThread (h : Ready cfg s) (hp : p < cfg.nbPartitions)
    (hi : cfg.Owns p i) (q : Nat) :
    (s.procArray i).remainingTimeCapacity ≤ (activatedThread s p q i).remainingTimeCapacity := by
  unfold activatedThread
  split_ifs
  · exact (h.sound p hp i hi).remaining_le_activate _
  · exact le_rfl

@[simp] theorem entry_chargeable (e : Event) :
    Chargeable cfg (entry cfg s e) ↔ Chargeable cfg s := by
  have hmain : ((entry cfg s e).partArray s.currentPartition).threadMain =
      (s.partArray s.currentPartition).threadMain := by
    rw [entry_partArray]
    split_ifs <;> rfl
  unfold Chargeable
  rw [entry_currentThread, entry_currentPartition, hmain]

theorem Inv.chargeable (h : Inv cfg s) (hc : Chargeable cfg s) :
    cfg.Owns s.currentPartition s.currentThread ∧
      (s.partArray s.currentPartition).mode = .normal ∧
      (s.procArray s.currentThread).status = .runnable := by
  have hp := h.currentPartition_lt
  obtain ⟨hidle, hmain⟩ := hc
  rw [h.layout.threadMain _ hp] at hmain
  have hmode : (s.partArray s.currentPartition).mode = .normal := by
    by_contra hne
    rcases h.elected.start hne with heq | heq
    · exact hmain heq
    · exact hidle heq
  rcases h.elected.normal hmode with ⟨hown, hrun⟩ | heq
  · exact ⟨hown, hmode, hrun⟩
  · exact absurd heq hidle

/-- Who is charged, in the words of the state before the edit. A mode request that is acted upon
comes from the main thread, which is not charged. -/
theorem entry_charged_iff (henters : Enters s e) :
    (((entry cfg s e).partArray (electedPartition cfg (entry cfg s e))).mode = .normal ∧
        Chargeable cfg (entry cfg s e) ∧ i = (entry cfg s e).currentThread) ↔
      (ElectsNormal cfg s e ∧ Chargeable cfg s ∧ i = s.currentThread) := by
  rw [entry_chargeable, entry_currentThread]
  by_cases hc : Chargeable cfg s
  · have hset : ¬(e.setsMode = true) := by
      intro hset
      cases e with
      | tick | threadCreate => cases hset
      | request r =>
          cases r with
          | setPartitionMode mode => exact hc.2 henters.2
          | _ => cases hset
    rw [entry_partArray, if_neg (fun h => hset h.1)]
    exact Iff.rfl
  · simp [hc]

theorem step_remaining (hcfg : cfg.PartitionsOk) (h : Inv cfg s) (hp : p < cfg.nbPartitions)
    (hi : cfg.Owns p i) (henters : Enters s e) (hs : step cfg s e = .ok s') :
    (s'.procArray i).remainingTimeCapacity =
      (activatedThread (entry cfg s e) p (electedPartition cfg (entry cfg s e))
          i).remainingTimeCapacity -
        if ElectsNormal cfg s e ∧ Chargeable cfg s ∧ i = s.currentThread then 1 else 0 := by
  have hready := h.toReady.enter hcfg e
  rcases step_procArray hs i with ⟨hnot, _⟩ | ⟨rfl, _⟩ | ⟨_, heq⟩
  · exact absurd henters hnot
  · exact absurd henters id
  · rw [heq, hready.schedThread_eq hcfg hp (hready.electedPartition_lt hcfg) hi]
    simp only [entry_charged_iff henters]
    split_ifs
    · exact Process.charge_remaining _
    · rfl

theorem remaining_le_of_not_enters (h : Inv cfg s) (hp : p < cfg.nbPartitions)
    (hi : cfg.Owns p i) (htab : (s.procArray i).Tabled cfg i) (hnot : ¬Enters s e)
    (hs : step cfg s e = .ok s') :
    (s.procArray i).remainingTimeCapacity ≤ (s'.procArray i).remainingTimeCapacity := by
  rcases step_procArray hs i with ⟨_, heq⟩ | ⟨_, _, hid, heq⟩ | ⟨henters, _⟩
  · rw [heq]
  · have hbudget := (h.sound p hp i hi).budget
    rw [htab.timecap, hid] at hbudget
    rw [heq, hid]
    exact hbudget
  · exact absurd henters hnot

theorem step_remaining_of_ne (hcfg : cfg.PartitionsOk) (h : Inv cfg s)
    (hp : p < cfg.nbPartitions) (hi : cfg.Owns p i) (htab : (s.procArray i).Tabled cfg i)
    (hne : i ≠ s.currentThread) (hs : step cfg s e = .ok s') :
    (s.procArray i).remainingTimeCapacity ≤ (s'.procArray i).remainingTimeCapacity := by
  by_cases henters : Enters s e
  · have hready := h.toReady.enter hcfg e
    rw [step_remaining hcfg h hp hi henters hs, if_neg (fun h => hne h.2.2), Nat.sub_zero]
    refine Nat.le_trans ?_ (hready.remaining_le_activatedThread hp hi _)
    cases e with
    | tick => exact le_rfl
    | threadCreate => exact le_rfl
    | request r =>
        rw [h.toReady.entry_procArray hcfg]
        split_ifs with htarget
        · rw [effect_remaining_of_ne]
          rintro rfl
          exact hne htarget
        · exact le_rfl
  · exact remaining_le_of_not_enters h hp hi htab henters hs

/-- An event other than a request to give up edits no budget, and leaves a runnable thread runnable
or stopped. -/
theorem Ready.entry_current (hcfg : cfg.PartitionsOk) (h : Ready cfg s)
    (he : e ≠ .request .giveUp) (i : Nat) :
    ((entry cfg s e).procArray i).remainingTimeCapacity =
        (s.procArray i).remainingTimeCapacity ∧
      ((s.procArray i).status = .runnable →
        ((entry cfg s e).procArray i).status ≠ .waitNextActivation) := by
  cases e with
  | tick => exact ⟨rfl, fun hrun => by simp [hrun]⟩
  | threadCreate => exact ⟨rfl, fun hrun => by simp [entry, hrun]⟩
  | request r =>
      have hr : r ≠ .giveUp := by
        rintro rfl
        exact he rfl
      rw [h.entry_procArray hcfg]
      split_ifs
      · refine ⟨effect_remaining_of_ne s hr _, fun hrun => ?_⟩
        cases r <;> simp [ApexRequest.effect, hrun] at hr ⊢
      · exact ⟨rfl, fun hrun => by simp [hrun]⟩

/-- A tick or a request other than the one to give up that enters the scheduler with a chargeable
thread current costs it one unit exactly when a partition in normal mode is elected. -/
theorem step_remaining_chargeable (hcfg : cfg.PartitionsOk) (h : Inv cfg s)
    (hc : Chargeable cfg s) (he : e ≠ .request .giveUp) (henters : Enters s e)
    (hs : step cfg s e = .ok s') :
    (s'.procArray s.currentThread).remainingTimeCapacity =
      (s.procArray s.currentThread).remainingTimeCapacity -
        if ElectsNormal cfg s e then 1 else 0 := by
  obtain ⟨hown, _, hrun⟩ := h.chargeable hc
  have hp := h.currentPartition_lt
  have hready := h.toReady.enter hcfg e
  obtain ⟨hkeep, hstatus⟩ := h.toReady.entry_current hcfg he s.currentThread
  have hsame : activatedThread (entry cfg s e) s.currentPartition
      (electedPartition cfg (entry cfg s e)) s.currentThread =
        (entry cfg s e).procArray s.currentThread := by
    rw [activatedThread, (hready.sound _ hp _ hown).activate_of_ne _ (hstatus hrun), ite_self]
  rw [step_remaining hcfg h hp hown henters hs, hsame, hkeep]
  simp only [hc, and_true]

/-- If no charge is made, nobody loses anything but by giving up. -/
theorem remaining_le_step (hcfg : cfg.PartitionsOk) (h : Inv cfg s) (hp : p < cfg.nbPartitions)
    (hi : cfg.Owns p i) (hc : ¬(ElectsNormal cfg s e ∧ Chargeable cfg s))
    (he : e ≠ .request .giveUp) (henters : Enters s e) (hs : step cfg s e = .ok s') :
    (s.procArray i).remainingTimeCapacity ≤ (s'.procArray i).remainingTimeCapacity := by
  have hready := h.toReady.enter hcfg e
  have hle := hready.remaining_le_activatedThread hp hi (electedPartition cfg (entry cfg s e))
  rw [(h.toReady.entry_current hcfg he i).1] at hle
  rw [step_remaining hcfg h hp hi henters hs, if_neg (fun h => hc ⟨h.1, h.2.1⟩)]
  exact hle

/-- What giving up leaves: nothing, or a new budget if the thread's activation time has come while
its partition is elected, less the unit that a chargeable thread is charged. -/
theorem step_remaining_giveUp (hcfg : cfg.PartitionsOk) (h : Inv cfg s)
    (hown : cfg.Owns s.currentPartition s.currentThread)
    (hs : step cfg s (.request .giveUp) = .ok s') :
    (s'.procArray s.currentThread).remainingTimeCapacity =
      (if s.currentPartition = electedPartition cfg (entry cfg s (.request .giveUp)) ∧
          (s.procArray s.currentThread).nextActivation ≤ s.tickCounter then
        (s.procArray s.currentThread).timecap
      else 0) -
        if ElectsNormal cfg s (.request .giveUp) ∧ Chargeable cfg s then 1 else 0 := by
  have hp := h.currentPartition_lt
  have hready := h.toReady.enter hcfg (.request .giveUp)
  have htick : (entry cfg s (.request .giveUp)).tickCounter = s.tickCounter := rfl
  have hentry : (entry cfg s (.request .giveUp)).procArray s.currentThread =
      { s.procArray s.currentThread with
        status := .waitNextActivation, remainingTimeCapacity := 0 } := by
    rw [h.toReady.entry_procArray hcfg]
    exact if_pos rfl
  have hact : (activatedThread (entry cfg s (.request .giveUp)) s.currentPartition
      (electedPartition cfg (entry cfg s (.request .giveUp)))
        s.currentThread).remainingTimeCapacity =
      if s.currentPartition = electedPartition cfg (entry cfg s (.request .giveUp)) ∧
          (s.procArray s.currentThread).nextActivation ≤ s.tickCounter then
        (s.procArray s.currentThread).timecap
      else 0 := by
    rw [activatedThread, htick]
    by_cases hq : s.currentPartition = electedPartition cfg (entry cfg s (.request .giveUp))
    · rw [if_pos hq, (hready.sound _ hp _ hown).activate_eq, hentry]
      by_cases hdue : (s.procArray s.currentThread).nextActivation ≤ s.tickCounter <;>
        simp [Process.replenish, hdue, hq]
    · rw [if_neg hq, if_neg (fun h => hq h.1), hentry]
  rw [step_remaining (e := .request .giveUp) hcfg h hp hown trivial hs, hact]
  simp only [and_true]

/-- The arithmetic of giving up: only a full budget of two or more units that is refilled and
charged at once has lost something, without being empty. -/
theorem giveUp_accounted_iff {before timecap : Nat} (hle : before ≤ timecap)
    {refilled charged : Prop} [Decidable refilled] [Decidable charged] :
    ((if refilled then timecap else 0) - (if charged then 1 else 0) = 0 ∨
        before ≤ (if refilled then timecap else 0) - if charged then 1 else 0) ↔
      (charged → refilled → 2 ≤ timecap → before < timecap) := by
  by_cases hr : refilled
  · by_cases hc : charged <;> simp only [hc, hr, if_true, if_false, true_imp_iff, false_imp_iff,
      iff_true] <;> omega
  · simp [hr]

/-- The account of a tick: a chargeable thread must be charged, unless it has nothing left. -/
theorem tick_accounted_iff (hcfg : cfg.PartitionsOk) (h : Inv cfg s)
    (hown : cfg.Owns s.currentPartition s.currentThread) (hs : step cfg s .tick = .ok s') :
    CurrentAccounted cfg s .tick (s.procArray s.currentThread).remainingTimeCapacity
        (s'.procArray s.currentThread).remainingTimeCapacity ↔ ChargedRight cfg s .tick := by
  show (if Chargeable cfg s then _ else _) ↔ (Chargeable cfg s → _)
  by_cases hc : Chargeable cfg s
  · rw [if_pos hc, step_remaining_chargeable (e := .tick) hcfg h hc (by simp) trivial hs]
    by_cases hn : ElectsNormal cfg s .tick
    · simp [hn]
    · simp only [hn, hc, if_false, false_or, forall_true_left]
      omega
  · rw [if_neg hc]
    have hle := remaining_le_step (e := .tick) hcfg h h.currentPartition_lt hown
      (fun hn => hc hn.2) (by simp) trivial hs
    simp [hle, hc]

/-- The account of a request other than the one to give up: it must not be charged at all. -/
theorem request_accounted_iff (hcfg : cfg.PartitionsOk) (h : Inv cfg s)
    (hown : cfg.Owns s.currentPartition s.currentThread)
    (htab : (s.procArray s.currentThread).Tabled cfg s.currentThread) {r : ApexRequest}
    (hr : r ≠ .giveUp) (hs : step cfg s (.request r) = .ok s') :
    (s.procArray s.currentThread).remainingTimeCapacity ≤
        (s'.procArray s.currentThread).remainingTimeCapacity ↔
      (Effective s r → Chargeable cfg s → ElectsNormal cfg s (.request r) →
        (s.procArray s.currentThread).remainingTimeCapacity = 0) := by
  have hp := h.currentPartition_lt
  have he : Event.request r ≠ .request .giveUp := by
    intro heq
    exact hr (Event.request.inj heq)
  by_cases heff : Effective s r
  · by_cases hc : Chargeable cfg s
    · have hrem := step_remaining_chargeable hcfg h hc he heff hs
      rw [hrem]
      by_cases hn : ElectsNormal cfg s (.request r)
      · simp only [hn, heff, hc, if_true, forall_true_left]
        omega
      · simp [hn]
    · have hle := remaining_le_step hcfg h hp hown (fun hn => hc hn.2) he heff hs
      simp [hle, hc]
  · have hle := remaining_le_of_not_enters (e := .request r) h hp hown htab heff hs
    simp [hle, heff]

/-- The current thread's account, when it is a thread of the current partition. -/
theorem currentAccounted_iff (hcfg : cfg.PartitionsOk) (h : Inv cfg s)
    (hown : cfg.Owns s.currentPartition s.currentThread)
    (htab : (s.procArray s.currentThread).Tabled cfg s.currentThread)
    (hs : step cfg s e = .ok s') :
    CurrentAccounted cfg s e (s.procArray s.currentThread).remainingTimeCapacity
        (s'.procArray s.currentThread).remainingTimeCapacity ↔ ChargedRight cfg s e := by
  have hp := h.currentPartition_lt
  cases e with
  | tick => exact tick_accounted_iff hcfg h hown hs
  | threadCreate =>
      have hle := remaining_le_of_not_enters (e := .threadCreate) h hp hown htab id hs
      exact ⟨fun _ => trivial, fun _ => hle⟩
  | request r =>
      cases r with
      | giveUp =>
          show (_ ∨ _) ↔ (Chargeable cfg s → ElectsNormal cfg s _ → _)
          rw [step_remaining_giveUp hcfg h hown hs]
          rw [giveUp_accounted_iff (h.sound _ hp _ hown).budget]
          tauto
      | setPartitionMode mode => exact request_accounted_iff hcfg h hown htab (by simp) hs
      | stopSelf => exact request_accounted_iff hcfg h hown htab (by simp) hs
      | suspendSelf => exact request_accounted_iff hcfg h hown htab (by simp) hs
      | setPriority id prio => exact request_accounted_iff hcfg h hown htab (by simp) hs
      | suspend id => exact request_accounted_iff hcfg h hown htab (by simp) hs
      | resume id => exact request_accounted_iff hcfg h hown htab (by simp) hs

/-- **A step is accounted for exactly if and only if it is charged right.** -/
theorem accounted_iff (hcfg : cfg.PartitionsOk) (h : Inv cfg s)
    (htab : ∀ p < cfg.nbPartitions, ∀ i, cfg.Owns p i → (s.procArray i).Tabled cfg i)
    (hs : step cfg s e = .ok s') : Accounted cfg s e s' ↔ ChargedRight cfg s e := by
  have hp := h.currentPartition_lt
  rcases h.current with hown | hidle
  · have hcur := currentAccounted_iff hcfg h hown (htab _ hp _ hown) hs
    constructor
    · intro hacc
      have := hacc _ hp _ hown
      rw [if_pos rfl] at this
      exact hcur.1 this
    · intro hright p hp i hi
      show if i = s.currentThread then _ else _
      split_ifs with heq
      · subst heq
        exact hcur.2 hright
      · exact step_remaining_of_ne hcfg h hp hi (htab p hp i hi) heq hs
  · -- The idle thread is not charged, and it is nobody's.
    have hnot : ¬Chargeable cfg s := fun hc => hc.1 hidle
    constructor
    · intro _
      cases e with
      | tick => exact fun hc => absurd hc hnot
      | threadCreate => trivial
      | request r => cases r <;> first | exact fun hc => absurd hc hnot |
          exact fun _ hc => absurd hc hnot
    · intro _ p hp i hi
      show if i = s.currentThread then _ else _
      have hne : i ≠ s.currentThread := by
        rw [hidle]
        exact hcfg.ne_idle_of_owns hp hi
      rw [if_neg hne]
      exact step_remaining_of_ne hcfg h hp hi (htab p hp i hi) hne hs

end Step

/-! ## Runs -/

/-- **Exact time accounting.** In every run from start-up, every step is accounted for exactly if
and only if every step is charged right. -/
theorem accounting_exact_iff {cfg : Config} (hcfg : cfg.PartitionsOk) {s₀ s : State}
    {evs : List Event} (hboot : Booted cfg s₀) (hrun : Run (step cfg) (fun _ _ => True) s₀ evs s) :
    Steps (step cfg) (Accounted cfg) evs s₀ ↔
      Steps (step cfg) (fun s e _ => ChargedRight cfg s e) evs s₀ := by
  refine hrun.steps_congr (I := fun s => Inv cfg s ∧
    ∀ p < cfg.nbPartitions, ∀ i, cfg.Owns p i → (s.procArray i).Tabled cfg i) ?_ ?_ ?_
  · exact ⟨hboot.inv hcfg, fun p hp i hi => hboot.tabled hcfg hp hi⟩
  · rintro s e s' ⟨hinv, htab⟩ _ hs _
    exact ⟨step_inv hcfg hinv hs, fun p hp i hi =>
      step_tabled hcfg hinv.toReady (htab p hp i hi) hs⟩
  · rintro s e s' ⟨hinv, htab⟩ _ hs
    exact accounted_iff hcfg hinv htab hs

/-- The deployed configuration, with a thread of the first partition running. -/
theorem accounting_exact_iff_deployed :
    ∃ s₀ s, Booted deployment s₀ ∧
      Run (step deployment) (fun _ _ => True) s₀
        [.tick, .threadCreate, .request (.setPartitionMode partModeNormal), .tick] s ∧
      (Steps (step deployment) (Accounted deployment)
          [.tick, .threadCreate, .request (.setPartitionMode partModeNormal), .tick] s₀ ↔
        Steps (step deployment) (fun s e _ => ChargedRight deployment s e)
          [.tick, .threadCreate, .request (.setPartitionMode partModeNormal), .tick] s₀) := by
  obtain ⟨s₀, s, hinit, hrun, _⟩ : ∃ s₀ s, systemInit deployment = .ok s₀ ∧
      Run (step deployment) (fun _ _ => True) (schedulerThreadStart s₀)
        [.tick, .threadCreate, .request (.setPartitionMode partModeNormal), .tick] s ∧
      (s.procArray 1).remainingTimeCapacity = 999 := by
    apply exists_of_boot
    decide +kernel
  have hboot : Booted deployment (schedulerThreadStart s₀) := ⟨s₀, hinit, Or.inr rfl⟩
  exact ⟨_, s, hboot, hrun, accounting_exact_iff deployment_partitionsOk hboot hrun⟩

/-- The budget of thread `i` before and after an event. -/
def budgetStep (cfg : Config) (i : Nat) (s : State) (e : Event) : Option (Nat × Nat) :=
  match step cfg s e with
  | .ok s' =>
      some ((s.procArray i).remainingTimeCapacity, (s'.procArray i).remainingTimeCapacity)
  | .error _ => none

/-- Two steps that are not accounted for. In the deployed configuration thread 1, running with 1000
units left, sets its own priority and is charged for it. And where the next slot belongs to a
partition that is still in its start mode, the tick that ends the slot of thread 3 is free. -/
theorem accounting_fails :
    (∃ s s', Reached deployment (fun _ _ => True)
        [.tick, .threadCreate, .request (.setPartitionMode partModeNormal)] s ∧
      step deployment s (.request (.setPriority 1 100)) = .ok s' ∧
      ¬Accounted deployment s (.request (.setPriority 1 100)) s') ∧
    (∃ s s', Reached shortSlots (fun _ _ => True)
        [.tick, .threadCreate, .request (.setPartitionMode partModeNormal)] s ∧
      step shortSlots s .tick = .ok s' ∧ ¬Accounted shortSlots s .tick s') := by
  constructor
  · obtain ⟨s, hs, hcur, hbudget⟩ : ∃ s, Reached deployment (fun _ _ => True)
        [.tick, .threadCreate, .request (.setPartitionMode partModeNormal)] s ∧
        s.currentThread = 1 ∧
        budgetStep deployment 1 s (.request (.setPriority 1 100)) = some (1000, 999) := by
      apply Reached.exists_of_boot
      decide +kernel
    rw [budgetStep] at hbudget
    cases hstep : step deployment s (.request (.setPriority 1 100)) with
    | error f => simp [hstep] at hbudget
    | ok s' =>
        refine ⟨s, s', hs, hstep, fun hacc => ?_⟩
        simp only [hstep, Option.some.injEq, Prod.mk.injEq] at hbudget
        have hone := hacc 0 (by decide) 1 ⟨by decide, by decide⟩
        simp only [hcur, CurrentAccounted, if_true] at hone
        omega
  · obtain ⟨s, hs, ⟨hcur, hcharge⟩, hbudget⟩ : ∃ s, Reached shortSlots (fun _ _ => True)
        [.tick, .threadCreate, .request (.setPartitionMode partModeNormal)] s ∧
        (s.currentThread = 3 ∧ Chargeable shortSlots s) ∧
        budgetStep shortSlots 3 s .tick = some (2, 2) := by
      apply Reached.exists_of_boot
      decide +kernel
    rw [budgetStep] at hbudget
    cases hstep : step shortSlots s .tick with
    | error f => simp [hstep] at hbudget
    | ok s' =>
        refine ⟨s, s', hs, hstep, fun hacc => ?_⟩
        simp only [hstep, Option.some.injEq, Prod.mk.injEq] at hbudget
        have hone := hacc 1 (by decide) 3 ⟨by decide, by decide⟩
        simp only [hcur, CurrentAccounted, if_true, hcharge] at hone
        omega

end PartitionSeL4
