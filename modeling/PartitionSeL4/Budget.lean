import PartitionSeL4.Records

/-!
# Time budgets

A thread's record carries its budget: `remaining_time_capacity` is charged in `pok_elect_thread`
and refilled to `timecap` once per period, when `next_activation` has passed. `Process.Funded`
counts the refills: after `r` of them the next one is due at `(r + 1) * period`, and what has been
used together with what is left is at most `(1 + r) * timecap`. Charging, refilling and every
request but `SYS_RESUME` keep this, so that a thread is current for at most `timecap` ticks per
period (`cpu_budget`).
-/

namespace PartitionSeL4

open Lib

/-! ## One record -/

/-- After `r` refills, the next is due one period later, and the thread has used `count` units of
the `1 + r` budgets it was given. A thread with nothing left is not runnable. -/
def Process.Funded (t : Process) (now count : Nat) : Prop :=
  ∃ r, t.nextActivation = t.period * (r + 1) ∧ t.period * r ≤ now ∧
    count + t.remainingTimeCapacity ≤ t.timecap * (1 + r) ∧
    (t.status = .runnable → 0 < t.remainingTimeCapacity)

namespace Process.Funded

variable {t : Process} {now count : Nat}

theorem mono {now' : Nat} (h : t.Funded now count) (hle : now ≤ now') : t.Funded now' count := by
  obtain ⟨r, hnext, hdue, hsum, hrun⟩ := h
  exact ⟨r, hnext, Nat.le_trans hdue hle, hsum, hrun⟩

/-- A refill happens only to an exhausted thread, and only when its period is over. -/
theorem activate (h : t.Funded now count) (hsound : t.Sound) (hcap : 0 < t.timecap)
    (hper : 0 < t.period) (hword : (now / t.period + 1) * t.period < 2 ^ 64) :
    (t.activate now).Funded now count := by
  rw [hsound.activate_eq]
  unfold Process.replenish
  split_ifs with hdue
  · obtain ⟨r, hnext, _, hsum, _⟩ := h
    obtain ⟨hwait, hnow⟩ := hdue
    have hzero := hsound.exhausted hwait
    rw [hnext] at hnow
    have hquot : r + 1 ≤ now / t.period :=
      (Nat.le_div_iff_mul_le hper).2 (by rwa [Nat.mul_comm])
    have hmul := Nat.mul_le_mul_right t.period (Nat.add_le_add_right hquot 1)
    have hnext' : t.nextActivation + t.period = t.period * (r + 1 + 1) := by
      rw [hnext]
      ring
    have hlt : t.period * (r + 1 + 1) < 2 ^ 64 := by
      rw [Nat.mul_comm]
      omega
    have hsum' : count + t.timecap ≤ t.timecap * (1 + (r + 1)) := by
      have hexp : t.timecap * (1 + (r + 1)) = t.timecap * (1 + r) + t.timecap := by ring
      omega
    refine ⟨r + 1, ?_, hnow, hsum', fun _ => hcap⟩
    show u64 (t.nextActivation + t.period) = t.period * (r + 1 + 1)
    rw [hnext', u64_of_lt hlt]
  · exact h

theorem charge_used (h : t.Funded now count) (hpos : 0 < t.remainingTimeCapacity) :
    t.charge.Funded now (count + 1) := by
  obtain ⟨r, hnext, hdue, hsum, _⟩ := h
  unfold Process.charge
  simp only [hpos, if_true]
  refine ⟨r, hnext, hdue, ?_, ?_⟩
  · show count + 1 + (t.remainingTimeCapacity - 1) ≤ t.timecap * (1 + r)
    omega
  · show (if t.remainingTimeCapacity - 1 = 0 then _ else _) = _ → 0 < t.remainingTimeCapacity - 1
    split_ifs with hzero
    · intro h
      cases h
    · intro _
      omega

theorem charge (h : t.Funded now count) : t.charge.Funded now count := by
  by_cases hpos : 0 < t.remainingTimeCapacity
  · obtain ⟨r, hnext, hdue, hsum, hrun⟩ := h.charge_used hpos
    exact ⟨r, hnext, hdue, by omega, hrun⟩
  · obtain ⟨r, hnext, hdue, hsum, _⟩ := h
    unfold Process.charge
    simp only [hpos, if_false]
    exact ⟨r, hnext, hdue, hsum, fun h => by cases h⟩

end Process.Funded

/-- The events other than `SYS_RESUME`. -/
def NoResume : Event → Prop
  | .request (.resume _) => False
  | _ => True

instance : DecidablePred NoResume
  | .tick | .threadCreate => inferInstanceAs (Decidable True)
  | .request r => match r with
      | .resume _ => inferInstanceAs (Decidable False)
      | .giveUp | .setPartitionMode _ | .stopSelf | .suspendSelf | .setPriority _ _ | .suspend _ =>
          inferInstanceAs (Decidable True)

theorem Process.Funded.effect {t : Process} {now count : Nat} (h : t.Funded now count) (s : State)
    {r : ApexRequest} (hr : NoResume (.request r)) : (r.effect s t).Funded now count := by
  obtain ⟨k, hnext, hdue, hsum, hrun⟩ := h
  cases r with
  | giveUp =>
      refine ⟨k, hnext, hdue, ?_, fun h => by cases h⟩
      show count + 0 ≤ t.timecap * (1 + k)
      omega
  | setPartitionMode | stopSelf | suspendSelf | suspend =>
      exact ⟨k, hnext, hdue, hsum, fun h => by cases h⟩
  | setPriority id prio => exact ⟨k, hnext, hdue, hsum, hrun⟩
  | resume id => cases hr

/-! ## One event -/

section Step

variable {cfg : Config} {s s' : State} {e : Event} {p i : Nat} {count : Nat}

theorem Inv.entry_funded (hcfg : cfg.PartitionsOk) (h : Inv cfg s) (hnr : NoResume e)
    (hf : (s.procArray i).Funded s.tickCounter count) :
    ((entry cfg s e).procArray i).Funded s.tickCounter count := by
  cases e with
  | tick => exact hf
  | threadCreate => exact hf
  | request r =>
      rw [h.toReady.entry_procArray hcfg]
      split_ifs
      · exact hf.effect s hnr
      · exact hf

theorem Ready.activated_funded (h : Ready cfg s) {q : Nat}
    (hp : p < cfg.nbPartitions) (hi : cfg.Owns p i) (htab : (s.procArray i).Tabled cfg i)
    (hcap : 0 < cfg.timeArray.getD i 0) (hper : 0 < cfg.periodArray.getD i 0)
    (hword : (s.tickCounter / cfg.periodArray.getD i 0 + 1) * cfg.periodArray.getD i 0 < 2 ^ 64)
    (hf : (s.procArray i).Funded s.tickCounter count) :
    (activatedThread s p q i).Funded s.tickCounter count := by
  unfold activatedThread
  split_ifs
  · rw [← htab.timecap] at hcap
    rw [← htab.period] at hper hword
    exact hf.activate (h.sound p hp i hi) hcap hper hword
  · exact hf

theorem Process.Funded.endTime {t : Process} {now : Nat} (h : t.Funded now count) (endTime : Nat) :
    Process.Funded { t with endTime := endTime } now count := h

variable (hcfg : cfg.PartitionsOk) (h : Inv cfg s) (hp : p < cfg.nbPartitions)
  (hi : cfg.Owns p i) (htab : (s.procArray i).Tabled cfg i) (hcap : 0 < cfg.timeArray.getD i 0)
  (hper : 0 < cfg.periodArray.getD i 0) (hclock : s.tickCounter ≤ (entry cfg s e).tickCounter)
  (hword : ((entry cfg s e).tickCounter / cfg.periodArray.getD i 0 + 1) *
    cfg.periodArray.getD i 0 < 2 ^ 64)
  (hf : (s.procArray i).Funded s.tickCounter count)

include hcfg h hp hi htab hcap hper hclock hword hf

theorem Inv.entry_activated (hnr : NoResume e) :
    (activatedThread (entry cfg s e) p (electedPartition cfg (entry cfg s e)) i).Funded
      (entry cfg s e).tickCounter count := by
  have hready := h.toReady.enter hcfg e
  exact hready.activated_funded hp hi (h.toReady.entry_tabled hcfg e htab) hcap hper hword
    ((h.entry_funded hcfg hnr hf).mono hclock)

/-- Every event but `SYS_RESUME` keeps the account of a thread. -/
theorem step_funded (hnr : NoResume e) (hcreate : e ≠ .threadCreate ∨ count = 0)
    (hs : step cfg s e = .ok s') : (s'.procArray i).Funded s'.tickCounter count := by
  have hact := h.entry_activated hcfg hp hi htab hcap hper hclock hword hf hnr
  rcases step_cases hs with ⟨_, hsched⟩ | ⟨_, rfl⟩ | ⟨rfl, _, rfl⟩
  · have hready := h.toReady.enter hcfg e
    obtain ⟨_, new, _, rfl⟩ := pokSched_eq_ok_iff.1 hsched
    rw [afterSched_procArray, afterSched_tickCounter,
      hready.schedThread_eq hcfg hp (hready.electedPartition_lt hcfg) hi]
    apply Process.Funded.endTime
    split_ifs
    · exact hact.charge
    · exact hact
  · exact hf
  · rw [createState_procArray, createState_tickCounter]
    split_ifs with hid
    · -- A new thread starts with a full budget, due to be refilled one period on.
      have hzero : count = 0 := hcreate.resolve_left (by simp)
      subst hid hzero
      exact ⟨0, (Nat.mul_one _).symm, by simp, by simp [createdThread], fun _ => hcap⟩
    · exact hf

/-- A tick that finds the thread running charges it, if a partition in normal mode is elected. -/
theorem step_funded_used (he : e = .tick) (hcur : s.currentThread = i)
    (hcharge : Chargeable cfg s) (hrun : (s.procArray i).status = .runnable)
    (hmode : ((entry cfg s e).partArray (electedPartition cfg (entry cfg s e))).mode = .normal)
    (hs : step cfg s e = .ok s') : (s'.procArray i).Funded s'.tickCounter (count + 1) := by
  subst he
  have hact := h.entry_activated hcfg hp hi htab hcap hper hclock hword hf trivial
  have hready := h.toReady.enter hcfg .tick
  obtain ⟨_, new, _, rfl⟩ := pokSched_eq_ok_iff.1 hs
  show ((afterSched cfg (entry cfg s .tick) new).procArray i).Funded _ _
  rw [afterSched_procArray, hready.schedThread_eq hcfg hp (hready.electedPartition_lt hcfg) hi]
  apply Process.Funded.endTime
  rw [if_pos ⟨hmode, hcharge, hcur.symm⟩]
  -- A runnable thread is left alone by the activation loop.
  have hsame : ∀ q, activatedThread (entry cfg s .tick) p q i = s.procArray i := by
    intro q
    rw [activatedThread, entry_tick_procArray, (h.sound p hp i hi).activate_eq]
    simp [Process.replenish, hrun]
  rw [hsame] at hact ⊢
  obtain ⟨_, _, _, _, hleft⟩ := hf
  exact hact.charge_used (hleft hrun)

end Step

/-! ## Runs -/

/-- The counters of a thread of period `period` do not overflow up to tick `t`. -/
def NoOverflow (period t : Nat) : Prop := (t / period + 1) * period < 2 ^ 64

theorem NoOverflow.mono {period t t' : Nat} (h : NoOverflow period t') (hle : t ≤ t') :
    NoOverflow period t := by
  have hmul : (t / period + 1) * period ≤ (t' / period + 1) * period :=
    Nat.mul_le_mul_right _ (Nat.add_le_add_right (Nat.div_le_div_right hle) 1)
  exact Nat.lt_of_le_of_lt hmul h

theorem NoOverflow.lt_word {period t : Nat} (h : NoOverflow period t) (hper : 0 < period) :
    t < 2 ^ 64 :=
  Nat.lt_trans (TimeTable.isLeast_frame hper).1.2 h

theorem ticks_le_snoc (evs : List Event) (e : Event) : ticks evs ≤ ticks (evs ++ [e]) := by
  simp [ticks]

theorem Reached.entry_tickCounter {cfg : Config} {ok : State → Event → Prop} {evs : List Event}
    {s : State} (h : Reached cfg ok evs s) (e : Event) (hlt : ticks (evs ++ [e]) < 2 ^ 64) :
    s.tickCounter = ticks evs ∧ (entry cfg s e).tickCounter = ticks (evs ++ [e]) := by
  have hle := ticks_le_snoc evs e
  have hnow : s.tickCounter = ticks evs := by
    rw [h.tickCounter, u64_of_lt (by omega)]
  refine ⟨hnow, ?_⟩
  rw [PartitionSeL4.entry_tickCounter, hnow]
  by_cases he : e = .tick
  · subst he
    rw [ticks_snoc_tick] at hlt ⊢
    rw [if_pos rfl, u64_of_lt hlt]
  · rw [if_neg he, ticks_snoc_of_ne he]

section Runs

variable {cfg : Config} (hcfg : cfg.PartitionsOk) {p i : Nat} (hp : p < cfg.nbPartitions)
  (hi : cfg.Owns p i) (hcap : 0 < cfg.timeArray.getD i 0) (hper : 0 < cfg.periodArray.getD i 0)

include hcfg hp hi hcap hper

theorem Reached.funded {evs : List Event} {s : State}
    (h : Reached cfg (fun s e => Allowed s e ∧ NoResume e) evs s)
    (hword : NoOverflow (cfg.periodArray.getD i 0) (ticks evs)) :
    (s.procArray i).Funded s.tickCounter 0 := by
  obtain ⟨s₀, hboot, hrun⟩ := h
  refine hrun.history (I := fun evs s => NoOverflow (cfg.periodArray.getD i 0) (ticks evs) →
    (s.procArray i).Funded s.tickCounter 0) ?_ ?_ hword
  · intro _
    obtain ⟨t, ht⟩ := (hboot.arrayStart hcfg).procArray i (hcfg.lt_nbThreads hp hi)
    rw [ht]
    exact ⟨0, (Nat.mul_one _).symm, by simp, by simp [Process.reset], fun h => by cases h⟩
  · intro evs s e s' hrun ih hok hs hword
    have hreach : Reached cfg (fun s e => Allowed s e ∧ NoResume e) evs s := ⟨s₀, hboot, hrun⟩
    obtain ⟨hnow, hentry⟩ := hreach.entry_tickCounter e (hword.lt_word hper)
    have hle := ticks_le_snoc evs e
    exact step_funded hcfg (hreach.inv hcfg) hp hi (hreach.tabled hcfg hp hi)
      hcap hper (by omega) (by rw [hentry]; exact hword) (ih (hword.mono hle)) hok.2
      (Or.inr rfl) hs

end Runs

/-- The events of a run in which all partitions are in normal mode, `SYS_RESUME` apart. -/
def BudgetEvent : Event → Prop
  | .tick => True
  | .request r => match r with
      | .giveUp | .stopSelf | .suspendSelf | .suspend _ | .setPriority _ _ => True
      | .setPartitionMode _ | .resume _ => False
  | .threadCreate => False

instance : DecidablePred BudgetEvent
  | .tick => inferInstanceAs (Decidable True)
  | .threadCreate => inferInstanceAs (Decidable False)
  | .request r => match r with
      | .giveUp | .stopSelf | .suspendSelf | .suspend _ | .setPriority _ _ =>
          inferInstanceAs (Decidable True)
      | .setPartitionMode _ | .resume _ => inferInstanceAs (Decidable False)

theorem BudgetEvent.allowed {s : State} {e : Event} (h : BudgetEvent e) :
    Allowed s e ∧ NoResume e ∧ e ≠ .threadCreate := by
  cases e with
  | tick => exact ⟨trivial, trivial, by simp⟩
  | threadCreate => cases h
  | request r => cases r <;> first | exact ⟨trivial, trivial, by simp⟩ | cases h

/-- Whether a tick finds thread `i` current. -/
def foundCurrent (i : Nat) (s : State) (e : Event) : Nat :=
  if e = .tick ∧ s.currentThread = i then 1 else 0

/-- A thread of a partition in normal mode, other than its main thread, is charged for the tick that
finds it current. -/
theorem Inv.current_runnable {cfg : Config} {s : State} (hcfg : cfg.PartitionsOk)
    (h : Inv cfg s) {p i : Nat} (hp : p < cfg.nbPartitions) (hi : cfg.Owns p i)
    (hmain : i ≠ cfg.threadMain p) (hmode : (s.partArray p).mode = .normal)
    (hcur : s.currentThread = i) :
    Chargeable cfg s ∧ (s.procArray i).status = .runnable := by
  have hidle := hcfg.ne_idle_of_owns hp hi
  have hpart : p = s.currentPartition := by
    rcases h.current with hown | heq
    · rw [hcur] at hown
      exact hcfg.owns_unique hp h.currentPartition_lt hi hown
    · exact absurd (hcur.symm.trans heq) hidle
  subst hpart
  refine ⟨⟨by rw [hcur]; exact hidle, ?_⟩, ?_⟩
  · rw [h.layout.threadMain _ hp, hcur]
    exact hmain
  · rcases h.elected.normal hmode with ⟨_, hrun⟩ | heq
    · rwa [hcur] at hrun
    · exact absurd (hcur.symm.trans heq) hidle

/-- **CPU budget.** Start in a state that the scheduler reached without a `SYS_RESUME` and in which
all partitions are in normal mode. From there on let ticks and requests other than `SYS_RESUME`
come in any order. Then a thread with a period and a time capacity, other than a main thread, was
current at no more than `timecap * (1 + t / period)` of the ticks that arrived up to tick `t`, as
long as the 64-bit counters do not overflow. -/
theorem cpu_budget {cfg : Config} (hcfg : cfg.PartitionsOk) {evs₁ evs₂ : List Event}
    {s₁ s₂ : State} (h₁ : Reached cfg (fun s e => Allowed s e ∧ NoResume e) evs₁ s₁)
    (hnormal : ∀ p < cfg.nbPartitions, (s₁.partArray p).mode = .normal)
    (h₂ : Run (step cfg) (fun _ e => BudgetEvent e) s₁ evs₂ s₂) {p i : Nat}
    (hp : p < cfg.nbPartitions) (hi : cfg.Owns p i) (hmain : i ≠ cfg.threadMain p)
    (hper : 0 < cfg.periodArray.getD i 0) (hcap : 0 < cfg.timeArray.getD i 0)
    (hword : NoOverflow (cfg.periodArray.getD i 0) (ticks (evs₁ ++ evs₂))) :
    tally (step cfg) (foundCurrent i) evs₂ s₁ ≤
      cfg.timeArray.getD i 0 * (1 + ticks (evs₁ ++ evs₂) / cfg.periodArray.getD i 0) := by
  -- Every state of the second part of the run is one reached.
  have hreached : ∀ {evs s}, Run (step cfg) (fun _ e => BudgetEvent e) s₁ evs s →
      Reached cfg Allowed (evs₁ ++ evs) s := by
    intro evs s hrun
    obtain ⟨s₀, hboot, hrun₁⟩ := h₁
    exact ⟨s₀, hboot, (hrun₁.mono fun _ _ h => h.1).trans (hrun.mono fun _ _ h => h.allowed.1)⟩
  have hinv := h₂.history (I := fun evs s =>
    NoOverflow (cfg.periodArray.getD i 0) (ticks (evs₁ ++ evs)) →
      (∀ p < cfg.nbPartitions, (s.partArray p).mode = .normal) ∧
        (s.procArray i).Funded s.tickCounter (tally (step cfg) (foundCurrent i) evs s₁)) ?_ ?_ hword
  · -- Read the bound off the account at the end of the run.
    obtain ⟨_, r, _, hdue, hsum, _⟩ := hinv
    have hreach := hreached h₂
    have htab := hreach.tabled hcfg hp hi
    rw [hreach.tickCounter, u64_of_lt (hword.lt_word hper), htab.period] at hdue
    rw [htab.timecap] at hsum
    have hr : r ≤ ticks (evs₁ ++ evs₂) / cfg.periodArray.getD i 0 :=
      (Nat.le_div_iff_mul_le hper).2 (by rwa [Nat.mul_comm])
    have hmul := Nat.mul_le_mul_left (cfg.timeArray.getD i 0) (Nat.add_le_add_left hr 1)
    omega
  · intro hword
    rw [List.append_nil] at hword
    exact ⟨hnormal, h₁.funded hcfg hp hi hcap hper hword⟩
  · intro evs s e s' hrun ih he hs hword
    obtain ⟨hok, hnr, hne⟩ := he.allowed (s := s)
    have hreach := hreached hrun
    rw [← List.append_assoc] at hword
    have hle := ticks_le_snoc (evs₁ ++ evs) e
    obtain ⟨hnow, hentry⟩ := hreach.entry_tickCounter e (hword.lt_word hper)
    obtain ⟨hmodes, hf⟩ := ih (hword.mono hle)
    have hinv := hreach.inv hcfg
    have htab := hreach.tabled hcfg hp hi
    refine ⟨fun q hq => step_mode_normal hs (hmodes q hq), ?_⟩
    rw [tally_snoc hrun, foundCurrent]
    split_ifs with hfound
    · obtain ⟨htick, hcur⟩ := hfound
      obtain ⟨hcharge, hrunnable⟩ :=
        hinv.current_runnable hcfg hp hi hmain (hmodes p hp) hcur
      refine step_funded_used hcfg hinv hp hi htab hcap hper (by omega)
        (by rw [hentry]; exact hword) hf htick hcur hcharge hrunnable ?_ hs
      rw [entry_partArray, htick, if_neg (by simp [Event.setsMode])]
      exact hmodes _ ((hinv.toReady.enter hcfg .tick).electedPartition_lt hcfg)
    · exact step_funded hcfg hinv hp hi htab hcap hper (by omega) (by rw [hentry]; exact hword)
        hf hnr (Or.inl hne) hs

/-- Two slots of one tick each, and threads with two units of time in each period of five. -/
def shortSlots : Config :=
  { deployment with
    slots := [1, 1]
    majorFrame := 2
    periodArray := [5, 5, 5, 5, 5]
    timeArray := [2, 2, 2, 2, 2] }

/-- Both partitions of that table create a thread and enter their normal mode in the first two
ticks.
In the next two ticks thread 1 is current once. -/
theorem cpu_budget_shortSlots :
    ∃ s₁ s₂, Reached shortSlots (fun s e => Allowed s e ∧ NoResume e)
        [.tick, .threadCreate, .request (.setPartitionMode partModeNormal), .tick, .threadCreate,
          .request (.setPartitionMode partModeNormal)] s₁ ∧
      Run (step shortSlots) (fun _ e => BudgetEvent e) s₁ [.tick, .tick] s₂ ∧
      tally (step shortSlots) (foundCurrent 1) [.tick, .tick] s₁ = 1 ∧ 1 ≤ 2 * (1 + 4 / 5) := by
  obtain ⟨s₁, h₁, hnormal, hsome, hcount⟩ :
      ∃ s₁, Reached shortSlots (fun s e => Allowed s e ∧ NoResume e)
        [.tick, .threadCreate, .request (.setPartitionMode partModeNormal), .tick, .threadCreate,
          .request (.setPartitionMode partModeNormal)] s₁ ∧
        (∀ p < shortSlots.nbPartitions, (s₁.partArray p).mode = .normal) ∧
        (Run.exec (step shortSlots) (fun _ e => BudgetEvent e) [.tick, .tick] s₁).isSome ∧
        tally (step shortSlots) (foundCurrent 1) [.tick, .tick] s₁ = 1 := by
    apply Reached.exists_of_boot
    decide +kernel
  obtain ⟨s₂, h₂⟩ := Option.isSome_iff_exists.1 hsome
  have hcfg : shortSlots.PartitionsOk := ⟨by decide, by decide, by unfold Config.Owns; decide,
    by decide, by decide, by decide, by decide⟩
  have hbound := cpu_budget hcfg h₁ hnormal (Run.of_exec h₂) (p := 0) (i := 1) (by decide)
    ⟨by decide, by decide⟩ (by decide) (by decide) (by decide) (by unfold NoOverflow; decide)
  rw [hcount] at hbound
  exact ⟨s₁, s₂, h₁, Run.of_exec h₂, hcount, hbound⟩

end PartitionSeL4
