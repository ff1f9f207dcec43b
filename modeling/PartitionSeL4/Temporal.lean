import PartitionSeL4.WellFormed

/-!
# Temporal partitioning

The slot index, the next deadline and the next major frame are three counters that
`pok_elect_partition` moves on separately. `Clock` ties the first two to the absolute time, `Frame`
the third; a tick keeps both (`Clock.step`, `Frame.step`) as long as the 64-bit counters do not
overflow, and a request cannot change them, because no deadline is pending between two ticks.

`temporal_partitioning` is the result. The arithmetic of the counters does wrap: at the tick at
which the last full frame below `2^64` ends, and in a table whose slots sum up to the major frame
only modulo `2^64` (`temporal_partitioning_wraps`).
-/

namespace PartitionSeL4

open Lib TimeTable

/-- A usable slot table: slots of positive length. -/
structure Config.SlotsOk (cfg : Config) : Prop where
  nonempty : cfg.slots ≠ []
  pos : ∀ x ∈ cfg.slots, 0 < x

theorem Config.SlotsOk.sum_pos {cfg : Config} (h : cfg.SlotsOk) : 0 < cfg.slots.sum := by
  obtain ⟨x, xs, hx⟩ := List.exists_cons_of_ne_nil h.nonempty
  have hpos := h.pos x (by rw [hx]; exact List.mem_cons_self)
  rw [hx, List.sum_cons]
  omega

/-! ## The slot counters -/

/-- The slot counters are right for time `t`. -/
structure Clock (cfg : Config) (t : Nat) (s : State) : Prop where
  tickCounter : s.tickCounter = t
  sync : Sync cfg.slots t s.currentSlot s.nextDeadline

/-- The slot counters after a call of the scheduler are those of `pok_elect_partition`. -/
theorem slotCounters_of_pokSched {cfg : Config} {r s' : State} (h : pokSched cfg r = .ok s') :
    s'.tickCounter = r.tickCounter ∧ s'.currentPartition = electedPartition cfg r ∧
      s'.currentSlot = (pokElectPartition cfg r).2.currentSlot ∧
      s'.nextDeadline = (pokElectPartition cfg r).2.nextDeadline ∧
      s'.nextMajorFrame = (pokElectPartition cfg r).2.nextMajorFrame := by
  obtain ⟨_, e, _, rfl⟩ := pokSched_eq_ok_iff.1 h
  exact ⟨rfl, rfl, rfl, rfl, rfl⟩

namespace Clock

variable {cfg : Config} {t : Nat} {s s' : State}

theorem lt_deadline (h : Clock cfg t s) : s.tickCounter < s.nextDeadline := by
  rw [h.tickCounter]
  exact h.sync.lt_deadline

/-- **Requests and creations leave the slot counters alone.** -/
theorem frame (h : Clock cfg t s) {e : Event} (he : e ≠ .tick) (hs : step cfg s e = .ok s') :
    s'.tickCounter = s.tickCounter ∧ s'.currentPartition = s.currentPartition ∧
      s'.currentSlot = s.currentSlot ∧ s'.nextDeadline = s.nextDeadline ∧
      s'.nextMajorFrame = s.nextMajorFrame := by
  rcases step_cases hs with ⟨_, hsched⟩ | ⟨_, rfl⟩ | ⟨_, _, rfl⟩
  · have htick : (entry cfg s e).tickCounter = s.tickCounter := by
      rw [entry_tickCounter, if_neg he]
    have hlt : (entry cfg s e).tickCounter < (entry cfg s e).nextDeadline := by
      rw [htick, entry_nextDeadline]
      exact h.lt_deadline
    obtain ⟨h1, h2, h3, h4, h5⟩ := slotCounters_of_pokSched hsched
    rw [pokElectPartition_of_lt hlt] at h3 h4 h5
    rw [electedPartition_of_lt hlt] at h2
    simp only [entry_currentPartition, entry_currentSlot, entry_nextDeadline,
      entry_nextMajorFrame] at h2 h3 h4 h5
    exact ⟨h1.trans htick, h2, h3, h4, h5⟩
  · exact ⟨rfl, rfl, rfl, rfl, rfl⟩
  · exact ⟨rfl, rfl, rfl, rfl, rfl⟩

theorem tick (hcfg : cfg.SlotsOk) (hslots : cfg.nbSlots < 2 ^ 8) (h : Clock cfg t s)
    (hword : slotEnd cfg.slots (t + 1) < 2 ^ 64) (hs : step cfg s .tick = .ok s') :
    Clock cfg (t + 1) s' := by
  have hnow : (entry cfg s .tick).tickCounter = t + 1 := by
    have hlt := lt_slotEnd hcfg.sum_pos (t + 1)
    rw [entry_tickCounter, if_pos rfl, h.tickCounter, u64_of_lt (by omega)]
  obtain ⟨h1, _, h3, h4, _⟩ := slotCounters_of_pokSched (r := entry cfg s .tick) hs
  rw [hnow] at h1
  by_cases hpast : s.nextDeadline ≤ t + 1
  · -- The deadline is reached: the next slot starts.
    have hsync := h.sync.advance hcfg.pos hpast
    have hd := hsync.eq_slotEnd
    have hmod : (s.currentSlot + 1) % cfg.slots.length < 2 ^ 8 :=
      Nat.lt_trans (Nat.mod_lt _ (by have := hsync.covers.1; omega)) hslots
    rw [pokElectPartition, hnow, if_pos (by rw [entry_nextDeadline]; exact hpast)] at h3 h4
    simp only [entry_currentSlot, entry_nextDeadline, Config.nbSlots, u8_of_lt hmod] at h3 h4
    rw [u64_of_lt (by omega)] at h4
    exact ⟨h1, by rw [h3, h4]; exact hsync⟩
  · have hlt : (entry cfg s .tick).tickCounter < (entry cfg s .tick).nextDeadline := by
      rw [hnow, entry_nextDeadline]
      omega
    rw [pokElectPartition_of_lt hlt] at h3 h4
    rw [entry_currentSlot] at h3
    rw [entry_nextDeadline] at h4
    exact ⟨h1, by rw [h3, h4]; exact h.sync.stay (by omega)⟩

end Clock

/-- **The slot counters are right** after every run that the 64-bit counters can follow. -/
theorem Reached.clock {cfg : Config} (hcfg : cfg.SlotsOk) {ok : State → Event → Prop}
    {evs : List Event} {s : State} (h : Reached cfg ok evs s)
    (hword : slotEnd cfg.slots (ticks evs) < 2 ^ 64) : Clock cfg (ticks evs) s := by
  obtain ⟨s₀, hboot, hrun⟩ := h
  have hstart := hboot.clockStart
  refine hrun.history
    (I := fun evs s => slotEnd cfg.slots (ticks evs) < 2 ^ 64 → Clock cfg (ticks evs) s)
    ?_ ?_ hword
  · intro _
    refine ⟨hstart.tickCounter, ?_⟩
    rw [hstart.currentSlot, hstart.nextDeadline]
    exact Sync.init hcfg.pos hcfg.nonempty
  · intro evs s e s' _ ih _ hs hword
    by_cases he : e = .tick
    · subst he
      rw [ticks_snoc_tick] at hword ⊢
      have hle := slotEnd_mono hcfg.sum_pos (Nat.le_add_right (ticks evs) 1)
      exact (ih (by omega)).tick hcfg hstart.nbSlots_lt hword hs
    · rw [ticks_snoc_of_ne he] at hword ⊢
      have hclock := ih hword
      obtain ⟨h1, _, h3, h4, _⟩ := hclock.frame he hs
      exact ⟨h1.trans hclock.tickCounter, by rw [h3, h4]; exact hclock.sync⟩

/-! ## The current partition -/

theorem step_alloc {cfg : Config} {s s' : State} {e : Event}
    (h : s.currentPartition = cfg.slotsAllocation.getD s.currentSlot 0)
    (hs : step cfg s e = .ok s') :
    s'.currentPartition = cfg.slotsAllocation.getD s'.currentSlot 0 := by
  rcases step_cases hs with ⟨_, hsched⟩ | ⟨_, rfl⟩ | ⟨_, _, rfl⟩
  · obtain ⟨_, hpart, hslot, _, _⟩ := slotCounters_of_pokSched hsched
    rw [hpart, hslot, electedPartition, pokElectPartition]
    by_cases hpast : (entry cfg s e).nextDeadline ≤ (entry cfg s e).tickCounter
    · rw [if_pos hpast]
    · rw [if_neg hpast, entry_currentPartition, entry_currentSlot]
      exact h
  · exact h
  · exact h

/-- The current partition is the one of the current slot, if partition 0 has the first slot. -/
theorem Reached.alloc {cfg : Config} (hfirst : cfg.slotsAllocation.getD 0 0 = 0)
    {ok : State → Event → Prop} {evs : List Event} {s : State} (h : Reached cfg ok evs s) :
    s.currentPartition = cfg.slotsAllocation.getD s.currentSlot 0 := by
  obtain ⟨s₀, hboot, hrun⟩ := h
  have hstart := hboot.clockStart
  refine hrun.invariant (I := fun s =>
    s.currentPartition = cfg.slotsAllocation.getD s.currentSlot 0) ?_ ?_
  · rw [hstart.currentSlot, hfirst]
    rcases hstart.currentPartition with hp | hp <;> rw [hp]
    exact hfirst
  · intro s e s' hI _ hs
    exact step_alloc hI hs

/-! ## The major frame -/

/-- The next major frame is right for time `t`. -/
def Frame (cfg : Config) (t : Nat) (s : State) : Prop :=
  s.nextMajorFrame = (t / cfg.majorFrame + 1) * cfg.majorFrame

/-- A tick keeps the next major frame right. The scheduler looks at it only at a deadline, but a
major frame ends only at a deadline. -/
theorem Frame.tick {cfg : Config} (hcfg : cfg.SlotsOk) (hsum : cfg.slots.sum = cfg.majorFrame)
    {t : Nat} {s s' : State}
    (hclock : Clock cfg t s) (h : Frame cfg t s)
    (hword : ((t + 1) / cfg.majorFrame + 1) * cfg.majorFrame < 2 ^ 64)
    (hs : step cfg s .tick = .ok s') : Frame cfg (t + 1) s' := by
  have hpos : 0 < cfg.majorFrame := by
    rw [← hsum]
    exact hcfg.sum_pos
  have hstep := frame_step (t := t) hpos
  have hle := hclock.sync.deadline_le
  rw [hsum] at hle
  have hlt : t + 1 < 2 ^ 64 := by
    have hframe := (isLeast_frame (t := t + 1) hpos).1.2
    omega
  have hnow : (entry cfg s .tick).tickCounter = t + 1 := by
    rw [entry_tickCounter, if_pos rfl, hclock.tickCounter, u64_of_lt hlt]
  obtain ⟨_, _, _, _, h5⟩ := slotCounters_of_pokSched (r := entry cfg s .tick) hs
  rw [pokElectPartition, hnow, entry_nextDeadline, entry_nextMajorFrame, h] at h5
  unfold Frame
  rw [← hstep, h5]
  by_cases hpast : s.nextDeadline ≤ t + 1
  · rw [if_pos hpast]
    by_cases hframe : (t / cfg.majorFrame + 1) * cfg.majorFrame ≤ t + 1
    · rw [if_pos hframe] at hstep
      simp only [hframe, if_true]
      rw [u64_of_lt (by omega)]
    · simp only [hframe, if_false]
  · rw [if_neg hpast, if_neg (by omega)]
    exact h

theorem slotEnd_le_frame {cfg : Config} (hcfg : cfg.SlotsOk)
    (hsum : cfg.slots.sum = cfg.majorFrame) (t : Nat) :
    slotEnd cfg.slots t ≤ (t / cfg.majorFrame + 1) * cfg.majorFrame := by
  have hle := (sync_slotEnd hcfg.sum_pos t).deadline_le
  rwa [hsum] at hle

theorem Reached.frame {cfg : Config} (hcfg : cfg.SlotsOk)
    (hsum : cfg.slots.sum = cfg.majorFrame) {ok : State → Event → Prop} {evs : List Event}
    {s : State} (h : Reached cfg ok evs s)
    (hword : (ticks evs / cfg.majorFrame + 1) * cfg.majorFrame < 2 ^ 64) :
    Frame cfg (ticks evs) s := by
  obtain ⟨s₀, hboot, hrun⟩ := h
  have hstart := hboot.clockStart
  refine hrun.history (I := fun evs s =>
    (ticks evs / cfg.majorFrame + 1) * cfg.majorFrame < 2 ^ 64 → Frame cfg (ticks evs) s)
    ?_ ?_ hword
  · intro _
    unfold Frame
    rw [hstart.nextMajorFrame, ticks_nil, Nat.zero_div, Nat.zero_add, Nat.one_mul]
  · intro evs s e s' hrun ih _ hs hword
    have hreach : Reached cfg ok evs s := ⟨s₀, hboot, hrun⟩
    by_cases he : e = .tick
    · subst he
      rw [ticks_snoc_tick] at hword ⊢
      have hle : (ticks evs / cfg.majorFrame + 1) * cfg.majorFrame ≤
          ((ticks evs + 1) / cfg.majorFrame + 1) * cfg.majorFrame :=
        Nat.mul_le_mul_right _ (Nat.add_le_add_right (Nat.div_le_div_right (Nat.le_succ _)) 1)
      have hend := slotEnd_le_frame hcfg hsum (ticks evs)
      exact Frame.tick hcfg hsum (hreach.clock hcfg (by omega)) (ih (by omega)) hword hs
    · rw [ticks_snoc_of_ne he] at hword ⊢
      have hend := slotEnd_le_frame hcfg hsum (ticks evs)
      have hclock := hreach.clock hcfg (by omega)
      unfold Frame
      rw [(hclock.frame he hs).2.2.2.2]
      exact ih hword

/-! ## Temporal partitioning -/

/-- **Temporal partitioning.** For a table of positive slots that fill the major frame, and as long
as the major frame of the last tick `t` ends below `2^64`: after any interleaving of ticks, requests
and creations the current slot is the one that contains `t` modulo the major frame, the current
partition is the one it is allocated to, the next deadline is the first slot boundary after `t` and
the next major frame the first multiple of the major frame after `t`. No request switches the
partition; and with a usable partition table no tick and no admitted request fails to return. -/
theorem temporal_partitioning {cfg : Config} (hslots : cfg.SlotsOk)
    (hsum : cfg.slots.sum = cfg.majorFrame) (hfirst : cfg.slotsAllocation.getD 0 0 = 0)
    {s₀ s : State} {evs : List Event}
    (hinit : systemInit cfg = .ok s₀)
    (hrun : Run (step cfg) (fun _ _ => True) (schedulerThreadStart s₀) evs s)
    (hword : (ticks evs / cfg.majorFrame + 1) * cfg.majorFrame < 2 ^ 64) :
    s.tickCounter = ticks evs ∧
      Covers cfg.slots s.currentSlot (ticks evs) ∧
      s.currentPartition = cfg.slotsAllocation.getD s.currentSlot 0 ∧
      IsLeast {b | IsBoundary cfg.slots b ∧ ticks evs < b} s.nextDeadline ∧
      IsLeast {m | cfg.majorFrame ∣ m ∧ ticks evs < m} s.nextMajorFrame ∧
      (∀ r s', step cfg s (.request r) = .ok s' → s'.currentPartition = s.currentPartition) ∧
      (cfg.PartitionsOk → ∀ e, Allowed s e → e ≠ .threadCreate →
        ∃ s', step cfg s e = .ok s') := by
  have hboot : Booted cfg (schedulerThreadStart s₀) := ⟨s₀, hinit, Or.inr rfl⟩
  have hreach : Reached cfg (fun _ _ => True) evs s := ⟨_, hboot, hrun⟩
  have hend := slotEnd_le_frame hslots hsum (ticks evs)
  have hclock := hreach.clock hslots (by omega)
  have hframe := hreach.frame hslots hsum hword
  refine ⟨hclock.tickCounter, hclock.sync.covers, hreach.alloc hfirst, hclock.sync.isLeast, ?_,
    ?_, ?_⟩
  · rw [hframe]
    apply isLeast_frame
    rw [← hsum]
    exact hslots.sum_pos
  · intro r s' hs
    exact (hclock.frame (by simp) hs).2.1
  · intro hcfg e hok hne
    exact step_progress hcfg (hreach.inv hcfg) hok hne

theorem deployment_slotsOk : deployment.SlotsOk where
  nonempty := by decide
  pos := by decide

/-- The deployed table, two ticks and a request after start-up. -/
theorem temporal_partitioning_deployed :
    ∃ s₀ s, systemInit deployment = .ok s₀ ∧
      Run (step deployment) (fun _ _ => True) (schedulerThreadStart s₀)
        [.tick, .request .stopSelf, .tick] s ∧
      Covers deployment.slots s.currentSlot 2 ∧
      IsLeast {b | IsBoundary deployment.slots b ∧ 2 < b} s.nextDeadline := by
  obtain ⟨s₀, s, hinit, hrun, _⟩ : ∃ s₀ s, systemInit deployment = .ok s₀ ∧
      Run (step deployment) (fun _ _ => True) (schedulerThreadStart s₀)
        [.tick, .request .stopSelf, .tick] s ∧ s.tickCounter = 2 := by
    apply exists_of_boot
    decide +kernel
  obtain ⟨_, hcovers, _, hdeadline, _⟩ :=
    temporal_partitioning deployment_slotsOk rfl rfl hinit hrun (by decide)
  exact ⟨s₀, s, hinit, hrun, hcovers, hdeadline⟩

/-! ## Overflow -/

theorem exists_run_ticks {cfg : Config} (hcfg : cfg.PartitionsOk) {s₀ : State}
    (hboot : Booted cfg s₀) (n : Nat) :
    ∃ s, Run (step cfg) Allowed s₀ (List.replicate n .tick) s ∧ Inv cfg s := by
  have hticks : ∃ s, Run (step cfg) (fun _ e => e = .tick) s₀ (List.replicate n .tick) s ∧
      Inv cfg s := by
    refine Run.exists_of_progress (I := Inv cfg) (hboot.inv hcfg) ?_ ?_
    · intro s e _ he
      exact List.eq_of_mem_replicate he
    · rintro s e hinv rfl
      obtain ⟨s', hs'⟩ := step_progress (e := .tick) hcfg hinv trivial (by simp)
      exact ⟨s', hs', step_inv (e := .tick) hcfg hinv hs'⟩
  obtain ⟨s, hrun, hinv⟩ := hticks
  refine ⟨s, hrun.mono ?_, hinv⟩
  rintro s e rfl
  trivial

theorem ticks_replicate (n : Nat) : ticks (List.replicate n .tick) = n := by
  simp [ticks]

/-- A tick that ends a slot moves the slot counters on, in the arithmetic of their widths. -/
theorem Clock.tick_at_slotEnd {cfg : Config} {n : Nat} {s s' : State} (h : Clock cfg n s)
    (hend : slotEnd cfg.slots n = n + 1) (hword : n + 1 < 2 ^ 64)
    (hs : step cfg s .tick = .ok s') :
    s'.tickCounter = n + 1 ∧ s'.currentSlot = u8 ((s.currentSlot + 1) % cfg.nbSlots) ∧
      s'.nextDeadline = u64 (n + 1 + cfg.slots.getD s'.currentSlot 0) ∧
      s'.nextMajorFrame = if s.nextMajorFrame ≤ n + 1 then u64 (s.nextMajorFrame + cfg.majorFrame)
        else s.nextMajorFrame := by
  have hdeadline : s.nextDeadline = n + 1 := h.sync.eq_slotEnd.trans hend
  have hnow : (entry cfg s .tick).tickCounter = n + 1 := by
    rw [entry_tickCounter, if_pos rfl, h.tickCounter, u64_of_lt hword]
  obtain ⟨h1, _, h3, h4, h5⟩ := slotCounters_of_pokSched (r := entry cfg s .tick) hs
  rw [pokElectPartition, hnow, entry_nextDeadline, hdeadline, if_pos le_rfl] at h3 h4 h5
  simp only [entry_currentSlot, entry_nextMajorFrame] at h3 h4 h5
  exact ⟨h1.trans hnow, h3, by rw [h3]; exact h4, h5⟩

/-- After any number of ticks there is a next one, and the counters were right before it. -/
theorem exists_run_last_tick {cfg : Config} (hcfg : cfg.PartitionsOk) (hslots : cfg.SlotsOk)
    {s₀ : State} (hinit : systemInit cfg = .ok s₀) {n : Nat}
    (hword : slotEnd cfg.slots n < 2 ^ 64) :
    ∃ s s', Reached cfg Allowed (List.replicate n .tick) s ∧ Clock cfg n s ∧
      step cfg s .tick = .ok s' ∧
      Run (step cfg) Allowed (schedulerThreadStart s₀) (List.replicate n .tick ++ [.tick]) s' := by
  have hboot : Booted cfg (schedulerThreadStart s₀) := ⟨s₀, hinit, Or.inr rfl⟩
  obtain ⟨s, hrun, hinv⟩ := exists_run_ticks hcfg hboot n
  have hreach : Reached cfg Allowed (List.replicate n .tick) s := ⟨_, hboot, hrun⟩
  have hclock := hreach.clock hslots (by rw [ticks_replicate]; exact hword)
  rw [ticks_replicate] at hclock
  obtain ⟨s', hs'⟩ := step_progress (e := .tick) hcfg hinv trivial (by simp)
  exact ⟨s, s', hreach, hclock, hs', hrun.snoc trivial hs'⟩

/-- A table that passes the check of `sched_init` because its sum wraps round to the major frame. -/
def wrappingTable : Config :=
  { deployment with slots := [2 ^ 63, 2 ^ 63, 1], slotsAllocation := [0, 1, 0], majorFrame := 1 }

/-- Where the counters wrap, the next major frame is not after the present tick: in a table whose
sum wraps, already at the first tick; in the deployed one, at tick 18446744073709550000. -/
theorem temporal_partitioning_wraps :
    (∃ s₀ s, systemInit wrappingTable = .ok s₀ ∧
      Run (step wrappingTable) Allowed (schedulerThreadStart s₀) [.tick] s ∧
      ¬IsLeast {m | wrappingTable.majorFrame ∣ m ∧ 1 < m} s.nextMajorFrame) ∧
    (∃ s₀ s evs, systemInit deployment = .ok s₀ ∧
      Run (step deployment) Allowed (schedulerThreadStart s₀) evs s ∧
      ticks evs = 18446744073709550000 ∧
      ¬IsLeast {m | deployment.majorFrame ∣ m ∧ ticks evs < m} s.nextMajorFrame) := by
  constructor
  · obtain ⟨s₀, s, hinit, hrun, hone⟩ : ∃ s₀ s, systemInit wrappingTable = .ok s₀ ∧
        Run (step wrappingTable) Allowed (schedulerThreadStart s₀) [.tick] s ∧
        s.nextMajorFrame = 1 := by
      apply exists_of_boot
      decide +kernel
    refine ⟨s₀, s, hinit, hrun, ?_⟩
    rw [hone]
    rintro ⟨⟨_, hlt⟩, _⟩
    exact absurd hlt (by decide)
  · obtain ⟨s₀, _, hinit, _, _⟩ : ∃ s₀ s, systemInit deployment = .ok s₀ ∧
        Run (step deployment) Allowed (schedulerThreadStart s₀) [] s ∧ s.tickCounter = 0 := by
      apply exists_of_boot
      decide +kernel
    obtain ⟨s, s', hreach, hclock, hs', hrun⟩ := exists_run_last_tick
      (n := 18446744073709549999) deployment_partitionsOk deployment_slotsOk hinit (by decide)
    have hbefore := hreach.frame deployment_slotsOk rfl (by rw [ticks_replicate]; decide)
    rw [ticks_replicate, Frame] at hbefore
    obtain ⟨_, _, _, hframe⟩ := hclock.tick_at_slotEnd (by decide) (by decide) hs'
    rw [hbefore, if_pos (by decide)] at hframe
    have hticks : ticks (List.replicate 18446744073709549999 .tick ++ [.tick]) =
        18446744073709550000 := by
      rw [ticks_snoc_tick, ticks_replicate]
    refine ⟨s₀, s', _, hinit, hrun, hticks, ?_⟩
    rw [hticks, hframe]
    rintro ⟨⟨_, hlt⟩, _⟩
    exact absurd hlt (by decide)

end PartitionSeL4
