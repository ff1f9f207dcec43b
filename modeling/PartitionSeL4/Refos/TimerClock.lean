import PartitionSeL4.Refos.Cvector
import PartitionSeL4.Refos.Waiters

/-!
# `device_timer.c`: the clock and the sleepers

The time is a hardware counter plus `cumulativeTime`, which the interrupt of each overflow advances
by one period. Between an overflow and its interrupt the counter has begun again and the sum is one
period behind. A clock read then goes back in time, and a sleeper whose deadline is computed then is
answered one period early (`clock_behind`). Nothing in `device_timer_get_time` looks for an overflow
that has not been handled.

A run has the true time and how many overflows have been handled. `TimerRun.Timely` excludes the two
ways to go wrong: a clock read or a request to sleep while an overflow is waiting for its interrupt,
and a time that does not fit in 64 bits. Without them the clock never goes back, and every sleeper
is answered once, not before its time, and at the latest by the next overflow interrupt
(`clock_right`).
-/

namespace PartitionSeL4.Refos

open Lib

/-- A waiter in the list, and the request it comes from: its number, when it was made on the true
clock, and for how long. -/
structure Sleeper extends DeviceTimerWaiter where
  serial : Nat
  asked : Nat
  duration : Nat
  deriving DecidableEq, Repr

/-- `struct device_timer_state`. `upcounter` is a property of its `timerDev`. -/
structure DeviceTimer where
  upcounter : Bool
  waiterList : Cvector Sleeper
  cumulativeTime : Nat
  timerIRQPeriod : Nat
  deriving DecidableEq

/-- A call of `device_timer_save_caller_as_waiter`: the client, the time to wait, the slot from
`csalloc` or 0, and what else succeeds. -/
structure SleepCall where
  client : Nat
  waitTime : Nat
  reply : Nat
  malloc : Bool
  saveCaller : Bool
  granted : Bool
  deriving DecidableEq

namespace DeviceTimer

/-- `device_timer_get_time`, for a value of the hardware counter. `TICK_TIMER_SCALE_NS` is 1. -/
def getTime (s : DeviceTimer) (counter : Nat) : Except Failure Nat := do
  let time ←
    if s.upcounter then .ok counter
    else if counter ≤ s.timerIRQPeriod then .ok (s.timerIRQPeriod - counter)
    else .error .assertion
  return u64 (u64 (time + s.cumulativeTime) * 1)

/-- The loop of `device_timer_update_sleepers`: the list that is left and the waiters answered. The
index stays where a waiter has been deleted. -/
def updateLoop (time : Nat) (granted : Bool) :
    Nat → Nat → Cvector Sleeper → Except Failure (Cvector Sleeper × List Sleeper)
  | 0, _, _ => .error .hang
  | rounds + 1, i, v =>
      if i < v.count then do
        let waiter ← v.get i
        if waiter.reply = 0 ∨ waiter.client = 0 then throw .assertion
        if time < waiter.time then updateLoop time granted rounds (i + 1) v
        else
          let v ← v.delete i granted
          let (v, answered) ← updateLoop time granted rounds i v
          return (v, waiter :: answered)
      else .ok (v, [])

/-- `device_timer_update_sleepers` -/
def updateSleepers (s : DeviceTimer) (counter : Nat) (granted : Bool) :
    Except Failure (DeviceTimer × List Sleeper) := do
  let time ← s.getTime counter
  let (v, answered) ← updateLoop time granted (s.waiterList.count + 1) 0 s.waiterList
  return ({ s with waiterList := v }, answered)

/-- `device_timer_handle_irq` -/
def handleIrq (s : DeviceTimer) (counter : Nat) (granted : Bool) :
    Except Failure (DeviceTimer × List Sleeper) := do
  if s.timerIRQPeriod = 0 then throw .assertion
  updateSleepers { s with cumulativeTime := u64 (s.cumulativeTime + s.timerIRQPeriod) } counter
    granted

/-- `device_tick_handle_irq` -/
def tickHandleIrq (s : DeviceTimer) (counter : Nat) (granted : Bool) :
    Except Failure (DeviceTimer × List Sleeper) :=
  s.updateSleepers counter granted

/-- `device_timer_save_caller_as_waiter`: whether it returns `ESUCCESS`. -/
def saveCallerAsWaiter (s : DeviceTimer) (counter : Nat) (r : SleepCall) (serial now : Nat) :
    Except Failure (Bool × DeviceTimer) := do
  if r.client = 0 then throw .assertion
  if r.malloc = false then return (false, s)
  let time ← s.getTime counter
  if r.reply = 0 then return (false, s)
  if r.saveCaller = false then return (false, s)
  let (_, v) ← s.waiterList.add
    { time := u64 (r.waitTime / 1 + time)
      reply := r.reply
      client := r.client
      serial := serial
      asked := now
      duration := r.waitTime } r.granted
  return (true, { s with waiterList := v })

end DeviceTimer

/-! ## Runs -/

/-- The timer, the true time since it was started, how many overflows have been handled, what has
been read, how many sleepers there have been, and which have been answered when. -/
structure TimerRun where
  dev : DeviceTimer
  now : Nat
  handled : Nat
  reads : List Nat
  requests : Nat
  answered : List (Sleeper × Nat)

/-- A timer is started, at a time `epoch` of the real-time clock. -/
def TimerRun.init (upcounter : Bool) (epoch period : Nat) : TimerRun where
  dev := {
    upcounter := upcounter
    waiterList := Cvector.init
    cumulativeTime := u64 epoch
    timerIRQPeriod := period }
  now := 0
  handled := 0
  reads := []
  requests := 0
  answered := []

/-- What happens. -/
inductive TimerEvent where
  | pass (d : Nat)
  | read
  | sleep (r : SleepCall)
  | irq (granted : Bool)
  | tick (granted : Bool)
  deriving DecidableEq

namespace TimerRun

/-- The hardware counter, which runs up from 0 or down to 0 within a period. -/
def counter (w : TimerRun) : Nat :=
  if w.dev.upcounter then w.now % w.dev.timerIRQPeriod
  else w.dev.timerIRQPeriod - w.now % w.dev.timerIRQPeriod

/-- An overflow is waiting for its interrupt. -/
def Pending (w : TimerRun) : Prop := w.handled < w.now / w.dev.timerIRQPeriod

instance (w : TimerRun) : Decidable w.Pending := inferInstanceAs (Decidable (_ < _))

/-- The interrupt comes after the overflow, and is handled before the next one. -/
def Possible (w : TimerRun) : TimerEvent → Prop
  | .pass d => (w.now + d) / w.dev.timerIRQPeriod ≤ w.handled + 1
  | .irq _ => w.Pending
  | _ => True

instance (w : TimerRun) (e : TimerEvent) : Decidable (w.Possible e) := by
  cases e <;> unfold Possible <;> infer_instance

/-- The clock is read, and deadlines are computed, while no overflow is waiting for its interrupt,
and they fit in 64 bits. -/
def Timely (epoch : Nat) (w : TimerRun) : TimerEvent → Prop
  | .read => ¬w.Pending ∧ epoch + w.now < 2 ^ 64
  | .sleep r => ¬w.Pending ∧ epoch + w.now + r.waitTime < 2 ^ 64
  | _ => True

instance (epoch : Nat) (w : TimerRun) (e : TimerEvent) : Decidable (w.Timely epoch e) := by
  cases e <;> unfold Timely <;> infer_instance

end TimerRun

/-- One event. -/
def timerStep (w : TimerRun) : TimerEvent → Except Failure TimerRun
  | .pass d => .ok { w with now := w.now + d }
  | .read => do
      let time ← w.dev.getTime w.counter
      return { w with reads := w.reads ++ [time] }
  | .sleep r => do
      let (success, dev) ← w.dev.saveCallerAsWaiter w.counter r w.requests w.now
      if success then return { w with dev := dev, requests := w.requests + 1 }
      return { w with dev := dev }
  | .irq granted => do
      let (dev, answered) ← w.dev.handleIrq w.counter granted
      return { w with
        dev := dev
        handled := w.handled + 1
        answered := w.answered ++ answered.map fun x => (x, w.now) }
  | .tick granted => do
      let (dev, answered) ← w.dev.tickHandleIrq w.counter granted
      return { w with
        dev := dev
        answered := w.answered ++ answered.map fun x => (x, w.now) }

/-! ## The sleepers -/

theorem updateLoop_end {time rounds : Nat} {granted : Bool} {kept : List Sleeper}
    {v : Cvector Sleeper} (hheld : v.Holds kept) :
    DeviceTimer.updateLoop time granted (rounds + 1) kept.length v = .ok (v, []) := by
  have hend : ¬kept.length < v.count := by
    rw [hheld.count]
    exact Nat.lt_irrefl _
  rw [DeviceTimer.updateLoop, if_neg hend]

theorem updateLoop_round {time rounds : Nat} {granted : Bool} {kept rest : List Sleeper}
    {x : Sleeper} {v : Cvector Sleeper} (hheld : v.Holds (kept ++ x :: rest))
    (hx : x.reply ≠ 0 ∧ x.client ≠ 0) :
    DeviceTimer.updateLoop time granted (rounds + 1) kept.length v =
      if time < x.time then DeviceTimer.updateLoop time granted rounds (kept.length + 1) v
      else do
        let v ← v.delete kept.length granted
        let (v, answered) ← DeviceTimer.updateLoop time granted rounds kept.length v
        return (v, x :: answered) := by
  have hin : kept.length < (kept ++ x :: rest).length := by simp
  have hmore : kept.length < v.count := hheld.count ▸ hin
  have hget : v.get kept.length = .ok x := by
    rw [hheld.get hin]
    simp
  have hcallers : ¬(x.reply = 0 ∨ x.client = 0) := fun h => h.elim hx.1 hx.2
  rw [DeviceTimer.updateLoop, if_pos hmore]
  simp only [hget, bind, Except.bind, if_neg hcallers, pure, Except.pure]

/-- The loop answers the waiters whose time has come and keeps the others, in their order. -/
theorem updateLoop_spec (time : Nat) (granted : Bool) {rounds : Nat} {kept rest : List Sleeper}
    {v : Cvector Sleeper} (hheld : v.Holds (kept ++ rest))
    (hcaller : ∀ x ∈ rest, x.reply ≠ 0 ∧ x.client ≠ 0) (hrounds : rest.length < rounds) :
    Settles .assertion (granted = true)
      (DeviceTimer.updateLoop time granted rounds kept.length v) fun r =>
        r.2 = (rest.filter fun x => x.time ≤ time) ∧
          r.1.Holds (kept ++ rest.filter fun x => time < x.time) := by
  induction rest generalizing kept v rounds with
  | nil =>
      obtain ⟨rounds, rfl⟩ := Nat.exists_eq_succ_of_ne_zero (Nat.ne_of_gt hrounds)
      rw [List.append_nil] at hheld
      exact Settles.of_eq_ok (updateLoop_end hheld) ⟨rfl, by simpa using hheld⟩
  | cons x rest ih =>
      have hpos := Nat.zero_lt_of_lt hrounds
      obtain ⟨rounds, rfl⟩ := Nat.exists_eq_succ_of_ne_zero (Nat.ne_of_gt hpos)
      have hlt : rest.length < rounds := Nat.lt_of_succ_lt_succ hrounds
      have hin : kept.length < (kept ++ x :: rest).length := by simp
      have hothers : ∀ y ∈ rest, y.reply ≠ 0 ∧ y.client ≠ 0 := fun y hy =>
        hcaller y (List.mem_cons_of_mem x hy)
      rw [updateLoop_round hheld (hcaller x List.mem_cons_self)]
      by_cases hearly : time < x.time
      · have hnext : v.Holds ((kept ++ [x]) ++ rest) := by simpa using hheld
        have hstep := ih hnext hothers hlt
        rw [List.length_append, List.length_singleton] at hstep
        simpa [hearly, Nat.not_le.2 hearly] using hstep
      · have herase : (kept ++ x :: rest).eraseIdx kept.length = kept ++ rest := by
          rw [List.eraseIdx_append_of_length_le (Nat.le_refl _)]
          simp
        have hleft : (x :: rest).filter (fun y => time < y.time) =
            rest.filter fun y => time < y.time := List.filter_cons_of_neg (by simpa using hearly)
        have hanswered : (x :: rest).filter (fun y => y.time ≤ time) =
            x :: rest.filter fun y => y.time ≤ time :=
          List.filter_cons_of_pos (by simpa using Nat.not_lt.1 hearly)
        rw [if_neg hearly, hleft, hanswered]
        refine (hheld.delete hin granted).bind fun u hu => ?_
        rw [herase] at hu
        refine (ih hu hothers hlt).bind fun r ⟨hr, hw⟩ => ?_
        exact Settles.ok ⟨congrArg (x :: ·) hr, hw⟩

theorem deviceTimerUpdateSleepers_eq (time : Nat) (xs : List Sleeper) :
    deviceTimerUpdateSleepers time (xs.map Sleeper.toDeviceTimerWaiter) =
      ((xs.filter fun x => time < x.time).map Sleeper.toDeviceTimerWaiter,
        (xs.filter fun x => x.time ≤ time).map Sleeper.toDeviceTimerWaiter) := by
  induction xs with
  | nil => rfl
  | cons x xs ih =>
      rw [List.map_cons, deviceTimerUpdateSleepers, ih]
      by_cases hearly : time < x.time
      · simp [hearly, Nat.not_le.2 hearly]
      · simp [hearly, Nat.not_lt.1 hearly]

theorem filter_late_append_perm (time : Nat) (xs : List Sleeper) :
    ((xs.filter fun x => time < x.time) ++ xs.filter fun x => x.time ≤ time).Perm xs := by
  have hrest : (xs.filter fun x => x.time ≤ time) =
      xs.filter fun x => !decide (time < x.time) := by
    refine List.filter_congr fun x _ => ?_
    rw [← decide_not]
    exact decide_eq_decide.2 Nat.not_lt.symm
  rw [hrest]
  exact List.filter_append_perm _ xs

/-! ## The clock -/

/-- What the events keep. `xs` are the sleepers in the list. -/
structure TimerRun.Ok (epoch period : Nat) (w : TimerRun) (xs : List Sleeper) : Prop where
  period_eq : w.dev.timerIRQPeriod = period
  handled_le : w.handled ≤ w.now / period
  le_handled : w.now / period ≤ w.handled + 1
  cumulative : w.dev.cumulativeTime = u64 (epoch + w.handled * period)
  /-- The clock was right at every read. -/
  reads : w.reads.Pairwise (· ≤ ·) ∧ ∀ time ∈ w.reads, time ≤ epoch + w.now
  held : w.dev.waiterList.Holds xs
  waiting : ∀ x ∈ xs, x.reply ≠ 0 ∧ x.client ≠ 0 ∧ x.time = epoch + x.asked + x.duration
  answered : ∀ x ∈ w.answered, x.1.asked + x.1.duration ≤ x.2
  /-- Every sleeper is in the list or has been answered, and not both. -/
  serials : (xs.map Sleeper.serial ++ w.answered.map fun x => x.1.serial).Perm
      (List.range w.requests)

variable {epoch period : Nat} {w u : TimerRun} {xs : List Sleeper} {events : List TimerEvent}

theorem TimerRun.Ok.init (upcounter : Bool) (epoch period : Nat) :
    (TimerRun.init upcounter epoch period).Ok epoch period [] := by
  refine ⟨rfl, Nat.zero_le _, ?_, ?_, ⟨List.Pairwise.nil, by simp [TimerRun.init]⟩,
    Cvector.Holds.init, by simp, by simp [TimerRun.init], List.Perm.refl _⟩
  · show 0 / period ≤ 1
    rw [Nat.zero_div]
    exact Nat.zero_le 1
  · show u64 epoch = u64 (epoch + 0 * period)
    rw [Nat.zero_mul]
    rfl

/-- The counter tells the time since the last overflow, and `cumulativeTime` how far the periods
before it have been counted. -/
theorem getTime_eq {s : DeviceTimer} {now handled : Nat} (hpos : 0 < s.timerIRQPeriod)
    (hcumulative : s.cumulativeTime = u64 (epoch + handled * s.timerIRQPeriod)) :
    s.getTime (if s.upcounter then now % s.timerIRQPeriod
      else s.timerIRQPeriod - now % s.timerIRQPeriod) =
        .ok (u64 (epoch + handled * s.timerIRQPeriod + now % s.timerIRQPeriod)) := by
  have hlt := Nat.mod_lt now hpos
  have hsum : u64 (u64 (now % s.timerIRQPeriod + s.cumulativeTime) * 1) =
      u64 (epoch + handled * s.timerIRQPeriod + now % s.timerIRQPeriod) := by
    rw [hcumulative]
    simp only [u64]
    omega
  cases hup : s.upcounter with
  | true =>
      rw [← hsum]
      simp [DeviceTimer.getTime, hup, bind, Except.bind, pure, Except.pure]
  | false =>
      have hback : s.timerIRQPeriod - (s.timerIRQPeriod - now % s.timerIRQPeriod) =
          now % s.timerIRQPeriod := by omega
      rw [← hsum]
      simp [DeviceTimer.getTime, hup, bind, Except.bind, pure, Except.pure, hback]

/-- What the clock shows is at most the true time, and is this time if no overflow is waiting. -/
theorem TimerRun.Ok.getTime (h : w.Ok epoch period xs) (hpos : 0 < period) :
    ∃ time, w.dev.getTime w.counter = .ok time ∧ time ≤ epoch + w.now ∧
      (¬w.Pending → epoch + w.now < 2 ^ 64 → time = epoch + w.now) := by
  have hperiod := h.period_eq
  have hmul := Nat.mul_le_mul_right period h.handled_le
  have hdiv := Nat.div_add_mod w.now period
  rw [Nat.mul_comm] at hdiv
  refine ⟨_, getTime_eq (hperiod ▸ hpos) (hperiod ▸ h.cumulative), ?_, fun hready hlt => ?_⟩
  · rw [hperiod]
    refine Nat.le_trans (Nat.mod_le _ _) ?_
    omega
  · have hall : w.handled = w.now / period := by
      rw [TimerRun.Pending, hperiod] at hready
      have := h.handled_le
      omega
    rw [hperiod, hall]
    rw [show epoch + w.now / period * period + w.now % period = epoch + w.now by omega]
    exact u64_of_lt hlt

/-- The clock is right if and only if no overflow is waiting. -/
theorem TimerRun.Ok.getTime_right_iff (h : w.Ok epoch period xs) (hpos : 0 < period)
    (hlt : epoch + w.now < 2 ^ 64) :
    w.dev.getTime w.counter = .ok (epoch + w.now) ↔ ¬w.Pending := by
  obtain ⟨time, htime, -, hready⟩ := h.getTime hpos
  refine ⟨fun hright hpending => ?_, fun hdone => by rw [htime, hready hdone hlt]⟩
  have hperiod := h.period_eq
  have hbehind : u64 (epoch + w.handled * period + w.now % period) = epoch + w.now := by
    rw [← hperiod]
    exact Except.ok.inj ((getTime_eq (hperiod ▸ hpos) (hperiod ▸ h.cumulative)).symm.trans hright)
  rw [TimerRun.Pending, hperiod] at hpending
  have hmul := Nat.mul_le_mul_right period hpending
  rw [Nat.succ_mul] at hmul
  have hdiv := Nat.div_add_mod w.now period
  rw [Nat.mul_comm] at hdiv
  rw [u64_of_lt (by omega)] at hbehind
  omega

theorem reads_snoc {reads : List Nat} {time : Nat} (h : reads.Pairwise (· ≤ ·))
    (hle : ∀ t ∈ reads, t ≤ time) : (reads ++ [time]).Pairwise (· ≤ ·) := by
  rw [List.pairwise_append]
  refine ⟨h, List.pairwise_singleton _ _, fun t ht t' ht' => ?_⟩
  rw [List.mem_singleton.1 ht']
  exact hle t ht

/-- The sleepers that are answered at the time `time`, and those that are left, at a time that the
true clock has reached. -/
theorem TimerRun.Ok.wake (h : w.Ok epoch period xs) {time : Nat} (hle : time ≤ epoch + w.now)
    {v : Cvector Sleeper} (hheld : v.Holds (xs.filter fun x => time < x.time)) :
    TimerRun.Ok epoch period { w with
      dev := { w.dev with waiterList := v }
      answered := w.answered ++ (xs.filter fun x => x.time ≤ time).map fun x => (x, w.now) }
      (xs.filter fun x => time < x.time) := by
  refine ⟨h.period_eq, h.handled_le, h.le_handled, h.cumulative, h.reads, hheld,
    fun x hx => h.waiting x (List.mem_of_mem_filter hx), fun x hx => ?_, ?_⟩
  · rcases List.mem_append.1 hx with hx | hx
    · exact h.answered x hx
    · obtain ⟨y, hy, rfl⟩ := List.mem_map.1 hx
      obtain ⟨hy, hdue⟩ := List.mem_filter.1 hy
      have hdeadline := (h.waiting y hy).2.2
      have hdue := of_decide_eq_true hdue
      show y.asked + y.duration ≤ w.now
      omega
  · have hdivided := (filter_late_append_perm time xs).map Sleeper.serial
    rw [List.map_append] at hdivided
    refine List.Perm.trans ?_ h.serials
    simp only [List.map_append, List.map_map]
    exact (List.perm_append_comm.append_left _).trans
      ((List.append_assoc _ _ _).symm ▸ hdivided.append_right _)

/-- An event has kept the invariant and left no sleeper whose time had come, if `right` is the
case. -/
def TimerRun.Woken (epoch period : Nat) (right : Prop) (w u : TimerRun) : Prop :=
  ∃ xs, u.Ok epoch period xs ∧
    (right → epoch + w.now < 2 ^ 64 → ∀ x ∈ xs, w.now < x.asked + x.duration)

/-- The waiters whose time has come are answered, none of them too early, and all of them if no
overflow is waiting. -/
theorem TimerRun.Ok.updateSleepers (h : w.Ok epoch period xs) (hpos : 0 < period)
    (granted : Bool) :
    Settles .assertion (granted = true) (w.dev.updateSleepers w.counter granted) fun r =>
      TimerRun.Woken epoch period (¬w.Pending) w { w with
        dev := r.1
        answered := w.answered ++ r.2.map fun x => (x, w.now) } := by
  obtain ⟨time, htime, hle, hready⟩ := h.getTime hpos
  have hrounds : xs.length < w.dev.waiterList.count + 1 := by
    rw [h.held.count]
    exact Nat.lt_succ_self _
  have hloop := updateLoop_spec time granted (show w.dev.waiterList.Holds ([] ++ xs) from h.held)
    (fun x hx => ⟨(h.waiting x hx).1, (h.waiting x hx).2.1⟩) hrounds
  rw [List.length_nil, List.nil_append] at hloop
  rw [DeviceTimer.updateSleepers]
  refine Settles.bind_ok htime (hloop.bind fun r ⟨hr, hheld⟩ => ?_)
  refine Settles.ok ⟨_, hr ▸ h.wake hle hheld, fun hdone hlt x hx => ?_⟩
  obtain ⟨hx, hlate⟩ := List.mem_filter.1 hx
  have hlate := of_decide_eq_true hlate
  rw [hready hdone hlt, (h.waiting x hx).2.2] at hlate
  show w.now < _
  have : epoch + w.now < epoch + x.asked + x.duration := hlate
  omega

/-- The run in which the overflow that was waiting has been counted. -/
def TimerRun.count (w : TimerRun) : TimerRun :=
  { w with
    dev := { w.dev with cumulativeTime := u64 (w.dev.cumulativeTime + w.dev.timerIRQPeriod) }
    handled := w.handled + 1 }

theorem TimerRun.Ok.count (h : w.Ok epoch period xs) (hpending : w.Pending) :
    w.count.Ok epoch period xs ∧ ¬w.count.Pending := by
  have hperiod := h.period_eq
  rw [TimerRun.Pending, hperiod] at hpending
  refine ⟨⟨hperiod, hpending, ?_, ?_, h.reads, h.held, h.waiting, h.answered, h.serials⟩, ?_⟩
  · exact Nat.le_succ_of_le h.le_handled
  · show u64 (w.dev.cumulativeTime + w.dev.timerIRQPeriod) = _
    rw [h.cumulative, hperiod, TimerRun.count, Nat.succ_mul]
    simp only [u64]
    omega
  · show ¬w.handled + 1 < w.now / w.dev.timerIRQPeriod
    rw [hperiod]
    exact Nat.not_lt.2 h.le_handled

/-- An overflow interrupt. No sleeper is left whose time has come. -/
theorem TimerRun.Ok.irq (h : w.Ok epoch period xs) (hpos : 0 < period) (hpending : w.Pending)
    (granted : Bool) :
    Settles .assertion (granted = true) (timerStep w (.irq granted))
      (TimerRun.Woken epoch period True w) := by
  obtain ⟨hcounted, hdone⟩ := h.count hpending
  -- the overflow is counted before the sleepers are looked at
  have hirq : w.dev.handleIrq w.counter granted =
      w.count.dev.updateSleepers w.count.counter granted := by
    rw [DeviceTimer.handleIrq, if_neg (h.period_eq ▸ Nat.ne_of_gt hpos)]
    rfl
  rw [timerStep, hirq]
  exact (hcounted.updateSleepers hpos granted).bind fun r ⟨xs', hok, hleft⟩ =>
    Settles.ok ⟨xs', hok, fun _ => hleft hdone⟩

/-- A tick. No sleeper is left whose time has come, if no overflow is waiting. -/
theorem TimerRun.Ok.tick (h : w.Ok epoch period xs) (hpos : 0 < period) (granted : Bool) :
    Settles .assertion (granted = true) (timerStep w (.tick granted))
      (TimerRun.Woken epoch period (¬w.Pending) w) := by
  rw [timerStep, DeviceTimer.tickHandleIrq]
  exact (h.updateSleepers hpos granted).bind fun r hr => Settles.ok hr

/-- The list gets what it asks for, and the caller is a client. -/
def TimerRun.Granted (w : TimerRun) : TimerEvent → Prop
  | .sleep r => r.client ≠ 0 ∧ w.dev.waiterList.Grants r.granted
  | .irq granted => granted = true
  | .tick granted => granted = true
  | _ => True

/-- The waiter that a request to sleep puts in the list. -/
def SleepCall.sleeper (r : SleepCall) (time serial now : Nat) : Sleeper :=
  ⟨⟨u64 (r.waitTime / 1 + time), r.reply, r.client⟩, serial, now, r.waitTime⟩

/-- A caller is saved with its deadline, or there is no memory for that. -/
theorem saveCallerAsWaiter_spec {s : DeviceTimer} {counter time : Nat}
    (hheld : s.waiterList.Holds xs) (htime : s.getTime counter = .ok time) (r : SleepCall)
    (serial now : Nat) :
    Settles .assertion (r.client ≠ 0 ∧ s.waiterList.Grants r.granted)
      (s.saveCallerAsWaiter counter r serial now) fun a =>
        a = (false, s) ∨ ∃ v, a = (true, { s with waiterList := v }) ∧ r.reply ≠ 0 ∧
          r.client ≠ 0 ∧ v.Holds (xs ++ [r.sleeper time serial now]) := by
  rw [DeviceTimer.saveCallerAsWaiter]
  by_cases hclient : r.client = 0
  · rw [if_pos hclient]
    exact Settles.error fun hgranted => hgranted.1 hclient
  by_cases hmalloc : r.malloc = false
  · rw [if_neg hclient, if_pos hmalloc]
    exact Settles.ok (Or.inl rfl)
  by_cases hreply : r.reply = 0
  · simp only [if_neg hclient, if_neg hmalloc, htime, if_pos hreply, bind, Except.bind]
    exact Settles.ok (Or.inl rfl)
  by_cases hsave : r.saveCaller = false
  · simp only [if_neg hclient, if_neg hmalloc, htime, if_neg hreply, if_pos hsave, bind,
      Except.bind]
    exact Settles.ok (Or.inl rfl)
  simp only [if_neg hclient, if_neg hmalloc, htime, if_neg hreply, if_neg hsave, bind, Except.bind]
  exact ((hheld.add (r.sleeper time serial now) r.granted).mono And.right).bind
    fun a ⟨_, hv⟩ => Settles.ok (Or.inr ⟨a.2, rfl, hreply, hclient, hv⟩)

/-- A request to sleep gets its deadline on the true clock. -/
theorem TimerRun.Ok.sleep (h : w.Ok epoch period xs) (hpos : 0 < period) {r : SleepCall}
    (htimely : w.Timely epoch (.sleep r)) :
    Settles .assertion (w.Granted (.sleep r)) (timerStep w (.sleep r)) fun u =>
      ∃ xs', u.Ok epoch period xs' := by
  obtain ⟨hdone, hfits⟩ := htimely
  obtain ⟨time, htime, -, hready⟩ := h.getTime hpos
  have hnow := hready hdone (by omega)
  have hdeadline : u64 (r.waitTime / 1 + time) = epoch + w.now + r.waitTime := by
    rw [hnow, Nat.div_one, u64_of_lt (by omega)]
    omega
  rw [timerStep]
  refine (saveCallerAsWaiter_spec h.held htime r w.requests w.now).bind fun a ha => ?_
  rcases ha with rfl | ⟨v, rfl, hreply, hclient, hheld⟩
  · exact Settles.ok ⟨xs, h⟩
  · refine Settles.ok ⟨_, h.period_eq, h.handled_le, h.le_handled, h.cumulative, h.reads, hheld,
      fun x hx => ?_, h.answered, ?_⟩
    · rcases List.mem_append.1 hx with hx | hx
      · exact h.waiting x hx
      · rw [List.mem_singleton.1 hx]
        exact ⟨hreply, hclient, hdeadline⟩
    · -- the new number comes behind those of the list
      show List.Perm _ (List.range (w.requests + 1))
      rw [List.range_succ, List.map_append, List.append_assoc]
      refine (List.perm_append_comm.append_left _).trans ?_
      rw [← List.append_assoc]
      exact h.serials.append_right _

/-- Time passes, and no overflow comes before the interrupt of the last one. -/
theorem TimerRun.Ok.pass (h : w.Ok epoch period xs) {d : Nat}
    (hpossible : w.Possible (.pass d)) :
    TimerRun.Ok epoch period { w with now := w.now + d } xs := by
  rw [TimerRun.Possible, h.period_eq] at hpossible
  refine ⟨h.period_eq, ?_, hpossible, h.cumulative, ⟨h.reads.1, fun time htime => ?_⟩, h.held,
    h.waiting, h.answered, h.serials⟩
  · exact Nat.le_trans h.handled_le (Nat.div_le_div_right (Nat.le_add_right _ d))
  · have hle := h.reads.2 time htime
    show time ≤ epoch + (w.now + d)
    omega

theorem TimerRun.Ok.read (h : w.Ok epoch period xs) (hpos : 0 < period)
    (htimely : w.Timely epoch .read) :
    ∃ u, timerStep w .read = .ok u ∧ u.Ok epoch period xs := by
  obtain ⟨time, htime, -, hready⟩ := h.getTime hpos
  have hnow := hready htimely.1 htimely.2
  refine ⟨{ w with reads := w.reads ++ [time] }, by rw [timerStep, htime]; rfl, h.period_eq,
    h.handled_le, h.le_handled, h.cumulative, ⟨reads_snoc h.reads.1 (hnow ▸ h.reads.2), ?_⟩,
    h.held, h.waiting, h.answered, h.serials⟩
  intro t ht
  rcases List.mem_append.1 ht with ht | ht
  · exact h.reads.2 t ht
  · rw [List.mem_singleton.1 ht]
    exact Nat.le_of_eq hnow

/-- Every possible event keeps the invariant, or ends in an assertion. -/
theorem timerStep_spec (h : w.Ok epoch period xs) (hpos : 0 < period) {e : TimerEvent}
    (hpossible : w.Possible e) (htimely : w.Timely epoch e) :
    Settles .assertion (w.Granted e) (timerStep w e) fun u => ∃ xs', u.Ok epoch period xs' := by
  cases e with
  | pass d => exact Settles.ok ⟨xs, h.pass hpossible⟩
  | read =>
      obtain ⟨u, hu, hok⟩ := h.read hpos htimely
      exact Settles.of_eq_ok hu ⟨xs, hok⟩
  | sleep r => exact h.sleep hpos htimely
  | irq granted => exact (h.irq hpos hpossible granted).imp fun u ⟨xs', hok, _⟩ => ⟨xs', hok⟩
  | tick granted => exact (h.tick hpos granted).imp fun u ⟨xs', hok, _⟩ => ⟨xs', hok⟩

theorem timer_run_ok {upcounter : Bool} (hpos : 0 < period)
    (h : Run timerStep (fun w e => w.Possible e ∧ w.Timely epoch e)
      (.init upcounter epoch period) events w) :
    ∃ xs, w.Ok epoch period xs := by
  refine h.invariant (I := fun w => ∃ xs, w.Ok epoch period xs)
    ⟨[], TimerRun.Ok.init upcounter epoch period⟩ ?_
  rintro t e u ⟨xs, hok⟩ ⟨hpossible, htimely⟩ hstep
  exact (timerStep_spec hok hpos hpossible htimely).of_ok hstep

/-- In a run that is timely the clock never goes back, and it is right whenever no overflow is
waiting, and then only. Every sleeper is in the list or has been answered once, none before its time
has passed on the true clock, and none whose time has passed is left by an overflow interrupt, or by
a tick while no overflow is waiting. No event ends in a fault or in an endless loop. -/
theorem clock_right {upcounter : Bool} (hpos : 0 < period)
    (h : Run timerStep (fun w e => w.Possible e ∧ w.Timely epoch e)
      (.init upcounter epoch period) events w) :
    w.reads.Pairwise (· ≤ ·) ∧
      (epoch + w.now < 2 ^ 64 → (w.dev.getTime w.counter = .ok (epoch + w.now) ↔ ¬w.Pending)) ∧
      (w.dev.waiterList.elements.map Sleeper.serial ++
        w.answered.map fun x => x.1.serial).Perm (List.range w.requests) ∧
      (∀ x ∈ w.answered, x.1.asked + x.1.duration ≤ x.2) ∧
      (∀ granted u, w.Pending → epoch + w.now < 2 ^ 64 → timerStep w (.irq granted) = .ok u →
        ∀ x ∈ u.dev.waiterList.elements, w.now < x.asked + x.duration) ∧
      (∀ granted u, ¬w.Pending → epoch + w.now < 2 ^ 64 → timerStep w (.tick granted) = .ok u →
        ∀ x ∈ u.dev.waiterList.elements, w.now < x.asked + x.duration) ∧
      ∀ e, w.Possible e → w.Timely epoch e →
        timerStep w e ≠ .error .fault ∧ timerStep w e ≠ .error .hang ∧
          (w.Granted e → ∃ u, timerStep w e = .ok u) := by
  obtain ⟨xs, hok⟩ := timer_run_ok hpos h
  refine ⟨hok.reads.1, hok.getTime_right_iff hpos, ?_, hok.answered,
    fun granted u hpending hlt hu => ?_, fun granted u hdone hlt hu => ?_,
    fun e hpossible htimely => ?_⟩
  · rw [hok.held.elements_eq]
    exact hok.serials
  · obtain ⟨xs', hnext, hleft⟩ := (hok.irq hpos hpending granted).of_ok hu
    rw [hnext.held.elements_eq]
    exact hleft trivial hlt
  · obtain ⟨xs', hnext, hleft⟩ := (hok.tick hpos granted).of_ok hu
    rw [hnext.held.elements_eq]
    exact hleft hdone hlt
  · have hstep := timerStep_spec hok hpos hpossible htimely
    exact ⟨hstep.ne_error (by decide), hstep.ne_error (by decide), fun hgranted =>
      (hstep.exists_ok hgranted).imp fun _ hu => hu.1⟩

/-- A client sleeps across an overflow of the timer of a PC. -/
def sleepAcross : List TimerEvent :=
  [.pass 1990000, .read, .sleep ⟨5, 30000, 8, true, true, true⟩, .pass 20000, .irq true, .read,
    .pass 10000, .tick true]

theorem clock_right_across :
    ∃ w, Run timerStep (fun w e => w.Possible e ∧ w.Timely 0 e) (.init false 0 2000000) sleepAcross
        w ∧
      w.reads = [1990000, 2010000] ∧ w.reads.Pairwise (· ≤ ·) ∧
      w.answered.map Prod.snd = [2020000] ∧
      ∀ x ∈ w.answered, x.1.asked + x.1.duration ≤ x.2 := by
  obtain ⟨w, hrun, hreads, hanswered⟩ := Run.exists_of_exec
    (P := fun w : TimerRun =>
      w.reads = [1990000, 2010000] ∧ w.answered.map Prod.snd = [2020000])
    (show ((Run.exec timerStep (fun w e => w.Possible e ∧ w.Timely 0 e) sleepAcross
      (.init false 0 2000000)).any fun w =>
        w.reads = [1990000, 2010000] ∧ w.answered.map Prod.snd = [2020000]) = true by
      decide +kernel)
  have hright := clock_right (by decide) hrun
  exact ⟨w, hrun, hreads, hright.1, hanswered, hright.2.2.2.1⟩

/-- The clock is read before and after an overflow whose interrupt has not been handled, and a
client then asks to sleep: the second time is before the first, and the client is answered by the
interrupt, at once. -/
theorem clock_behind :
    ∃ w, Run timerStep (fun w e => w.Possible e) (.init false 0 2000000)
        [.pass 1990000, .read, .pass 20000, .read, .sleep ⟨5, 100000, 8, true, true, true⟩,
          .irq true] w ∧
      w.reads = [1990000, 10000] ∧
      ∃ x ∈ w.answered, x.1.asked = 2010000 ∧ x.1.duration = 100000 ∧ x.2 = 2010000 := by
  obtain ⟨w, hrun, hreads, hanswered⟩ := Run.exists_of_exec
    (P := fun w : TimerRun => w.reads = [1990000, 10000] ∧
      ∃ x ∈ w.answered, x.1.asked = 2010000 ∧ x.1.duration = 100000 ∧ x.2 = 2010000)
    (show ((Run.exec timerStep (fun w e => w.Possible e)
      [.pass 1990000, .read, .pass 20000, .read, .sleep ⟨5, 100000, 8, true, true, true⟩,
        .irq true] (.init false 0 2000000)).any fun w => w.reads = [1990000, 10000] ∧
      ∃ x ∈ w.answered, x.1.asked = 2010000 ∧ x.1.duration = 100000 ∧ x.2 = 2010000) = true by
      decide +kernel)
  exact ⟨w, hrun, hreads, hanswered⟩

end PartitionSeL4.Refos
