import PartitionSeL4.Kernel.Sched

/-!
# The threads that wait at endpoints

A thread that is blocked on an endpoint stands in the endpoint's queue, and the queue's other
threads are blocked in the same way.

* `Waiting`: the endpoints' queues in memory hold lists of the threads that wait there.
* `Waiting.blockEP`, `Waiting.wake`: a thread comes into a queue, or out of it.
* `Waiting.restart`: several threads of a queue are taken out at once.
-/

namespace PartitionSeL4.Kernel

open Lib Function

/-- An endpoint with a queue. -/
inductive QueueId where
  | ep (epptr : Nat)
  | aep (aepptr : Nat)
  deriving DecidableEq, Repr

variable {μ : Type} {cfg : Config} {s s' s₁ : KState μ} {q : QueueId → List Nat} {i j : QueueId}
  {t : Nat} {ts : ThreadStateType}

/-- The part of the state that the endpoints' queues are in. -/
structure EpPart where
  tsType : Nat → ThreadStateType
  blockingIPCEndpoint : Nat → Nat
  tcbEPNext : Nat → Nat
  tcbEPPrev : Nat → Nat
  epState : Nat → EPState
  epQueue : Nat → Queue
  aepState : Nat → AEPState
  aepQueue : Nat → Queue

namespace KState

def epPart (s : KState μ) : EpPart :=
  ⟨s.tsType, s.blockingIPCEndpoint, s.tcbEPNext, s.tcbEPPrev, s.epState, s.epQueue, s.aepState,
    s.aepQueue⟩

def epLinks (s : KState μ) : Links := ⟨s.tcbEPNext, s.tcbEPPrev⟩

def queueOf (s : KState μ) : QueueId → Queue
  | .ep e => s.epQueue e
  | .aep a => s.aepQueue a

/-- The endpoint where a thread waits. -/
def waitsOn (s : KState μ) (t : Nat) : Option QueueId :=
  match s.tsType t with
  | .blockedOnSend | .blockedOnReceive => some (.ep (s.blockingIPCEndpoint t))
  | .blockedOnAsyncEvent => some (.aep (s.blockingIPCEndpoint t))
  | _ => none

/-- The state of the threads that wait at an endpoint, if there are any. -/
def waitState (s : KState μ) : QueueId → Option ThreadStateType
  | .ep e =>
      match s.epState e with
      | .idle => none
      | .send => some .blockedOnSend
      | .recv => some .blockedOnReceive
  | .aep a =>
      match s.aepState a with
      | .waiting => some .blockedOnAsyncEvent
      | _ => none

end KState

theorem Scheduled.epPart (h : Scheduled s s') : s'.epPart = s.epPart := by
  unfold Scheduled at h
  rw [h]
  rfl

theorem Rescheduled.epPart (h : Rescheduled s s') : s'.epPart = s.epPart := h.scheduled.epPart

/-- A state in which a thread does not stand in the queue of an endpoint. -/
def ThreadStateType.NotWaiting (ts : ThreadStateType) : Prop :=
  ts ≠ .blockedOnSend ∧ ts ≠ .blockedOnReceive ∧ ts ≠ .blockedOnAsyncEvent

instance : DecidablePred ThreadStateType.NotWaiting := fun _ => inferInstanceAs (Decidable (_ ∧ _))

theorem waitsOn_eq_none (h : (s.tsType t).NotWaiting) : s.waitsOn t = none := by
  obtain ⟨h1, h2, h3⟩ := h
  rw [KState.waitsOn]
  cases hts : s.tsType t with
  | blockedOnSend => exact absurd hts h1
  | blockedOnReceive => exact absurd hts h2
  | blockedOnAsyncEvent => exact absurd hts h3
  | _ => rfl

theorem waitsOn_congr (hts : s'.tsType t = s.tsType t)
    (hep : s'.blockingIPCEndpoint t = s.blockingIPCEndpoint t) : s'.waitsOn t = s.waitsOn t := by
  rw [KState.waitsOn, KState.waitsOn, hts, hep]

/-- The endpoints' queues in memory hold the lists `q` of the threads that wait there. -/
structure Waiting (s : KState μ) (q : QueueId → List Nat) : Prop where
  queues : Queues s.epLinks s.queueOf q
  mem : ∀ t i, t ∈ q i ↔ s.waitsOn t = some i
  state : ∀ i, s.waitState i = none ↔ q i = []
  kind : ∀ i, ∀ t ∈ q i, s.waitState i = some (s.tsType t)

namespace Waiting

theorem transport (h : Waiting s q) (hlinks : s'.epLinks = s.epLinks)
    (hqueue : s'.queueOf = s.queueOf) (hstate : s'.waitState = s.waitState)
    (hts : s'.tsType = s.tsType) (hep : s'.blockingIPCEndpoint = s.blockingIPCEndpoint) :
    Waiting s' q := by
  refine ⟨?_, fun t i => ?_, fun i => ?_, fun i t ht => ?_⟩
  · rw [hqueue, hlinks]
    exact h.queues
  · rw [waitsOn_congr (congrFun hts t) (congrFun hep t)]
    exact h.mem t i
  · rw [hstate]
    exact h.state i
  · rw [hstate, hts]
    exact h.kind i t ht

theorem congr (h : Waiting s q) (hpart : s'.epPart = s.epPart) : Waiting s' q := by
  injection hpart with h1 h2 h3 h4 h5 h6 h7 h8
  refine h.transport ?_ ?_ ?_ h1 h2
  · rw [KState.epLinks, h3, h4]
    rfl
  · funext i
    cases i with
    | ep e => rw [KState.queueOf, KState.queueOf, h6]
    | aep a => rw [KState.queueOf, KState.queueOf, h8]
  · funext i
    cases i with
    | ep e => rw [KState.waitState, KState.waitState, h5]
    | aep a => rw [KState.waitState, KState.waitState, h7]

/-- Whether an asynchronous message has come does not matter while nobody waits for it. -/
theorem aepChange (h : Waiting s q) {a : Nat} {state : AEPState}
    (hold : s.aepState a ≠ .waiting) (hnew : state ≠ .waiting) :
    Waiting (setAEPState s a state) q := by
  refine h.transport rfl ?_ ?_ rfl rfl
  · funext i
    cases i <;> rfl
  · funext i
    cases i with
    | ep e => rfl
    | aep a' =>
        simp only [KState.waitState, setAEPState]
        by_cases ha : a' = a
        · rw [ha, update_self]
          cases state with
          | waiting => exact absurd rfl hnew
          | idle =>
              cases hs : s.aepState a with
              | waiting => exact absurd hs hold
              | _ => rfl
          | active =>
              cases hs : s.aepState a with
              | waiting => exact absurd hs hold
              | _ => rfl
        · rw [update_of_ne ha]

/-- One queue changes, and with it the states of threads that are in it or come into it. -/
theorem change (h : Waiting s q) (i : QueueId) {ys : List Nat}
    (hholds : Holds s'.epLinks (s'.queueOf i) ys)
    (hlinks : ∀ j, j ≠ i → ∀ y ∈ q j,
      s'.epLinks.next y = s.epLinks.next y ∧ s'.epLinks.prev y = s.epLinks.prev y)
    (hqueue : ∀ j, j ≠ i → s'.queueOf j = s.queueOf j)
    (hstate : ∀ j, j ≠ i → s'.waitState j = s.waitState j)
    (hmem : ∀ t, t ∈ ys ↔ s'.waitsOn t = some i)
    (hother : ∀ t j, j ≠ i → (s'.waitsOn t = some j ↔ s.waitsOn t = some j))
    (hts : ∀ j, j ≠ i → ∀ t ∈ q j, s'.tsType t = s.tsType t)
    (hempty : s'.waitState i = none ↔ ys = [])
    (hkind : ∀ t ∈ ys, s'.waitState i = some (s'.tsType t)) : Waiting s' (update q i ys) := by
  refine ⟨?_, fun t j => ?_, fun j => ?_, fun j t ht => ?_⟩
  · have hupdate : s'.queueOf = update s.queueOf i (s'.queueOf i) := by
      funext j
      by_cases hj : j = i
      · rw [hj, update_self]
      · rw [update_of_ne hj, hqueue j hj]
    rw [hupdate]
    refine h.queues.update hholds hlinks fun y hy j hj hyj => hj ?_
    have hyj' := (hother y j hj).mpr ((h.mem y j).mp hyj)
    rw [(hmem y).mp hy] at hyj'
    injection hyj' with hij
    exact hij.symm
  · by_cases hj : j = i
    · rw [hj, update_self, hmem]
    · rw [update_of_ne hj, h.mem, hother t j hj]
  · by_cases hj : j = i
    · rw [hj, update_self, hempty]
    · rw [update_of_ne hj, hstate j hj, h.state]
  · by_cases hj : j = i
    · rw [hj, update_self] at ht
      rw [hj]
      exact hkind t ht
    · rw [update_of_ne hj] at ht
      rw [hstate j hj, hts j hj t ht]
      exact h.kind j t ht

theorem not_mem (h : Waiting s q) (ht : s.waitsOn t = none) (i : QueueId) : t ∉ q i := by
  intro hmem
  rw [h.mem, ht] at hmem
  cases hmem

theorem restate (h : Waiting s q) (ht : (s.tsType t).NotWaiting) (hts : ts.NotWaiting) :
    Waiting { s with tsType := update s.tsType t ts } q := by
  have hout := h.not_mem (waitsOn_eq_none ht)
  refine ⟨h.queues, fun z i => ?_, h.state, fun i z hz => ?_⟩
  · by_cases hz : z = t
    · subst hz
      rw [waitsOn_eq_none (by simpa using hts)]
      exact iff_of_false (hout i) fun hc => by cases hc
    · have hsame : KState.waitsOn { s with tsType := update s.tsType t ts } z = s.waitsOn z :=
        waitsOn_congr (update_of_ne hz ..) rfl
      rw [h.mem, hsame]
  · show s.waitState i = some (update s.tsType t ts z)
    rw [update_of_ne (ne_of_mem_of_not_mem hz (hout i))]
    exact h.kind i z hz

end Waiting

/-! ## A thread comes into a queue -/

theorem tcbEPAppend_eq (s : KState μ) (t : Nat) (queue : Queue) :
    tcbEPAppend s t queue = ({ s with
      tcbEPNext := (s.epLinks.append queue t).next
      tcbEPPrev := (s.epLinks.append queue t).prev }, queue.append t) := by
  rw [tcbEPAppend, Links.append, Queue.append]
  split_ifs <;> rfl

/-- The threads in a queue of senders or of receivers. -/
def EPState.blocked : EPState → ThreadStateType
  | .idle => .inactive
  | .send => .blockedOnSend
  | .recv => .blockedOnReceive

namespace Waiting

theorem block (h : Waiting s q) (i : QueueId) (ht : (s.tsType t).NotWaiting) (h0 : t ≠ 0)
    (hlinks : s'.epLinks = s.epLinks.append (s.queueOf i) t)
    (hself : s'.queueOf i = (s.queueOf i).append t)
    (hqueue : ∀ j, j ≠ i → s'.queueOf j = s.queueOf j)
    (hstate : ∀ j, j ≠ i → s'.waitState j = s.waitState j)
    (htsType : s'.tsType = update s.tsType t ts) (hwaits : s'.waitsOn t = some i)
    (hep : ∀ z, z ≠ t → s'.blockingIPCEndpoint z = s.blockingIPCEndpoint z)
    (hnew : s'.waitState i = some ts) (hold : s.waitState i = none ∨ s.waitState i = some ts) :
    Waiting s' (update q i (q i ++ [t])) := by
  have hout := h.not_mem (waitsOn_eq_none ht)
  have hkeep : ∀ z, z ≠ t → s'.waitsOn z = s.waitsOn z := fun z hz =>
    waitsOn_congr (by rw [htsType, update_of_ne hz]) (hep z hz)
  refine h.change i ?_ ?_ hqueue hstate ?_ ?_ ?_ ?_ ?_
  · rw [hlinks, hself]
    exact (h.queues.holds i).append h0 (hout i)
  · intro j hj y hy
    have hyt : y ≠ t := ne_of_mem_of_not_mem hy (hout j)
    rw [hlinks, Links.append]
    split_ifs with hq
    · simp [hyt]
    · have hyh : y ≠ (s.queueOf i).tail := fun heq =>
        hj (h.queues.unique j i y hy (heq ▸ (h.queues.holds i).tail_mem hq))
      simp [hyt, hyh]
  · intro z
    rw [List.mem_append, List.mem_singleton]
    by_cases hz : z = t
    · subst hz
      exact iff_of_true (.inr rfl) hwaits
    · rw [hkeep z hz, ← h.mem]
      exact ⟨fun hor => hor.resolve_right hz, .inl⟩
  · intro z j hj
    by_cases hz : z = t
    · subst hz
      rw [hwaits, waitsOn_eq_none ht]
      exact iff_of_false (fun heq => hj (Option.some.inj heq).symm) fun hc => by cases hc
    · rw [hkeep z hz]
  · intro j _ z hz
    rw [htsType, update_of_ne (ne_of_mem_of_not_mem hz (hout j))]
  · rw [hnew]
    exact iff_of_false (fun hc => by cases hc) (by simp)
  · intro z hz
    rw [hnew, htsType]
    by_cases hzt : z = t
    · rw [hzt, update_self]
    · rw [update_of_ne hzt]
      have hzi := (List.mem_append.mp hz).resolve_right fun hz => hzt (List.mem_singleton.mp hz)
      rw [← h.kind i z hzi]
      rcases hold with hnone | hsome
      · rw [(h.state i).mp hnone] at hzi
        cases hzi
      · exact hsome.symm

theorem blockEP (h : Waiting s q) {e : Nat} {state : EPState} (ht : (s.tsType t).NotWaiting)
    (h0 : t ≠ 0) (hstate : state ≠ .idle) (hold : s.epState e = .idle ∨ s.epState e = state)
    (hpart : s₁.epPart = KState.epPart { s with
      tsType := update s.tsType t state.blocked
      blockingIPCEndpoint := update s.blockingIPCEndpoint t e }) :
    Waiting (epAppend s₁ e t state) (update q (.ep e) (q (.ep e) ++ [t])) := by
  injection hpart with h1 h2 h3 h4 h5 h6 h7 h8
  have hlinks : s₁.epLinks = s.epLinks := by
    rw [KState.epLinks, h3, h4]
    rfl
  have happend : epAppend s₁ e t state = { s₁ with
      tcbEPNext := (s.epLinks.append (s.epQueue e) t).next
      tcbEPPrev := (s.epLinks.append (s.epQueue e) t).prev
      epState := update s.epState e state
      epQueue := update s.epQueue e ((s.epQueue e).append t) } := by
    rw [epAppend, tcbEPAppend_eq, hlinks, h6]
    simp only [setEPState, setEPQueue, h5]
  rw [happend]
  have hwait : ∀ {z : KState μ}, z.epState e = state →
      z.waitState (.ep e) = some state.blocked := by
    intro z hz
    rw [KState.waitState, hz]
    cases state with
    | idle => exact absurd rfl hstate
    | send => rfl
    | recv => rfl
  refine h.block (.ep e) ht h0 rfl (update_self ..) ?_ ?_ h1 ?_ ?_ ?_ ?_
  · rintro (e' | a) hj
    · exact update_of_ne (fun heq => hj (congrArg QueueId.ep heq)) ..
    · exact congrFun h8 a
  · rintro (e' | a) hj
    · simp only [KState.waitState]
      rw [update_of_ne fun heq => hj (congrArg QueueId.ep heq)]
    · simp only [KState.waitState, h7]
  · simp only [KState.waitsOn, h1, h2, update_self]
    cases state with
    | idle => exact absurd rfl hstate
    | send => rfl
    | recv => rfl
  · intro z hz
    show s₁.blockingIPCEndpoint z = _
    rw [h2]
    exact update_of_ne hz ..
  · exact hwait (update_self ..)
  · rcases hold with hidle | heq
    · exact .inl (by rw [KState.waitState, hidle])
    · exact .inr (hwait heq)

theorem blockAEP (h : Waiting s q) {a : Nat} (ht : (s.tsType t).NotWaiting) (h0 : t ≠ 0)
    (hpart : s₁.epPart = KState.epPart { s with
      tsType := update s.tsType t .blockedOnAsyncEvent
      blockingIPCEndpoint := update s.blockingIPCEndpoint t a }) :
    Waiting (aepAppend s₁ a t) (update q (.aep a) (q (.aep a) ++ [t])) := by
  injection hpart with h1 h2 h3 h4 h5 h6 h7 h8
  have hlinks : s₁.epLinks = s.epLinks := by
    rw [KState.epLinks, h3, h4]
    rfl
  have happend : aepAppend s₁ a t = { s₁ with
      tcbEPNext := (s.epLinks.append (s.aepQueue a) t).next
      tcbEPPrev := (s.epLinks.append (s.aepQueue a) t).prev
      aepState := update s.aepState a .waiting
      aepQueue := update s.aepQueue a ((s.aepQueue a).append t) } := by
    rw [aepAppend, tcbEPAppend_eq, hlinks, h8]
    simp only [setAEPState, setAEPQueue, h7]
  rw [happend]
  refine h.block (.aep a) ht h0 rfl (update_self ..) ?_ ?_ h1 ?_ ?_ ?_ ?_
  · rintro (e | a') hj
    · exact congrFun h6 e
    · exact update_of_ne (fun heq => hj (congrArg QueueId.aep heq)) ..
  · rintro (e | a') hj
    · simp only [KState.waitState, h5]
    · simp only [KState.waitState]
      rw [update_of_ne fun heq => hj (congrArg QueueId.aep heq)]
  · simp only [KState.waitsOn, h1, h2, update_self]
  · intro z hz
    show s₁.blockingIPCEndpoint z = _
    rw [h2]
    exact update_of_ne hz ..
  · simp only [KState.waitState, update_self]
  · rw [KState.waitState]
    cases s.aepState a with
    | waiting => exact .inr rfl
    | _ => exact .inl rfl

end Waiting

/-! ## Threads come out of a queue -/

theorem tcbEPDequeue_eq (queue : Queue) (h : s.tcbEPPrev t ≠ 0 → s.tcbEPPrev t ≠ t) :
    tcbEPDequeue s t queue = ({ s with
      tcbEPNext := (s.epLinks.remove t).next
      tcbEPPrev := (s.epLinks.remove t).prev }, queue.remove s.epLinks t) := by
  simp only [tcbEPDequeue, Links.remove, Links.skipPrev, Links.skipNext, Queue.remove,
    KState.epLinks]
  by_cases hp : s.tcbEPPrev t = 0
  · simp only [hp, if_true]
    split_ifs <;> rfl
  · have hne : t ≠ s.tcbEPPrev t := (h hp).symm
    by_cases hn : s.tcbEPNext t = 0
    · simp only [hp, eq_true hn, if_true, if_false, Links.setNext, update_of_ne hne]
    · simp only [hp, hn, if_false, Links.setNext, Links.setPrev, update_of_ne hne]

theorem epDequeue_eq {e : Nat} (h : s.tcbEPPrev t = 0) :
    epDequeue s e t = { s with
      tcbEPPrev := if s.tcbEPNext t = 0 then s.tcbEPPrev else update s.tcbEPPrev (s.tcbEPNext t) 0
      epQueue := update s.epQueue e
        ⟨s.tcbEPNext t, if s.tcbEPNext t = 0 then 0 else (s.epQueue e).tail⟩
      epState := if s.tcbEPNext t = 0 then update s.epState e .idle else s.epState } := by
  simp only [epDequeue, tcbEPDequeue, h, if_true]
  split_ifs <;> rfl

/-- A thread comes out of a queue. -/
def leaveQueue (s : KState μ) (t : Nat) : QueueId → KState μ
  | .ep e => epDequeue s e t
  | .aep a => aepDequeue s a t

/-- All threads come out of a queue. -/
def emptyQueue (s : KState μ) : QueueId → KState μ
  | .ep e => setEPQueue (setEPState s e .idle) e .empty
  | .aep a => setAEPQueue (setAEPState s a .idle) a .empty

theorem leaveQueue_frame (i : QueueId) :
    leaveQueue s t i = { s with
      tcbEPNext := (leaveQueue s t i).tcbEPNext
      tcbEPPrev := (leaveQueue s t i).tcbEPPrev
      epState := (leaveQueue s t i).epState
      epQueue := (leaveQueue s t i).epQueue
      aepState := (leaveQueue s t i).aepState
      aepQueue := (leaveQueue s t i).aepQueue } := by
  cases i with
  | ep e =>
      simp only [leaveQueue, epDequeue, tcbEPDequeue, setEPQueue, setEPState]
      split_ifs <;> rfl
  | aep a =>
      simp only [leaveQueue, aepDequeue, tcbEPDequeue, setAEPQueue, setAEPState]
      split_ifs <;> rfl

namespace Waiting

/-- Some threads have come out of a queue, and the others have stayed. -/
theorem leave (h : Waiting s q) (i : QueueId) {ys : List Nat} (hsub : ∀ z ∈ ys, z ∈ q i)
    (hholds : Holds s'.epLinks (s'.queueOf i) ys)
    (hlinks : ∀ z, z ∉ q i →
      s'.epLinks.next z = s.epLinks.next z ∧ s'.epLinks.prev z = s.epLinks.prev z)
    (hqueue : ∀ j, j ≠ i → s'.queueOf j = s.queueOf j)
    (hstate : ∀ j, j ≠ i → s'.waitState j = s.waitState j)
    (hself : s'.waitState i = if ys = [] then none else s.waitState i)
    (hep : s'.blockingIPCEndpoint = s.blockingIPCEndpoint)
    (hts : ∀ z, z ∉ q i ∨ z ∈ ys → s'.tsType z = s.tsType z)
    (hleft : ∀ z ∈ q i, z ∉ ys → (s'.tsType z).NotWaiting) : Waiting s' (update q i ys) := by
  have hout : ∀ j, j ≠ i → ∀ z ∈ q j, z ∉ q i := fun j hj z hz hzi =>
    hj (h.queues.unique j i z hz hzi)
  refine h.change i hholds (fun j hj z hz => hlinks z (hout j hj z hz)) hqueue hstate ?_ ?_ ?_ ?_ ?_
  · intro z
    by_cases hz : z ∈ ys
    · refine iff_of_true hz ?_
      rw [waitsOn_congr (hts z (.inr hz)) (congrFun hep z)]
      exact (h.mem z i).mp (hsub z hz)
    · refine iff_of_false hz fun hw => ?_
      by_cases hzi : z ∈ q i
      · rw [waitsOn_eq_none (hleft z hzi hz)] at hw
        cases hw
      · rw [waitsOn_congr (hts z (.inl hzi)) (congrFun hep z)] at hw
        exact hzi ((h.mem z i).mpr hw)
  · intro z j hj
    by_cases hzi : z ∈ q i
    · have hw := (h.mem z i).mp hzi
      have hne : s.waitsOn z ≠ some j := fun heq => hj (Option.some.inj (heq.symm.trans hw))
      refine iff_of_false (fun hw' => ?_) hne
      by_cases hz : z ∈ ys
      · rw [waitsOn_congr (hts z (.inr hz)) (congrFun hep z)] at hw'
        exact hne hw'
      · rw [waitsOn_eq_none (hleft z hzi hz)] at hw'
        cases hw'
    · rw [waitsOn_congr (hts z (.inl hzi)) (congrFun hep z)]
  · exact fun j hj z hz => hts z (.inl (hout j hj z hz))
  · rw [hself]
    split_ifs with hnil
    · exact iff_of_true rfl hnil
    · refine iff_of_false (fun hnone => ?_) hnil
      obtain ⟨z, hz⟩ := List.exists_mem_of_ne_nil ys hnil
      have hzi := hsub z hz
      rw [(h.state i).mp hnone] at hzi
      cases hzi
  · intro z hz
    rw [hself, if_neg (List.ne_nil_of_mem hz), hts z (.inr hz)]
    exact h.kind i z (hsub z hz)

theorem leaveQueue_eq (h : Waiting s q) (i : QueueId) (ht : t ∈ q i) :
    (leaveQueue s t i).epLinks = s.epLinks.remove t ∧
      (leaveQueue s t i).queueOf i = (s.queueOf i).remove s.epLinks t ∧
      (∀ j, j ≠ i → (leaveQueue s t i).queueOf j = s.queueOf j) ∧
      (∀ j, j ≠ i → (leaveQueue s t i).waitState j = s.waitState j) ∧
      (leaveQueue s t i).waitState i = if (q i).erase t = [] then none else s.waitState i := by
  have hholds := h.queues.holds i
  have hempty := (hholds.remove ht).head_eq_zero_iff
  have hprev : s.tcbEPPrev t ≠ 0 → s.tcbEPPrev t ≠ t := hholds.prev_ne ht
  cases i with
  | ep e =>
      simp only [leaveQueue, epDequeue, tcbEPDequeue_eq _ hprev]
      change ((s.epQueue e).remove s.epLinks t).head = 0 ↔ _ at hempty
      simp only [hempty]
      split_ifs with hnil
      · refine ⟨rfl, update_self .., ?_, ?_, ?_⟩
        · rintro (e' | a) hj
          · exact update_of_ne (fun heq => hj (congrArg QueueId.ep heq)) ..
          · rfl
        · rintro (e' | a) hj
          · simp only [KState.waitState, setEPState, setEPQueue]
            rw [update_of_ne fun heq => hj (congrArg QueueId.ep heq)]
          · rfl
        · simp only [KState.waitState, setEPState, update_self]
      · refine ⟨rfl, update_self .., ?_, fun _ _ => rfl, rfl⟩
        rintro (e' | a) hj
        · exact update_of_ne (fun heq => hj (congrArg QueueId.ep heq)) ..
        · rfl
  | aep a =>
      simp only [leaveQueue, aepDequeue, tcbEPDequeue_eq _ hprev]
      change ((s.aepQueue a).remove s.epLinks t).head = 0 ↔ _ at hempty
      simp only [hempty]
      split_ifs with hnil
      · refine ⟨rfl, update_self .., ?_, ?_, ?_⟩
        · rintro (e | a') hj
          · rfl
          · exact update_of_ne (fun heq => hj (congrArg QueueId.aep heq)) ..
        · rintro (e | a') hj
          · rfl
          · simp only [KState.waitState, setAEPState, setAEPQueue]
            rw [update_of_ne fun heq => hj (congrArg QueueId.aep heq)]
        · simp only [KState.waitState, setAEPState, update_self]
      · refine ⟨rfl, update_self .., ?_, fun _ _ => rfl, rfl⟩
        rintro (e | a') hj
        · rfl
        · exact update_of_ne (fun heq => hj (congrArg QueueId.aep heq)) ..

theorem wake (h : Waiting s q) {i : QueueId} (ht : t ∈ q i) (ts : ThreadStateType)
    (hts : ts.NotWaiting) (hpart : s'.epPart = KState.epPart { leaveQueue s t i with
      tsType := update s.tsType t ts }) :
    Waiting s' (update q i ((q i).erase t)) := by
  refine Waiting.congr ?_ hpart
  obtain ⟨hlinks, hself, hqueue, hstate, hwait⟩ := h.leaveQueue_eq i ht
  have hholds := h.queues.holds i
  refine h.leave i (fun z hz => List.mem_of_mem_erase hz) ?_ ?_ hqueue hstate hwait ?_ ?_ ?_
  · have := hholds.remove ht
    rwa [← hlinks, ← hself] at this
  · intro z hz
    have := hholds.remove_frame ht hz
    rwa [← hlinks] at this
  · rw [leaveQueue_frame]
  · intro z hz
    refine update_of_ne ?_ ..
    rcases hz with hz | hz
    · exact (ne_of_mem_of_not_mem ht hz).symm
    · exact (hholds.nodup.mem_erase_iff.mp hz).1
  · intro z hz hzt
    have : z = t := by
      by_contra hne
      exact hzt ((List.mem_erase_of_ne hne).mpr hz)
    rw [this]
    simpa using hts

theorem clear (h : Waiting s q) (i : QueueId) (ts : ThreadStateType) (hts : ts.NotWaiting)
    (hpart : s'.epPart = KState.epPart { emptyQueue s i with
      tsType := fun z => if z ∈ q i then ts else s.tsType z }) :
    Waiting s' (update q i []) := by
  refine Waiting.congr ?_ hpart
  refine h.leave i (fun _ hz => by cases hz) ?_ ?_ ?_ ?_ ?_ ?_ ?_ ?_
  · cases i <;>
    · simp only [emptyQueue, setEPQueue, setAEPQueue, KState.queueOf, update_self]
      exact .empty
  · cases i <;> exact fun z _ => ⟨rfl, rfl⟩
  · intro j hj
    cases i with
    | ep e =>
        cases j with
        | ep e' => exact update_of_ne (fun heq => hj (congrArg QueueId.ep heq)) ..
        | aep a => rfl
    | aep a =>
        cases j with
        | ep e => rfl
        | aep a' => exact update_of_ne (fun heq => hj (congrArg QueueId.aep heq)) ..
  · intro j hj
    cases i with
    | ep e =>
        cases j with
        | ep e' =>
            simp only [KState.waitState, emptyQueue, setEPState, setEPQueue]
            rw [update_of_ne fun heq => hj (congrArg QueueId.ep heq)]
        | aep a => rfl
    | aep a =>
        cases j with
        | ep e => rfl
        | aep a' =>
            simp only [KState.waitState, emptyQueue, setAEPState, setAEPQueue]
            rw [update_of_ne fun heq => hj (congrArg QueueId.aep heq)]
  · cases i with
    | ep e => simp only [KState.waitState, emptyQueue, setEPState, setEPQueue, update_self, if_true]
    | aep a =>
        simp only [KState.waitState, emptyQueue, setAEPState, setAEPQueue, update_self, if_true]
  · cases i <;> rfl
  · intro z hz
    exact if_neg (hz.resolve_right fun hc => by cases hc)
  · intro z hz _
    simpa [hz] using hts

end Waiting

end PartitionSeL4.Kernel
