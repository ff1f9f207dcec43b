import PartitionSeL4.Kernel.Waiting

/-!
# Cancelling

When an endpoint goes away the threads that wait there start over, and when the capabilities with a
badge go away the senders with that badge do.

* `cancelAllLoop_ok`: all threads of a queue are restarted.
* `cancelBadgedLoop_ok`: the senders with the badge are, and the others stay in their order.
-/

namespace PartitionSeL4.Kernel

open Lib Function

variable {μ : Type} {cfg : Config} {s s' s₁ : KState μ} {q : QueueId → List Nat} {i : QueueId}
  {t : Nat}

theorem Waiting.blocked (h : Waiting s q) (ht : t ∈ q i) :
    isRunnable s t = false ∧ s.tsType t ≠ .inactive ∧ s.tsType t ≠ .idleThreadState := by
  have hkind := h.kind i t ht
  have hcases : s.tsType t = .blockedOnSend ∨ s.tsType t = .blockedOnReceive ∨
      s.tsType t = .blockedOnAsyncEvent := by
    cases i with
    | ep e =>
        rw [KState.waitState] at hkind
        cases hstate : s.epState e with
        | idle =>
            rw [hstate] at hkind
            cases hkind
        | send =>
            rw [hstate] at hkind
            exact .inl (Option.some.inj hkind).symm
        | recv =>
            rw [hstate] at hkind
            exact .inr (.inl (Option.some.inj hkind).symm)
    | aep a =>
        rw [KState.waitState] at hkind
        cases hstate : s.aepState a with
        | waiting =>
            rw [hstate] at hkind
            exact .inr (.inr (Option.some.inj hkind).symm)
        | idle =>
            rw [hstate] at hkind
            cases hkind
        | active =>
            rw [hstate] at hkind
            cases hkind
  rw [isRunnable]
  rcases hcases with hts | hts | hts <;> rw [hts] <;> decide

/-- A thread that is blocked, and not the idle thread. -/
structure Blocked (s : KState μ) (t : Nat) : Prop where
  stopped : isRunnable s t = false
  tcb : IsTcb t
  idle : t ≠ s.ksIdleThread

theorem Sched.blocked (hs : Sched cfg s 0) (h : Waiting s q) (ht : t ∈ q i) : Blocked s t := by
  obtain ⟨hrun, hactive, hidle⟩ := h.blocked ht
  exact ⟨hrun, hs.threads.tcb t hactive, fun heq => hidle ((hs.threads.idle t).mpr heq)⟩

theorem Sched.restartThread (h : Sched cfg s 0) (ht : Blocked s t) :
    ∃ s₁ s₂, setThreadState cfg s t .restart = .ok s₁ ∧ tcbSchedEnqueue cfg s₁ t = .ok s₂ ∧
      Rescheduled { s with tsType := update s.tsType t .restart } s₂ ∧ Sched cfg s₂ 0 := by
  have hrun : isRunnable { s with tsType := update s.tsType t .restart } t = true := by
    simp [isRunnable, ThreadStateType.isRunnable]
  have hs₁ : Sched cfg { s with tsType := update s.tsType t .restart } t :=
    (h.take (h.aside ht.stopped)).restate rfl rfl ht.tcb ht.idle (by decide)
  obtain ⟨s₂, hcall, hreq, hs₂, -⟩ := hs₁.enqueue (y := 0) hrun (.inr ⟨rfl, rfl⟩)
    (isTcb_ne_zero ht.tcb).symm
  refine ⟨_, s₂, ?_, hcall, hreq.rescheduled, hs₂⟩
  rw [setThreadState, scheduleTCB, if_neg]
  rw [hrun]
  exact fun hc => by cases hc.2.2

theorem Blocked.keep {z : Nat} (hz : Blocked s z)
    (hres : Rescheduled { s with tsType := update s.tsType t .restart } s') (hne : z ≠ t) :
    Blocked s' z := by
  unfold Rescheduled at hres
  refine ⟨?_, hz.tcb, ?_⟩
  · rw [isRunnable, hres]
    show (update s.tsType t .restart z).isRunnable = false
    rw [update_of_ne hne]
    exact hz.stopped
  · rw [hres]
    exact hz.idle

theorem cancelAllLoop_ok {zs : List Nat} {p fuel : Nat} (h : Sched cfg s 0)
    (hseg : s.epLinks.Seg p zs 0) (hn : zs.Nodup) (hz : ∀ z ∈ zs, Blocked s z)
    (hfuel : zs.length ≤ fuel) :
    ∃ s', cancelAllLoop cfg fuel s (zs.headD 0) = .ok s' ∧ Sched cfg s' 0 ∧
      Rescheduled { s with tsType := fun z => if z ∈ zs then .restart else s.tsType z } s' := by
  induction zs generalizing s p fuel with
  | nil =>
      refine ⟨s, ?_, h, ?_⟩
      · cases fuel <;> rfl
      · simp only [List.not_mem_nil, if_false]
        exact .refl
  | cons x zs ih =>
      obtain ⟨hx0, -, hnext, hrest⟩ := hseg
      obtain ⟨hxz, hnz⟩ := List.nodup_cons.mp hn
      obtain ⟨s₁, s₂, hcall₁, hcall₂, hres, hs₂⟩ := h.restartThread (hz x List.mem_cons_self)
      have hlinks : s₂.epLinks = s.epLinks := by
        unfold Rescheduled at hres
        rw [hres]
        rfl
      cases fuel with
      | zero => exact absurd hfuel (by simp)
      | succ fuel =>
          obtain ⟨s', hcall, hs', hres'⟩ := ih hs₂ (hlinks ▸ hrest) hnz
            (fun z hzz => (hz z (List.mem_cons_of_mem x hzz)).keep hres
              (ne_of_mem_of_not_mem hzz hxz))
            (Nat.le_of_succ_le_succ hfuel)
          refine ⟨s', ?_, hs', ?_⟩
          · rw [List.headD_cons, cancelAllLoop, if_neg hx0, hcall₁]
            simp only [bind, Except.bind]
            rw [hcall₂]
            have hnext₂ : s₂.tcbEPNext x = zs.headD 0 :=
              (congrFun (congrArg Links.next hlinks) x).trans hnext
            simp only [hnext₂]
            exact hcall
          · have htype : (fun z => if z ∈ zs then .restart else s₂.tsType z) =
                fun z => if z ∈ x :: zs then .restart else s.tsType z := by
              funext z
              unfold Rescheduled at hres
              rw [hres]
              by_cases hzx : z = x
              · simp [hzx]
              · simp [hzx]
            rw [htype] at hres'
            refine Rescheduled.trans ?_ hres'
            unfold Rescheduled at hres ⊢
            rw [hres]

theorem Sched.restartSender (h : Sched cfg s 0) (ht : Blocked s t) {queue : Queue} {zs : List Nat}
    (hq : Holds s.epLinks queue zs) (hin : t ∈ zs) :
    ∃ s₁ s₂ s₃, setThreadState cfg s t .restart = .ok s₁ ∧ tcbSchedEnqueue cfg s₁ t = .ok s₂ ∧
      tcbEPDequeue s₂ t queue = (s₃, queue.remove s.epLinks t) ∧ Sched cfg s₃ 0 ∧
      s₃.epLinks = s.epLinks.remove t ∧ (∀ z, z ≠ t → Blocked s z → Blocked s₃ z) ∧
      Rescheduled { s with
        tsType := update s.tsType t .restart
        tcbEPNext := s₃.tcbEPNext
        tcbEPPrev := s₃.tcbEPPrev } s₃ := by
  obtain ⟨s₁, s₂, hcall₁, hcall₂, hres, hs₂⟩ := h.restartThread ht
  have hlinks : s₂.epLinks = s.epLinks := by
    unfold Rescheduled at hres
    rw [hres]
    rfl
  have hdeq := tcbEPDequeue_eq (s := s₂) queue (t := t) fun hp => by
    have : s₂.epLinks.prev t ≠ 0 := hp
    rw [hlinks] at this
    exact (congrFun (congrArg Links.prev hlinks) t).trans_ne (hq.prev_ne hin this)
  rw [hlinks] at hdeq
  refine ⟨s₁, s₂, _, hcall₁, hcall₂, hdeq, hs₂.frame rfl rfl, rfl, fun z hne hz => ?_, ?_⟩
  · have hkeep := hz.keep hres hne
    exact ⟨hkeep.stopped, hkeep.tcb, hkeep.idle⟩
  · unfold Rescheduled at hres ⊢
    rw [hres]

/-- The senders with the badge are restarted, and the queue that is kept holds the others in their
order. -/
theorem cancelBadgedLoop_ok (h : Sched cfg s 0) (badge : Nat) {fuel : Nat} {zs : List Nat}
    {queue : Queue} (as : List Nat) (hq : Holds s.epLinks queue (as ++ zs))
    (hz : ∀ z ∈ zs, Blocked s z) (hfuel : zs.length ≤ fuel) :
    ∃ s' queue', cancelBadgedLoop cfg badge fuel s queue (zs.headD 0) = .ok (s', queue') ∧
      Sched cfg s' 0 ∧
      Holds s'.epLinks queue' (as ++ zs.filter fun z => s.blockingIPCBadge z ≠ badge) ∧
      (∀ z, z ∉ as ++ zs →
        s'.epLinks.next z = s.epLinks.next z ∧ s'.epLinks.prev z = s.epLinks.prev z) ∧
      Rescheduled { s with
        tsType := fun z => if z ∈ zs ∧ s.blockingIPCBadge z = badge then .restart else s.tsType z
        tcbEPNext := s'.tcbEPNext
        tcbEPPrev := s'.tcbEPPrev } s' := by
  induction zs generalizing s as queue fuel with
  | nil =>
      refine ⟨s, queue, ?_, h, by simpa using hq, fun _ _ => ⟨rfl, rfl⟩, ?_⟩
      · cases fuel <;> rfl
      · simp only [List.not_mem_nil, false_and, if_false]
        exact .refl
  | cons x zs ih =>
      have hx : x ∈ as ++ x :: zs := by simp
      obtain ⟨-, hx0, -, hnext, -⟩ := Links.seg_append.mp hq.seg
      have hnext' : s.tcbEPNext x = zs.headD 0 := hnext
      obtain ⟨hna, hnxz, hdisj⟩ := List.nodup_append.mp hq.nodup
      have hxz := (List.nodup_cons.mp hnxz).1
      cases fuel with
      | zero => exact absurd hfuel (by simp)
      | succ fuel =>
          have hle := Nat.le_of_succ_le_succ hfuel
          rw [List.headD_cons]
          unfold cancelBadgedLoop
          simp only [hx0, if_false]
          by_cases hb : s.blockingIPCBadge x = badge
          · -- the sender leaves the queue
            obtain ⟨s₁, s₂, s₃, hcall₁, hcall₂, hdeq, hs₃, hlinks, hkeep, hres⟩ :=
              h.restartSender (hz x List.mem_cons_self) hq hx
            have hbadge : s₃.blockingIPCBadge = s.blockingIPCBadge := by
              unfold Rescheduled at hres
              rw [hres]
            have hremove := hq.remove hx
            rw [List.erase_append_right _ fun hxa => hdisj x hxa x List.mem_cons_self rfl,
              List.erase_cons_head, ← hlinks] at hremove
            obtain ⟨s', queue', hcall, hs', hholds, hframe, hres'⟩ :=
              ih hs₃ as hremove (fun z hzz => hkeep z (ne_of_mem_of_not_mem hzz hxz)
                (hz z (List.mem_cons_of_mem x hzz))) hle
            refine ⟨s', queue', ?_, hs', ?_, ?_, ?_⟩
            · rw [if_pos hb, hcall₁]
              simp only [bind, Except.bind]
              rw [hcall₂]
              simp only [hdeq, hnext']
              exact hcall
            · rw [hbadge] at hholds
              rwa [List.filter_cons_of_neg (by simpa using hb)]
            · intro z hzn
              have hza : z ∉ as ++ zs := fun hmem => hzn (by
                rcases List.mem_append.mp hmem with hmem | hmem
                · exact List.mem_append_left _ hmem
                · exact List.mem_append_right _ (List.mem_cons_of_mem x hmem))
              obtain ⟨h1, h2⟩ := hframe z hza
              rw [h1, h2, hlinks]
              exact hq.remove_frame hx hzn
            · have htype : (fun z => if z ∈ zs ∧ s₃.blockingIPCBadge z = badge then .restart
                  else s₃.tsType z) = fun z => if z ∈ x :: zs ∧ s.blockingIPCBadge z = badge then
                    .restart else s.tsType z := by
                funext z
                have hts₃ : s₃.tsType = update s.tsType x .restart := by
                  unfold Rescheduled at hres
                  rw [hres]
                rw [hbadge, hts₃]
                by_cases hzx : z = x
                · simp [hzx, hb]
                · simp [hzx]
              rw [htype] at hres'
              unfold Rescheduled at hres hres' ⊢
              rw [hres', hres]
          · obtain ⟨s', queue', hcall, hs', hholds, hframe, hres'⟩ :=
              ih h (as ++ [x]) (by simpa using hq)
                (fun z hzz => hz z (List.mem_cons_of_mem x hzz)) hle
            refine ⟨s', queue', ?_, hs', ?_, ?_, ?_⟩
            · rw [if_neg hb, hnext']
              exact hcall
            · rw [List.filter_cons_of_pos (by simpa using hb)]
              simpa using hholds
            · intro z hzn
              exact hframe z (by simpa using hzn)
            · have htype : (fun z => if z ∈ zs ∧ s.blockingIPCBadge z = badge then .restart
                  else s.tsType z) = fun z => if z ∈ x :: zs ∧ s.blockingIPCBadge z = badge then
                    .restart else s.tsType z := by
                funext z
                by_cases hzx : z = x
                · simp [hzx, hb]
                · simp [hzx]
              rwa [htype] at hres'

/-- The senders with the badge have left the queue of an endpoint, which holds the others. -/
theorem Waiting.keepBadges (h : Waiting s q) {e badge : Nat} {queue : Queue}
    (hstate : s.epState e = .send)
    (hholds : Holds s'.epLinks queue
      ((q (.ep e)).filter fun z => s.blockingIPCBadge z ≠ badge))
    (hlinks : ∀ z, z ∉ q (.ep e) →
      s'.epLinks.next z = s.epLinks.next z ∧ s'.epLinks.prev z = s.epLinks.prev z)
    (hpart : s'.epPart = KState.epPart { s with
      tsType := fun z => if z ∈ q (.ep e) ∧ s.blockingIPCBadge z = badge then .restart
        else s.tsType z
      tcbEPNext := s'.tcbEPNext
      tcbEPPrev := s'.tcbEPPrev
      epQueue := update s.epQueue e queue
      epState := update s.epState e (if queue.head = 0 then .idle else .send) }) :
    Waiting s' (update q (.ep e) ((q (.ep e)).filter fun z => s.blockingIPCBadge z ≠ badge)) := by
  injection hpart with htype hep hnext hprev hst hq hast haq
  dsimp only at htype hst hq
  refine h.leave (.ep e) (fun z hz => List.mem_of_mem_filter hz) ?_ hlinks ?_ ?_ ?_ hep ?_ ?_
  · show Holds _ (s'.epQueue e) _
    rw [hq, update_self]
    exact hholds
  · rintro (e' | a) hj
    · show s'.epQueue e' = s.epQueue e'
      rw [hq, update_of_ne fun heq => hj (congrArg QueueId.ep heq)]
    · exact congrFun haq a
  · rintro (e' | a) hj
    · rw [KState.waitState, KState.waitState, hst,
        update_of_ne fun heq => hj (congrArg QueueId.ep heq)]
    · rw [KState.waitState, KState.waitState, hast]
  · simp only [KState.waitState, hst, update_self, hstate, hholds.head_eq_zero_iff]
    split_ifs <;> rfl
  · intro z hz
    rw [htype]
    refine if_neg fun hc => ?_
    rcases hz with hz | hz
    · exact hz hc.1
    · simpa [hc.2] using (List.mem_filter.mp hz).2
  · intro z hz hzf
    have hb : s.blockingIPCBadge z = badge := by
      by_contra hne
      exact hzf (List.mem_filter.mpr ⟨hz, by simpa using hne⟩)
    rw [htype]
    dsimp only
    rw [if_pos ⟨hz, hb⟩]
    decide

end PartitionSeL4.Kernel
