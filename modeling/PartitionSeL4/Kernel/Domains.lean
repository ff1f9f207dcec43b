import PartitionSeL4.Kernel.KernelRun

/-!
# Several domains

With several domains `possibleSwitchTo` puts a thread in its ready queue only if it is of another
domain than the one that runs. A thread that gets a message from its own domain is left out.

* `send_orphans`: it can run then, but it is in no ready queue, and no time that passes brings it
  back.
-/

namespace PartitionSeL4.Kernel

open Lib Function

variable {μ : Type} {cfg : Config} {plat : Platform μ} {s s' : KState μ}
  {q : QueueId → List Nat} {t : Nat}

/-! ## Time passes -/

/-- User code runs, the timer ticks and threads yield. -/
def KernelEvent.Passes : KernelEvent μ → Prop
  | user _ | entry .timerTick | entry .yield => True
  | entry _ => False

theorem Orphaned.leave (h : Orphaned s t) (hs : Settled cfg s 0) (plat : Platform μ)
    (hcfg : cfg.Ok) (hcall : (do
      let s ← schedule cfg plat s
      activateThread cfg plat s) = .ok s') : Orphaned s' t := by
  obtain ⟨s₁, hcall₁, hsched, hs₁, hact₁, hout⟩ := hs.schedule plat hcfg
  obtain ⟨s₂, hcall₂, -, -, hs₂⟩ := hs₁.activateThread plat hact₁
  simp only [bind, Except.bind, hcall₁, hcall₂] at hcall
  obtain rfl := Except.ok.inj hcall
  have ht := hout t h
  rcases hs₂ with rfl | ⟨-, hs₂⟩
  · exact ht
  · rw [hs₂]
    refine ⟨?_, ht.aside, ht.current⟩
    simp only [isRunnable, update_of_ne ht.current]
    exact ht.run

theorem Orphaned.event (h : Orphaned s t) (hinv : KInv cfg s q)
    (hresume : s.ksSchedulerAction = .resumeCurrentThread) (hcfg : cfg.Ok) {e : KernelEvent μ}
    (hok : e.Ok cfg s) (hpass : e.Passes) (hcall : e.run cfg plat s = .ok s') :
    Orphaned s' t := by
  cases e with
  | user context =>
      obtain rfl := Except.ok.inj hcall
      exact ⟨h.run, h.aside, h.current⟩
  | entry e =>
      cases e with
      | timerTick =>
          obtain ⟨s₁, hcall₁, -, hs₁, hout⟩ := hinv.settled.timerTick
          rw [KernelEvent.run, KernelEntry.handle, hcall₁] at hcall
          exact (hout t h).leave hs₁ plat hcfg hcall
      | yield =>
          have hact := hinv.settled.acting hresume hok
          obtain ⟨s₁, hcall₁, -, hs₁, hout⟩ := hinv.settled.handleYield hact.run hact.aside.2
          rw [KernelEvent.run, KernelEntry.handle, hcall₁] at hcall
          exact (hout t h).leave hs₁ plat hcfg hcall
      | invocation | reply | wait | replyWait | fault | interrupt => cases hpass

/-- However much time passes, the thread does not run. -/
theorem Orphaned.run_keeps {evs : List (KernelEvent μ)} (h : Orphaned s t)
    (hreached : KernelReached cfg plat s) (hcfg : cfg.Ok)
    (hrun : Run (KernelEvent.run cfg plat) (fun s e => KernelEvent.Ok cfg s e ∧ e.Passes)
      s evs s') : Orphaned s' t := by
  refine (hrun.invariant (I := fun s => KernelReached cfg plat s ∧ Orphaned s t) ⟨hreached, h⟩
    fun s₁ e s₂ hs₁ he hcall => ?_).2
  obtain ⟨hinv, hresume⟩ := hs₁.1.inv hcfg
  exact ⟨hs₁.1.next he.1 hcall, hs₁.2.event hinv hresume hcfg he.1 he.2 hcall⟩

/-! ## A message -/

/-- With several domains the receiver is not scheduled, if it is in the sender's domain. -/
theorem sendIPC_within {e badge : Nat} {isBlocking canGrant : Bool} (hmany : 1 < cfg.numDomains)
    (hstate : s.epState e = .recv) (h0 : (s.epQueue e).head ≠ 0)
    (hprev : s.tcbEPPrev (s.epQueue e).head = 0) (hne : (s.epQueue e).head ≠ s.ksCurThread)
    (hdom : s.tcbDomain (s.epQueue e).head = s.ksCurDomain)
    (hfault : s.tcbFault s.ksCurThread = .null) :
    sendIPC cfg plat s isBlocking false badge canGrant s.ksCurThread e =
      .ok { epDequeue s e (s.epQueue e).head with
        context := doIPCTransfer plat s.context .null s.ksCurThread e badge canGrant
          (s.epQueue e).head (s.blockingIPCDiminishCaps (s.epQueue e).head)
        tsType := update s.tsType (s.epQueue e).head .running } := by
  simp only [sendIPC, hstate, h0, if_false, epDequeue_eq hprev, bind, Except.bind, hne,
    attemptSwitchTo, possibleSwitchTo, hmany, hdom, if_true, setThreadState, scheduleTCB, ne_eq,
    not_true, hfault, Bool.false_eq_true, or_self, false_and]

theorem send_orphaned (hinv : KInv cfg s q) (hresume : s.ksSchedulerAction = .resumeCurrentThread)
    (hmany : 1 < cfg.numDomains) (hidle : s.ksCurThread ≠ s.ksIdleThread)
    (hfault : s.tcbFault s.ksCurThread = .null) {e : Nat} (hstate : s.epState e = .recv)
    (hdom : s.tcbDomain (s.epQueue e).head = s.ksCurDomain) (badge : Nat)
    (isBlocking canGrant : Bool) :
    ∃ s', KernelEvent.run cfg plat s
        (.entry (.invocation false isBlocking (.endpoint badge canGrant e))) = .ok s' ∧
      Orphaned s' (s.epQueue e).head := by
  have hact := hinv.settled.acting hresume hidle
  have hwait : s.waitState (.ep e) = some .blockedOnReceive := by rw [KState.waitState, hstate]
  obtain ⟨h0, hprev, -, hne, hq⟩ := hinv.firstWaits hact hwait rfl
  have hsend : sendIPC cfg plat { s with tsType := update s.tsType s.ksCurThread .restart }
      isBlocking false badge canGrant s.ksCurThread e = _ :=
    sendIPC_within hmany hstate h0 hprev hne hdom hfault
  have hdeq : epDequeue { s with tsType := update s.tsType s.ksCurThread .restart } e
    (s.epQueue e).head = _ := epDequeue_eq hprev
  rw [hdeq] at hsend
  refine ⟨{ epDequeue s e (s.epQueue e).head with
    context := doIPCTransfer plat s.context .null s.ksCurThread e badge canGrant (s.epQueue e).head
      (s.blockingIPCDiminishCaps (s.epQueue e).head)
    tsType := update (update (update s.tsType s.ksCurThread .restart) (s.epQueue e).head .running)
      s.ksCurThread .running }, ?_, ?_, ?_, ?_⟩ <;>
  rw [epDequeue_eq hprev]
  · rw [KernelEvent.run, KernelEntry.handle, handleInvocation]
    simp only [bind, Except.bind]
    rw [setThreadState_of_isRunnable rfl]
    simp only [Invocation.perform, hsend]
    simp only [update_of_ne hne.symm, update_self, if_true, Bool.false_eq_true, if_false,
      setThreadState, scheduleTCB, isRunnable, ThreadStateType.isRunnable, reduceCtorEq, and_false,
      schedule, hresume, activateThread]
  · simp only [isRunnable, update_of_ne hne, update_self]
    rfl
  · exact ⟨hq, fun hc => by rw [hresume] at hc; cases hc⟩
  · exact hne

/-- With several domains, a thread that sends a message within its domain leaves the receiver out of
the ready queues. No time that passes makes it run. -/
theorem send_orphans (hcfg : cfg.Ok) (hmany : 1 < cfg.numDomains) (h : KernelReached cfg plat s)
    (hidle : s.ksCurThread ≠ s.ksIdleThread) (hfault : s.tcbFault s.ksCurThread = .null) {e : Nat}
    (hstate : s.epState e = .recv) (hdom : s.tcbDomain (s.epQueue e).head = s.ksCurDomain)
    (badge : Nat) (isBlocking canGrant : Bool) :
    ∃ s', KernelEvent.run cfg plat s
        (.entry (.invocation false isBlocking (.endpoint badge canGrant e))) = .ok s' ∧
      ∀ evs s'', Run (KernelEvent.run cfg plat) (fun s e => KernelEvent.Ok cfg s e ∧ e.Passes)
        s' evs s'' → Orphaned s'' (s.epQueue e).head := by
  obtain ⟨hinv, hresume⟩ := h.inv hcfg
  obtain ⟨s', hcall, horphan⟩ :=
    send_orphaned hinv hresume hmany hidle hfault hstate hdom badge isBlocking canGrant
  have hok : KernelEvent.Ok cfg s
      (.entry (.invocation false isBlocking (.endpoint badge canGrant e))) := ⟨hidle, trivial⟩
  exact ⟨s', hcall, fun evs s'' hrun => horphan.run_keeps (h.next hok hcall) hcfg hrun⟩

/-! ## Example runs -/

def twoDomains : Config := ⟨2, [(0, 1), (1, 1)], 5⟩

theorem twoDomains_ok : twoDomains.Ok := fun _ => by decide

/-- The initial thread starts another one in its domain, and waits. -/
theorem exists_within : ∃ s : KState Unit, KernelReached twoDomains barePlatform s ∧
    s.ksCurThread ≠ s.ksIdleThread ∧ s.tcbFault s.ksCurThread = .null ∧ s.epState 0x40 = .recv ∧
      (s.epQueue 0x40).head = 0xE0000300 ∧ s.tcbDomain (s.epQueue 0x40).head = s.ksCurDomain := by
  have hboot : boot twoDomains barePlatform ⟨fun _ _ => 0, ()⟩ 0xE0000100 0xE0000300 =
      .ok bootedState := (boot_eq (by decide) rfl).trans (if_pos (by decide))
  have hbooted : KernelReached twoDomains barePlatform bootedState :=
    ⟨_, _, _, _, _, by decide, by decide, by decide, hboot, .nil⟩
  have hresume := hbooted.next (e := .entry (.invocation false true (.resume 0xE0000500)))
    ⟨show (_ : Nat) ≠ _ by decide, by decide, show (_ : Nat) ≠ _ by decide⟩ rfl
  have hwait := hresume.next (e := .entry (.wait (.endpoint 0x40 true)))
    (show (_ : Nat) ≠ _ by decide) rfl
  exact ⟨_, hwait, show (_ : Nat) ≠ _ by decide, rfl, rfl, rfl, rfl⟩

theorem send_orphans_within : ∃ s s' : KState Unit, (s.epQueue 0x40).head = 0xE0000300 ∧
    KernelEvent.run twoDomains barePlatform s
      (.entry (.invocation false true (.endpoint 7 true 0x40))) = .ok s' ∧
    Orphaned s' 0xE0000300 := by
  obtain ⟨s, hs, hidle, hfault, hstate, hhead, hdom⟩ := exists_within
  obtain ⟨s', hcall, horphan⟩ :=
    send_orphans twoDomains_ok (by decide) hs hidle hfault hstate hdom 7 true true
  exact ⟨s, s', hhead, hcall, hhead ▸ horphan [] s' .nil⟩

end PartitionSeL4.Kernel
