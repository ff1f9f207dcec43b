import PartitionSeL4.Kernel.Endpoint

/-!
# Reply capabilities

A caller's reply capability stands in the receiver's caller slot, or where the receiver has saved
it. It can be used once.

* `Replies`: there is at most one capability to reply to a thread, and that thread waits for the
  reply.
* `Replies.setup`, `Replies.free`, `Replies.move`: the capability comes, goes and is moved.
-/

namespace PartitionSeL4.Kernel

open Lib Function

/-- Who waits for a reply, and who may give it, with the threads' states, their master reply
capabilities and the capabilities in the slots. -/
structure Replies (tsType : Nat → ThreadStateType) (tcbReply : Nat → Option Nat)
    (replyCap : Nat → Nat) : Prop where
  cap : ∀ slot t, replyCap slot = t → t ≠ 0 →
    slot ≠ 0 ∧ tcbReply t = some slot ∧ tsType t = .blockedOnReply
  slot : ∀ t slot, tcbReply t = some slot → slot ≠ 0 → replyCap slot = t ∧ t ≠ 0
  receiver : ∀ t, tsType t = .blockedOnReceive → replyCap (callerSlot t) = 0
  master : ∀ t, tsType t ≠ .inactive → tsType t ≠ .idleThreadState → tcbReply t ≠ none

def KState.Replies {μ : Type} (s : KState μ) : Prop := Kernel.Replies s.tsType s.tcbReply s.replyCap

theorem callerSlot_inj {t z : Nat} (ht : IsTcb t) (hz : IsTcb z) (h : callerSlot t = callerSlot z) :
    t = z := by
  simp only [IsTcb, callerSlot, tcbPtrCtePtr] at *
  omega

theorem callerSlot_ne_zero {t : Nat} : callerSlot t ≠ 0 := by
  simp only [callerSlot, tcbPtrCtePtr]
  omega

/-- There is no capability to reply to the thread. -/
def NoCap (replyCap : Nat → Nat) (t : Nat) : Prop := ∀ slot, replyCap slot = t → t = 0

theorem NoCap.delete {replyCap : Nat → Nat} {t : Nat} (h : NoCap replyCap t) (slot : Nat) :
    NoCap (update replyCap slot 0) t := by
  intro sl hsl
  by_cases hs : sl = slot
  · rw [hs, update_self] at hsl
    exact hsl.symm
  · rw [update_of_ne hs] at hsl
    exact h sl hsl

namespace Replies

variable {tsType : Nat → ThreadStateType} {tcbReply : Nat → Option Nat} {replyCap : Nat → Nat}
  {t slot : Nat} {ts : ThreadStateType}

theorem noCap (h : Replies tsType tcbReply replyCap) (ht : tsType t ≠ .blockedOnReply) :
    NoCap replyCap t := by
  intro slot hcap
  by_contra h0
  exact ht (h.cap slot t hcap h0).2.2

theorem retype (h : Replies tsType tcbReply replyCap) {f : Nat → ThreadStateType}
    (hf : ∀ z, f z ≠ tsType z → NoCap replyCap z ∧
      (f z = .blockedOnReceive → replyCap (callerSlot z) = 0) ∧
      (f z ≠ .inactive → f z ≠ .idleThreadState → tcbReply z ≠ none)) :
    Replies f tcbReply replyCap := by
  refine ⟨fun slot t hcap h0 => ?_, h.slot, fun t ht => ?_, fun t ht hti => ?_⟩
  · obtain ⟨hslot, hreply, htype⟩ := h.cap slot t hcap h0
    refine ⟨hslot, hreply, ?_⟩
    by_contra hne
    exact h0 ((hf t fun heq => hne (heq.trans htype)).1 slot hcap)
  · by_cases heq : f t = tsType t
    · exact h.receiver t (heq ▸ ht)
    · exact (hf t heq).2.1 ht
  · by_cases heq : f t = tsType t
    · exact h.master t (fun hin => ht (heq.trans hin)) fun hid => hti (heq.trans hid)
    · exact (hf t heq).2.2 ht hti

theorem restate (h : Replies tsType tcbReply replyCap) (ht : NoCap replyCap t)
    (hrecv : ts = .blockedOnReceive → replyCap (callerSlot t) = 0)
    (hmaster : ts ≠ .inactive → ts ≠ .idleThreadState → tcbReply t ≠ none) :
    Replies (update tsType t ts) tcbReply replyCap := by
  refine h.retype fun z hz => ?_
  by_cases hzt : z = t
  · subst hzt
    rw [update_self]
    exact ⟨ht, hrecv, hmaster⟩
  · exact absurd (update_of_ne hzt ..) hz

theorem setup (h : Replies tsType tcbReply replyCap) (slot : Nat) (ht : NoCap replyCap t)
    (h0 : t ≠ 0) (hslot : slot ≠ 0) (hempty : replyCap slot = 0)
    (hrecv : ∀ z, tsType z = .blockedOnReceive → z ≠ t → callerSlot z ≠ slot) :
    Replies (update tsType t .blockedOnReply) (update tcbReply t (some slot))
      (update replyCap slot t) := by
  refine ⟨fun sl z hcap hz0 => ?_, fun z sl hreply hsl => ?_, fun z hz => ?_, fun z hz hzi => ?_⟩
  · by_cases hsl : sl = slot
    · subst hsl
      rw [update_self] at hcap
      subst hcap
      exact ⟨hslot, update_self .., update_self ..⟩
    · rw [update_of_ne hsl] at hcap
      have hzt : z ≠ t := fun hzt => h0 (ht sl (hcap.trans hzt))
      rw [update_of_ne hzt, update_of_ne hzt]
      exact h.cap sl z hcap hz0
  · by_cases hzt : z = t
    · subst hzt
      rw [update_self] at hreply
      injection hreply with hreply
      rw [← hreply, update_self]
      exact ⟨rfl, h0⟩
    · rw [update_of_ne hzt] at hreply
      obtain ⟨hcap, hz0⟩ := h.slot z sl hreply hsl
      have hsls : sl ≠ slot := fun heq => hz0 (hcap.symm.trans (heq ▸ hempty))
      rw [update_of_ne hsls]
      exact ⟨hcap, hz0⟩
  · by_cases hzt : z = t
    · rw [hzt, update_self] at hz
      cases hz
    · rw [update_of_ne hzt] at hz
      rw [update_of_ne (hrecv z hz hzt)]
      exact h.receiver z hz
  · by_cases hzt : z = t
    · rw [hzt, update_self]
      exact fun hc => by cases hc
    · rw [update_of_ne hzt] at hz hzi ⊢
      exact h.master z hz hzi

theorem free (h : Replies tsType tcbReply replyCap) (hcap : replyCap slot = t) (h0 : t ≠ 0)
    (hts : ts ≠ .blockedOnReceive) :
    Replies (update tsType t ts) (update tcbReply t (some 0)) (update replyCap slot 0) := by
  obtain ⟨-, hreply, -⟩ := h.cap slot t hcap h0
  refine ⟨fun sl z hz hz0 => ?_, fun z sl hz hsl => ?_, fun z hz => ?_, fun z hz hzi => ?_⟩
  · by_cases hsl : sl = slot
    · rw [hsl, update_self] at hz
      exact absurd hz.symm hz0
    · rw [update_of_ne hsl] at hz
      obtain ⟨h1, h2, h3⟩ := h.cap sl z hz hz0
      have hzt : z ≠ t := fun hzt => by
        rw [hzt, hreply] at h2
        exact hsl (Option.some.inj h2).symm
      rw [update_of_ne hzt, update_of_ne hzt]
      exact ⟨h1, h2, h3⟩
  · by_cases hzt : z = t
    · rw [hzt, update_self] at hz
      exact absurd (Option.some.inj hz).symm hsl
    · rw [update_of_ne hzt] at hz
      obtain ⟨hz, hz0⟩ := h.slot z sl hz hsl
      rw [update_of_ne fun heq : sl = slot => hzt (hz.symm.trans (heq ▸ hcap))]
      exact ⟨hz, hz0⟩
  · by_cases hzs : callerSlot z = slot
    · rw [hzs, update_self]
    · rw [update_of_ne hzs]
      by_cases hzt : z = t
      · rw [hzt, update_self] at hz
        exact absurd hz hts
      · rw [update_of_ne hzt] at hz
        exact h.receiver z hz
  · by_cases hzt : z = t
    · rw [hzt, update_self]
      exact fun hc => by cases hc
    · rw [update_of_ne hzt] at hz hzi ⊢
      exact h.master z hz hzi

theorem drop (h : Replies tsType tcbReply replyCap) (hcap : replyCap slot = t) (h0 : t ≠ 0) :
    Replies tsType (update tcbReply t (some 0)) (update replyCap slot 0) := by
  have htype := (h.cap slot t hcap h0).2.2
  have := h.free hcap h0 (show tsType t ≠ .blockedOnReceive by rw [htype]; decide)
  rwa [update_eq_self] at this

theorem move (h : Replies tsType tcbReply replyCap) {dest : Nat} (hcap : replyCap slot = t)
    (h0 : t ≠ 0) (hdest : dest ≠ 0) (hempty : replyCap dest = 0)
    (hrecv : ∀ z, tsType z = .blockedOnReceive → callerSlot z ≠ dest) :
    Replies tsType (update tcbReply t (some dest)) (update (update replyCap dest t) slot 0) := by
  have htype := (h.cap slot t hcap h0).2.2
  have hne : dest ≠ slot := fun heq => h0 (hcap.symm.trans (heq ▸ hempty))
  have hfree := h.free hcap h0 (show ThreadStateType.inactive ≠ .blockedOnReceive by decide)
  have hset := hfree.setup dest (hfree.noCap (t := t) (by rw [update_self]; decide)) h0
    hdest (by rw [update_of_ne hne]; exact hempty)
    fun z hz hzt => hrecv z (by rwa [update_of_ne hzt] at hz)
  rw [update_idem, update_idem] at hset
  have htypes : update tsType t .blockedOnReply = tsType := by
    rw [← htype, update_eq_self]
  rw [htypes, update_comm hne.symm] at hset
  exact hset

/-- The master reply capability of a thread that is stopped is deleted. -/
theorem master_clear (h : Replies tsType tcbReply replyCap) (ht : tsType t = .inactive) :
    Replies tsType (update tcbReply t none) replyCap := by
  have hnone := h.noCap (t := t) (by rw [ht]; decide)
  refine ⟨fun sl z hz hz0 => ?_, fun z sl hz hsl => ?_, h.receiver, fun z hz hzi => ?_⟩
  · have hzt : z ≠ t := by
      rintro rfl
      exact hz0 (hnone sl hz)
    rw [update_of_ne hzt]
    exact h.cap sl z hz hz0
  · by_cases hzt : z = t
    · rw [hzt, update_self] at hz
      cases hz
    · rw [update_of_ne hzt] at hz
      exact h.slot z sl hz hsl
  · by_cases hzt : z = t
    · rw [hzt] at hz
      exact absurd ht hz
    · rw [update_of_ne hzt]
      exact h.master z hz hzi

/-- A thread's master reply capability is set up while there is no capability to reply to it. -/
theorem master_setup (h : Replies tsType tcbReply replyCap)
    (ht : NoCap replyCap t) :
    Replies tsType (update tcbReply t (some 0)) replyCap := by
  refine ⟨fun sl z hz hz0 => ?_, fun z sl hz hsl => ?_, h.receiver, fun z hz hzi => ?_⟩
  · have hzt : z ≠ t := by
      rintro rfl
      exact hz0 (ht sl hz)
    rw [update_of_ne hzt]
    exact h.cap sl z hz hz0
  · by_cases hzt : z = t
    · rw [hzt, update_self] at hz
      exact absurd (Option.some.inj hz).symm hsl
    · rw [update_of_ne hzt] at hz
      exact h.slot z sl hz hsl
  · by_cases hzt : z = t
    · rw [hzt, update_self]
      exact fun hc => by cases hc
    · rw [update_of_ne hzt]
      exact h.master z hz hzi

end Replies

end PartitionSeL4.Kernel
