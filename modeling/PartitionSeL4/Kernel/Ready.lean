import PartitionSeL4.Kernel.Thread
import Mathlib.Algebra.Group.Nat.Defs

/-!
# The ready queues

The threads that are to run stand in one queue for each domain and priority. Two words of bits say
which queues are not empty, one bit for each priority and one for each 32 priorities, so that the
highest priority is found without a search.

* `Ready`: the queues and the bits in memory are those of lists of threads.
* `Ready.enqueue`, `Ready.append`, `Ready.dequeue`: the operations on a thread change its list.
* `Ready.highest`: the bits name the highest priority whose list is not empty.
-/

namespace PartitionSeL4.Kernel

open Lib Function

/-! ## Words of bits -/

section Bits

variable {w : BitVec 32} {i j : Nat}

theorem getLsbD_setBit (hj : j < 32) :
    (w ||| 1#32 <<< i).getLsbD j = true ↔ w.getLsbD j = true ∨ j = i := by
  rw [BitVec.getLsbD_or, BitVec.getLsbD_shiftLeft, BitVec.getLsbD_one]
  simp only [hj, decide_true, Bool.true_and, Bool.or_eq_true, Bool.and_eq_true,
    Bool.not_eq_true', decide_eq_false_iff_not, decide_eq_true_eq]
  refine or_congr_right ⟨fun h => ?_, fun h => ?_⟩
  · omega
  · omega

theorem getLsbD_clearBit (hj : j < 32) :
    (w &&& ~~~(1#32 <<< i)).getLsbD j = true ↔ w.getLsbD j = true ∧ j ≠ i := by
  rw [BitVec.getLsbD_and, BitVec.getLsbD_not, BitVec.getLsbD_shiftLeft, BitVec.getLsbD_one]
  simp only [hj, decide_true, Bool.true_and, Bool.and_eq_true, Bool.not_eq_true',
    Bool.and_eq_false_iff, Bool.not_eq_false', decide_eq_true_eq, decide_eq_false_iff_not]
  refine and_congr_right fun _ => ⟨fun h => ?_, fun h => ?_⟩
  · omega
  · omega

theorem getLsbD_zeroWord : (0 : BitVec 32).getLsbD i = false := BitVec.getLsbD_zero ..

theorem ne_zero_iff_exists_bit : w ≠ 0 ↔ ∃ b, b < 32 ∧ w.getLsbD b = true := by
  constructor
  · intro hw
    by_contra hnone
    refine hw (BitVec.eq_of_getLsbD_eq fun b hb => ?_)
    rw [getLsbD_zeroWord]
    exact Bool.eq_false_iff.mpr fun hbit => hnone ⟨b, hb, hbit⟩
  · rintro ⟨b, -, hbit⟩ rfl
    rw [getLsbD_zeroWord] at hbit
    cases hbit

theorem highestBit_spec (hw : w ≠ 0) :
    highestBit w < 32 ∧ w.getLsbD (highestBit w) = true ∧
      ∀ j, highestBit w < j → w.getLsbD j = false := by
  have hclz : w.clz.toNat < 32 := by
    have := BitVec.clz_lt_iff_ne_zero.mpr hw
    rw [BitVec.lt_def] at this
    simpa using this
  refine ⟨?_, BitVec.getLsbD_true_clz_of_ne_zero (by decide) hw, fun j hj => ?_⟩
  · rw [highestBit, wordBits]
    omega
  · rw [highestBit, wordBits] at hj
    have hlt := BitVec.toNat_lt_two_pow_sub_clz (x := w)
    by_cases hj32 : j < 32
    · have hbit := (BitVec.toNat_lt_iff_getLsbD_eq_false (32 - w.clz.toNat) (by omega)).mp hlt
        (j - (32 - w.clz.toNat))
      rwa [show 32 - w.clz.toNat + (j - (32 - w.clz.toNat)) = j by omega] at hbit
    · exact BitVec.getLsbD_of_ge _ _ (not_lt.mp hj32)

end Bits

/-! ## The index of a queue -/

/-- The index of the queue of a domain and a priority. -/
def Config.readyIdx (cfg : Config) (dom prio : Nat) : Nat :=
  if 1 < cfg.numDomains then dom * numPriorities + prio else prio

section Index

variable {cfg : Config} {dom dom' prio prio' : Nat}

theorem readyQueuesIndex_eq (hdom : dom < cfg.numDomains) :
    readyQueuesIndex cfg dom prio = .ok (cfg.readyIdx dom prio) := by
  rw [readyQueuesIndex, Config.readyIdx]
  split_ifs with hmany hzero
  · rfl
  · rfl
  · omega

theorem readyIdx_inj (hdom : dom < cfg.numDomains) (hdom' : dom' < cfg.numDomains)
    (hprio : prio < numPriorities) (hprio' : prio' < numPriorities) :
    cfg.readyIdx dom prio = cfg.readyIdx dom' prio' ↔ dom = dom' ∧ prio = prio' := by
  rw [Config.readyIdx, Config.readyIdx]
  rw [numPriorities] at *
  split_ifs with hmany <;> omega

end Index

/-! ## The bits -/

section Bitmaps

variable {μ : Type} {cfg : Config} {s s' : KState μ} {rq rq' : Nat → List Nat} {dom prio : Nat}

/-- The bits in memory say which lists are not empty. -/
structure Bitmaps (cfg : Config) (s : KState μ) (rq : Nat → List Nat) : Prop where
  l2 : ∀ dom l b, dom < cfg.numDomains → b < 32 →
    ((s.ksReadyQueuesL2Bitmap dom l).getLsbD b = true ↔
      l < 8 ∧ rq (cfg.readyIdx dom (l * 32 + b)) ≠ [])
  l1 : ∀ dom l, dom < cfg.numDomains →
    ((s.ksReadyQueuesL1Bitmap dom).getLsbD l = true ↔ s.ksReadyQueuesL2Bitmap dom l ≠ 0)

/-- The lists may change as long as none is emptied or begun. -/
theorem Bitmaps.keep (h : Bitmaps cfg s rq) (hempty : ∀ i, rq' i = [] ↔ rq i = []) :
    Bitmaps cfg s rq' :=
  ⟨fun dom l b hdom hb => by rw [h.l2 dom l b hdom hb, Ne, Ne, hempty], h.l1⟩

/-- Words of the second level beyond the priorities are zero. -/
theorem Bitmaps.word_lt (h : Bitmaps cfg s rq) (hdom : dom < cfg.numDomains) {l : Nat}
    (hl : s.ksReadyQueuesL2Bitmap dom l ≠ 0) : l < 8 := by
  obtain ⟨b, hb, hbit⟩ := ne_zero_iff_exists_bit.mp hl
  exact ((h.l2 dom l b hdom hb).mp hbit).1

theorem prio_split (hprio : prio < numPriorities) :
    prioToL1Index prio < 8 ∧ prio % 2 ^ 5 < 32 ∧ prioToL1Index prio * 32 + prio % 2 ^ 5 = prio := by
  rw [prioToL1Index]
  rw [numPriorities] at hprio
  omega

theorem Bitmaps.add (h : Bitmaps cfg s rq) (hdom : dom < cfg.numDomains)
    (hprio : prio < numPriorities) (hi : rq' (cfg.readyIdx dom prio) ≠ [])
    (hj : ∀ i, i ≠ cfg.readyIdx dom prio → rq' i = rq i) :
    Bitmaps cfg (addToBitmap s dom prio) rq' := by
  obtain ⟨hl8, hb32, hsplit⟩ := prio_split hprio
  have hl2 : ∀ dom' l b, dom' < cfg.numDomains → b < 32 →
      (((addToBitmap s dom prio).ksReadyQueuesL2Bitmap dom' l).getLsbD b = true ↔
        l < 8 ∧ rq' (cfg.readyIdx dom' (l * 32 + b)) ≠ []) := by
    intro dom' l b hdom' hb
    have hkeep : ¬ (dom' = dom ∧ l = prioToL1Index prio ∧ b = prio % 2 ^ 5) → l < 8 →
        rq' (cfg.readyIdx dom' (l * 32 + b)) = rq (cfg.readyIdx dom' (l * 32 + b)) := by
      intro hne hl
      refine hj _ fun heq => hne ?_
      obtain ⟨rfl, hp⟩ := (readyIdx_inj hdom' hdom (by rw [numPriorities]; omega) hprio).mp heq
      exact ⟨rfl, by omega, by omega⟩
    simp only [addToBitmap]
    by_cases hd : dom' = dom
    · subst hd
      by_cases hl : l = prioToL1Index prio
      · subst hl
        rw [update_self, update_self, getLsbD_setBit hb, h.l2 dom' _ b hdom hb]
        by_cases hbp : b = prio % 2 ^ 5
        · rw [hbp, hsplit]
          exact ⟨fun _ => ⟨hl8, hi⟩, fun _ => .inr rfl⟩
        · rw [hkeep (fun hc => hbp hc.2.2) hl8]
          exact ⟨fun hor => hor.resolve_right hbp, .inl⟩
      · rw [update_self, update_of_ne hl, h.l2 dom' l b hdom hb]
        exact and_congr_right fun hl8 => by rw [hkeep (fun hc => hl hc.2.1) hl8]
    · rw [update_of_ne hd, h.l2 dom' l b hdom' hb]
      exact and_congr_right fun hl8 => by rw [hkeep (fun hc => hd hc.1) hl8]
  refine ⟨hl2, fun dom' l hdom' => ?_⟩
  simp only [addToBitmap]
  by_cases hd : dom' = dom
  · subst hd
    rw [update_self, update_self]
    by_cases hl : l < 32
    · rw [getLsbD_setBit hl, h.l1 dom' l hdom]
      by_cases hlp : l = prioToL1Index prio
      · subst hlp
        rw [update_self]
        refine ⟨fun _ => ne_zero_iff_exists_bit.mpr ⟨prio % 2 ^ 5, hb32, ?_⟩, fun _ => .inr rfl⟩
        exact (getLsbD_setBit hb32).mpr (.inr rfl)
      · rw [update_of_ne hlp]
        exact ⟨fun hor => hor.resolve_right hlp, .inl⟩
    · rw [update_of_ne (by omega), BitVec.getLsbD_of_ge _ _ (by omega)]
      refine ⟨fun hf => (by cases hf), fun hw => ?_⟩
      have := h.word_lt hdom hw
      omega
  · rw [update_of_ne hd, update_of_ne hd]
    exact h.l1 dom' l hdom'

theorem Bitmaps.remove (h : Bitmaps cfg s rq) (hdom : dom < cfg.numDomains)
    (hprio : prio < numPriorities) (hi : rq' (cfg.readyIdx dom prio) = [])
    (hj : ∀ i, i ≠ cfg.readyIdx dom prio → rq' i = rq i) :
    Bitmaps cfg (removeFromBitmap s dom prio) rq' := by
  obtain ⟨hl8, hb32, hsplit⟩ := prio_split hprio
  refine ⟨fun dom' l b hdom' hb => ?_, fun dom' l hdom' => ?_⟩
  · have hkeep : ¬ (dom' = dom ∧ l = prioToL1Index prio ∧ b = prio % 2 ^ 5) → l < 8 →
        rq' (cfg.readyIdx dom' (l * 32 + b)) = rq (cfg.readyIdx dom' (l * 32 + b)) := by
      intro hne hl
      refine hj _ fun heq => hne ?_
      obtain ⟨rfl, hp⟩ := (readyIdx_inj hdom' hdom (by rw [numPriorities]; omega) hprio).mp heq
      exact ⟨rfl, by omega, by omega⟩
    simp only [removeFromBitmap]
    by_cases hd : dom' = dom
    · subst hd
      by_cases hl : l = prioToL1Index prio
      · subst hl
        rw [update_self, update_self, getLsbD_clearBit hb, h.l2 dom' _ b hdom hb]
        by_cases hbp : b = prio % 2 ^ 5
        · rw [hbp, hsplit, hi]
          exact ⟨fun hand => absurd rfl hand.2, fun hand => absurd rfl hand.2⟩
        · rw [hkeep (fun hc => hbp hc.2.2) hl8]
          exact ⟨And.left, fun hand => ⟨hand, hbp⟩⟩
      · rw [update_self, update_of_ne hl, h.l2 dom' l b hdom hb]
        exact and_congr_right fun hl8 => by rw [hkeep (fun hc => hl hc.2.1) hl8]
    · rw [update_of_ne hd, h.l2 dom' l b hdom' hb]
      exact and_congr_right fun hl8 => by rw [hkeep (fun hc => hd hc.1) hl8]
  · simp only [removeFromBitmap]
    by_cases hd : dom' = dom
    · subst hd
      rw [update_self]
      by_cases hlp : l = prioToL1Index prio
      · subst hlp
        rw [update_self]
        split_ifs with hword
        · rw [update_self, getLsbD_clearBit (by omega)]
          exact ⟨fun hand => absurd rfl hand.2, fun hne => absurd hword hne⟩
        · refine ⟨fun _ => hword, fun _ => (h.l1 dom' _ hdom).mpr fun hzero => hword ?_⟩
          rw [hzero]
          exact BitVec.zero_and
      · rw [update_of_ne hlp, ← h.l1 dom' l hdom]
        split_ifs
        · rw [update_self]
          by_cases hl : l < 32
          · rw [getLsbD_clearBit hl]
            exact ⟨And.left, fun hbit => ⟨hbit, hlp⟩⟩
          · rw [BitVec.getLsbD_of_ge _ _ (by omega), BitVec.getLsbD_of_ge _ _ (by omega)]
        · exact Iff.rfl
    · rw [update_of_ne hd]
      split_ifs
      · rw [update_of_ne hd]
        exact h.l1 dom' l hdom'
      · exact h.l1 dom' l hdom'

/-- The two words of bits lead to the highest priority whose list is not empty. -/
theorem Bitmaps.highest (h : Bitmaps cfg s rq) (hdom : dom < cfg.numDomains)
    (hne : s.ksReadyQueuesL1Bitmap dom ≠ 0) {l1 l2 : Nat}
    (hl1 : l1 = highestBit (s.ksReadyQueuesL1Bitmap dom))
    (hl2 : l2 = highestBit (s.ksReadyQueuesL2Bitmap dom l1)) :
    (l1IndexToPrio l1 ||| l2) < numPriorities ∧
    rq (cfg.readyIdx dom (l1IndexToPrio l1 ||| l2)) ≠ [] ∧
      ∀ prio, prio < numPriorities → rq (cfg.readyIdx dom prio) ≠ [] →
        prio ≤ l1IndexToPrio l1 ||| l2 := by
  obtain ⟨-, hbit1, habove1⟩ := highestBit_spec hne
  rw [← hl1] at hbit1 habove1
  have hword := (h.l1 dom l1 hdom).mp hbit1
  obtain ⟨hlt2, hbit2, habove2⟩ := highestBit_spec hword
  rw [← hl2] at hlt2 hbit2 habove2
  obtain ⟨hl8, hlist⟩ := (h.l2 dom l1 l2 hdom hlt2).mp hbit2
  have hor : l1IndexToPrio l1 ||| l2 = l1 * 32 + l2 := by
    rw [l1IndexToPrio, Nat.mul_comm, ← Nat.two_pow_add_eq_or_of_lt hlt2]
    omega
  rw [hor]
  refine ⟨by rw [numPriorities]; omega, hlist, fun prio hprio hrq => ?_⟩
  obtain ⟨hp8, hp32, hsplit⟩ := prio_split hprio
  rw [← hsplit] at hrq
  have hbit := (h.l2 dom _ _ hdom hp32).mpr ⟨hp8, hrq⟩
  have hbit' := (h.l1 dom _ hdom).mpr (ne_zero_iff_exists_bit.mpr ⟨_, hp32, hbit⟩)
  have hle1 : prioToL1Index prio ≤ l1 := by
    by_contra hgt
    rw [habove1 _ (not_le.mp hgt)] at hbit'
    cases hbit'
  rcases hle1.lt_or_eq with hlt | heq
  · omega
  · rw [heq] at hbit
    have hle2 : prio % 2 ^ 5 ≤ l2 := by
      by_contra hgt
      rw [habove2 _ (not_le.mp hgt)] at hbit
      cases hbit
    omega

theorem Bitmaps.empty (h : Bitmaps cfg s rq) (hdom : dom < cfg.numDomains)
    (hzero : s.ksReadyQueuesL1Bitmap dom = 0) (hprio : prio < numPriorities) :
    rq (cfg.readyIdx dom prio) = [] := by
  obtain ⟨hp8, hp32, hsplit⟩ := prio_split hprio
  by_contra hrq
  rw [← hsplit] at hrq
  have hbit := (h.l2 dom _ _ hdom hp32).mpr ⟨hp8, hrq⟩
  have hbit' := (h.l1 dom _ hdom).mpr (ne_zero_iff_exists_bit.mpr ⟨_, hp32, hbit⟩)
  rw [hzero, getLsbD_zeroWord] at hbit'
  cases hbit'

end Bitmaps

/-! ## The queues -/

section Ready

variable {μ : Type} {cfg : Config} {s s' s₁ s₂ : KState μ} {rq rq' : Nat → List Nat} {tcb : Nat}

def KState.schedLinks (s : KState μ) : Links := ⟨s.tcbSchedNext, s.tcbSchedPrev⟩

/-- The index of a thread's queue. -/
def KState.idx (cfg : Config) (s : KState μ) (tcb : Nat) : Nat :=
  cfg.readyIdx (s.tcbDomain tcb) (s.tcbPriority tcb)

/-- The queues in memory hold the lists `rq`, each of them the queued threads of its domain and
priority. -/
structure Ready (cfg : Config) (s : KState μ) (rq : Nat → List Nat) : Prop where
  queues : Queues s.schedLinks s.ksReadyQueues rq
  mem : ∀ t i, t ∈ rq i ↔ s.tcbQueued t = true ∧ s.idx cfg t = i
  domain : ∀ t, s.tcbDomain t < cfg.numDomains
  priority : ∀ t, s.tcbPriority t < numPriorities
  bitmaps : Bitmaps cfg s rq

theorem Ready.assign (h : Ready cfg s rq) {dom prio : Nat} (hq : s.tcbQueued tcb = false)
    (hdom : dom < cfg.numDomains) (hprio : prio < numPriorities) :
    Ready cfg { s with
      tcbDomain := update s.tcbDomain tcb dom
      tcbPriority := update s.tcbPriority tcb prio } rq := by
  have hidx : ∀ t, t ≠ tcb → KState.idx cfg { s with
      tcbDomain := update s.tcbDomain tcb dom
      tcbPriority := update s.tcbPriority tcb prio } t = s.idx cfg t := by
    intro t ht
    simp only [KState.idx, update_of_ne ht]
  refine ⟨h.queues, fun t i => ?_, fun t => ?_, fun t => ?_, h.bitmaps.l2, h.bitmaps.l1⟩
  · rw [h.mem]
    refine and_congr_right fun ht => ?_
    rw [hidx t fun htt => by rw [htt, hq] at ht; cases ht]
  · by_cases ht : t = tcb
    · subst ht
      simpa using hdom
    · simpa [ht] using h.domain t
  · by_cases ht : t = tcb
    · subst ht
      simpa using hprio
    · simpa [ht] using h.priority t

/-- Two states that differ in the ready queues only. -/
def Requeued (s s' : KState μ) : Prop :=
  s' = { s with
    tcbQueued := s'.tcbQueued
    tcbSchedNext := s'.tcbSchedNext
    tcbSchedPrev := s'.tcbSchedPrev
    ksReadyQueues := s'.ksReadyQueues
    ksReadyQueuesL1Bitmap := s'.ksReadyQueuesL1Bitmap
    ksReadyQueuesL2Bitmap := s'.ksReadyQueuesL2Bitmap }

namespace Requeued

theorem refl : Requeued s s := rfl

theorem trans (h : Requeued s s₁) (h' : Requeued s₁ s₂) : Requeued s s₂ := by
  unfold Requeued at *
  rw [h] at h'
  exact h'

theorem tsType (h : Requeued s s') : s'.tsType = s.tsType := by
  unfold Requeued at h
  rw [h]

theorem tcbDomain (h : Requeued s s') : s'.tcbDomain = s.tcbDomain := by
  unfold Requeued at h
  rw [h]

theorem tcbPriority (h : Requeued s s') : s'.tcbPriority = s.tcbPriority := by
  unfold Requeued at h
  rw [h]

theorem ksCurThread (h : Requeued s s') : s'.ksCurThread = s.ksCurThread := by
  unfold Requeued at h
  rw [h]

theorem ksSchedulerAction (h : Requeued s s') : s'.ksSchedulerAction = s.ksSchedulerAction := by
  unfold Requeued at h
  rw [h]

end Requeued

theorem Ready.index (h : Ready cfg s rq) (tcb : Nat) :
    readyQueuesIndex cfg (s.tcbDomain tcb) (s.tcbPriority tcb) = .ok (s.idx cfg tcb) :=
  readyQueuesIndex_eq (h.domain tcb)

theorem Ready.not_mem (h : Ready cfg s rq) (hq : s.tcbQueued tcb = false) (i : Nat) :
    tcb ∉ rq i := by
  intro hmem
  rw [h.mem, hq] at hmem
  cases hmem.1

theorem Ready.mem_insert (h : Ready cfg s rq) (tcb : Nat) {l : List Nat}
    (hl : ∀ t, t ∈ l ↔ t = tcb ∨ t ∈ rq (s.idx cfg tcb)) (t i : Nat) :
    t ∈ update rq (s.idx cfg tcb) l i ↔ update s.tcbQueued tcb true t = true ∧ s.idx cfg t = i := by
  by_cases hi : i = s.idx cfg tcb
  · subst hi
    rw [update_self, hl, h.mem]
    by_cases ht : t = tcb
    · subst ht
      rw [update_self]
      exact ⟨fun _ => ⟨rfl, rfl⟩, fun _ => .inl rfl⟩
    · rw [update_of_ne ht]
      exact ⟨fun hor => hor.resolve_left ht, .inr⟩
  · rw [update_of_ne hi, h.mem]
    by_cases ht : t = tcb
    · subst ht
      exact ⟨fun hand => absurd hand.2.symm hi, fun hand => absurd hand.2.symm hi⟩
    · rw [update_of_ne ht]

omit cfg s in
theorem update_empty {i : Nat} {l : List Nat} (hl : l ≠ []) (hi : rq i ≠ []) (j : Nat) :
    update rq i l j = [] ↔ rq j = [] := by
  by_cases hj : j = i
  · subst hj
    rw [update_self]
    exact iff_of_false hl hi
  · rw [update_of_ne hj]

theorem Ready.enqueue (h : Ready cfg s rq) (h0 : tcb ≠ 0) :
    ∃ s' rq', tcbSchedEnqueue cfg s tcb = .ok s' ∧ Requeued s s' ∧ Ready cfg s' rq' ∧
      s'.tcbQueued = update s.tcbQueued tcb true ∧
      rq' = if s.tcbQueued tcb then rq
        else update rq (s.idx cfg tcb) (tcb :: rq (s.idx cfg tcb)) := by
  by_cases hq : s.tcbQueued tcb = true
  · refine ⟨s, rq, if_pos hq, .refl, h, ?_, (if_pos hq).symm⟩
    rw [← hq, update_eq_self]
  · have hout := h.not_mem (Bool.eq_false_iff.mpr hq)
    have hqueues := h.queues.push (i := s.idx cfg tcb) h0 hout
    have hmem := h.mem_insert tcb (l := tcb :: rq (s.idx cfg tcb)) fun _ => List.mem_cons
    have htail := (h.queues.holds (s.idx cfg tcb)).tail_eq_zero_iff
    have hhead := (h.queues.holds (s.idx cfg tcb)).head_eq_zero_iff
    rw [tcbSchedEnqueue, if_neg hq]
    simp only [h.index tcb, bind, Except.bind, setReadyQueue]
    refine ⟨_, _, rfl, ?_, ?_, ?_, (if_neg hq).symm⟩
    · split_ifs <;> rfl
    · by_cases hempty : rq (s.idx cfg tcb) = []
      · have ht := htail.mpr hempty
        simp only [ht, if_true]
        rw [Links.push, if_pos (hhead.mpr hempty), Queue.push, if_pos ht] at hqueues
        have hbits : Bitmaps cfg (addToBitmap s (s.tcbDomain tcb) (s.tcbPriority tcb))
            (update rq (s.idx cfg tcb) (tcb :: rq (s.idx cfg tcb))) :=
          h.bitmaps.add (h.domain tcb) (h.priority tcb) (by simp [KState.idx]) fun i hi =>
            update_of_ne hi ..
        exact ⟨hqueues, hmem, h.domain, h.priority, hbits.l2, hbits.l1⟩
      · have ht := mt htail.mp hempty
        simp only [ht, if_false]
        rw [Links.push, if_neg (mt hhead.mp hempty), Queue.push, if_neg ht] at hqueues
        have hbits := h.bitmaps.keep
          (update_empty (List.cons_ne_nil tcb (rq (s.idx cfg tcb))) hempty)
        exact ⟨hqueues, hmem, h.domain, h.priority, hbits.l2, hbits.l1⟩
    · split_ifs <;> rfl

theorem Ready.append (h : Ready cfg s rq) (h0 : tcb ≠ 0) :
    ∃ s' rq', tcbSchedAppend cfg s tcb = .ok s' ∧ Requeued s s' ∧ Ready cfg s' rq' ∧
      s'.tcbQueued = update s.tcbQueued tcb true ∧
      rq' = if s.tcbQueued tcb then rq
        else update rq (s.idx cfg tcb) (rq (s.idx cfg tcb) ++ [tcb]) := by
  by_cases hq : s.tcbQueued tcb = true
  · refine ⟨s, rq, if_pos hq, .refl, h, ?_, (if_pos hq).symm⟩
    rw [← hq, update_eq_self]
  · have hout := h.not_mem (Bool.eq_false_iff.mpr hq)
    have hqueues := h.queues.append (i := s.idx cfg tcb) h0 hout
    have hmem := h.mem_insert tcb (l := rq (s.idx cfg tcb) ++ [tcb]) fun t => by
      rw [List.mem_append, List.mem_singleton, or_comm]
    have hhead := (h.queues.holds (s.idx cfg tcb)).head_eq_zero_iff
    rw [tcbSchedAppend, if_neg hq]
    simp only [h.index tcb, bind, Except.bind, setReadyQueue]
    refine ⟨_, _, rfl, ?_, ?_, ?_, (if_neg hq).symm⟩
    · split_ifs <;> rfl
    · by_cases hempty : rq (s.idx cfg tcb) = []
      · have hh := hhead.mpr hempty
        simp only [hh, if_true]
        rw [Links.append, if_pos hh, Queue.append, if_pos hh] at hqueues
        have hbits : Bitmaps cfg (addToBitmap s (s.tcbDomain tcb) (s.tcbPriority tcb))
            (update rq (s.idx cfg tcb) (rq (s.idx cfg tcb) ++ [tcb])) :=
          h.bitmaps.add (h.domain tcb) (h.priority tcb) (by simp [KState.idx]) fun i hi =>
            update_of_ne hi ..
        exact ⟨hqueues, hmem, h.domain, h.priority, hbits.l2, hbits.l1⟩
      · have hh := mt hhead.mp hempty
        simp only [hh, if_false]
        rw [Links.append, if_neg hh, Queue.append, if_neg hh] at hqueues
        have hbits := h.bitmaps.keep
          (update_empty (List.append_ne_nil_of_right_ne_nil (rq (s.idx cfg tcb))
            (List.cons_ne_nil tcb [])) hempty)
        exact ⟨hqueues, hmem, h.domain, h.priority, hbits.l2, hbits.l1⟩
    · split_ifs <;> rfl

theorem Ready.mem_erase (h : Ready cfg s rq) (tcb t i : Nat) :
    t ∈ update rq (s.idx cfg tcb) ((rq (s.idx cfg tcb)).erase tcb) i ↔
      update s.tcbQueued tcb false t = true ∧ s.idx cfg t = i := by
  by_cases hi : i = s.idx cfg tcb
  · subst hi
    rw [update_self, (h.queues.holds _).nodup.mem_erase_iff, h.mem]
    by_cases ht : t = tcb
    · subst ht
      rw [update_self]
      exact ⟨fun hand => absurd rfl hand.1, fun hand => (by cases hand.1)⟩
    · rw [update_of_ne ht]
      exact ⟨And.right, fun hand => ⟨ht, hand⟩⟩
  · rw [update_of_ne hi, h.mem]
    by_cases ht : t = tcb
    · subst ht
      exact ⟨fun hand => absurd hand.2.symm hi, fun hand => absurd hand.2.symm hi⟩
    · rw [update_of_ne ht]

theorem alone_iff {l : Links} {q : Queue} {xs : List Nat} (h : Holds l q xs) (hmem : tcb ∈ xs) :
    xs.erase tcb = [] ↔ l.prev tcb = 0 ∧ l.next tcb = 0 := by
  rw [← (h.remove hmem).head_eq_zero_iff, Queue.remove]
  dsimp only
  split_ifs with hp
  · exact ⟨fun hn => ⟨hp, hn⟩, And.right⟩
  · refine ⟨fun h0 => ?_, fun hand => absurd hand.1 hp⟩
    rw [h.head_eq_zero_iff.mp h0] at hmem
    cases hmem

omit cfg rq in
@[simp] theorem removeFromBitmap_tcbSchedNext {dom prio : Nat} :
    (removeFromBitmap s dom prio).tcbSchedNext = s.tcbSchedNext := rfl

theorem Ready.dequeue (h : Ready cfg s rq) (tcb : Nat) :
    ∃ s' rq', tcbSchedDequeue cfg s tcb = .ok s' ∧ Requeued s s' ∧ Ready cfg s' rq' ∧
      s'.tcbQueued = update s.tcbQueued tcb false ∧
      rq' = if s.tcbQueued tcb then update rq (s.idx cfg tcb) ((rq (s.idx cfg tcb)).erase tcb)
        else rq := by
  by_cases hq : s.tcbQueued tcb = true
  · have hin : tcb ∈ rq (s.idx cfg tcb) := (h.mem tcb _).mpr ⟨hq, rfl⟩
    have hqueues := h.queues.remove hin
    have hmem := h.mem_erase tcb
    have hholds := h.queues.holds (s.idx cfg tcb)
    have hnext : (s.schedLinks.skipNext tcb).next tcb = s.tcbSchedNext tcb := by
      rw [Links.skipNext]
      split_ifs with hp
      · rfl
      · exact update_of_ne (hholds.prev_ne hin hp).symm ..
    have halone : (rq (s.idx cfg tcb)).erase tcb = [] ↔
        s.tcbSchedPrev tcb = 0 ∧ s.tcbSchedNext tcb = 0 := alone_iff hholds hin
    have hkeep : (rq (s.idx cfg tcb)).erase tcb ≠ [] →
        Bitmaps cfg s (update rq (s.idx cfg tcb) ((rq (s.idx cfg tcb)).erase tcb)) := fun hne =>
      h.bitmaps.keep (update_empty hne (List.ne_nil_of_mem hin))
    rw [tcbSchedDequeue, if_pos hq]
    simp only [h.index tcb, bind, Except.bind, setReadyQueue]
    rw [Links.remove, Links.skipPrev, hnext, Links.skipNext, Queue.remove] at hqueues
    simp only [KState.schedLinks] at hqueues
    -- whether the thread has one before it and one behind it
    by_cases hp : s.tcbSchedPrev tcb = 0
    · simp only [eq_true hp, if_true] at hqueues ⊢
      by_cases hn : s.tcbSchedNext tcb = 0
      · simp only [eq_true hn, removeFromBitmap_tcbSchedNext, if_true] at hqueues ⊢
        have hbits : Bitmaps cfg (removeFromBitmap s (s.tcbDomain tcb) (s.tcbPriority tcb))
            (update rq (s.idx cfg tcb) ((rq (s.idx cfg tcb)).erase tcb)) :=
          h.bitmaps.remove (h.domain tcb) (h.priority tcb)
            ((update_self ..).trans (halone.mpr ⟨hp, hn⟩)) fun i hi => update_of_ne hi ..
        exact ⟨_, _, rfl, rfl, ⟨hqueues, hmem, h.domain, h.priority, hbits.l2, hbits.l1⟩, rfl,
          (if_pos hq).symm⟩
      · simp only [hn, if_false] at hqueues ⊢
        have hbits := hkeep fun hnil => hn (halone.mp hnil).2
        exact ⟨_, _, rfl, rfl, ⟨hqueues, hmem, h.domain, h.priority, hbits.l2, hbits.l1⟩, rfl,
          (if_pos hq).symm⟩
    · have hbits := hkeep fun hnil => hp (halone.mp hnil).1
      have hne : tcb ≠ s.tcbSchedPrev tcb := (hholds.prev_ne hin hp).symm
      simp only [hp, if_false, update_of_ne hne] at hqueues ⊢
      by_cases hn : s.tcbSchedNext tcb = 0
      · simp only [eq_true hn, if_true] at hqueues ⊢
        exact ⟨_, _, rfl, rfl, ⟨hqueues, hmem, h.domain, h.priority, hbits.l2, hbits.l1⟩, rfl,
          (if_pos hq).symm⟩
      · simp only [hn, if_false] at hqueues ⊢
        exact ⟨_, _, rfl, rfl, ⟨hqueues, hmem, h.domain, h.priority, hbits.l2, hbits.l1⟩, rfl,
          (if_pos hq).symm⟩
  · refine ⟨s, rq, if_neg hq, .refl, h, ?_, (if_neg hq).symm⟩
    rw [← Bool.eq_false_iff.mpr hq, update_eq_self]

end Ready

end PartitionSeL4.Kernel
