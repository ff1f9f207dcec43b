import PartitionSeL4.Kernel.Thread
import Mathlib.Tactic.SplitIfs

/-!
# Capability lookups

A thread names a capability by an address. CNodes resolve it: the root's guard takes the first bits,
and each CNode on the way takes as many as its radix for the slot that comes next. There are two
lookups.

* `resolveAddressBits`: the lookup of the slow path counts the bits that are left, and faults where
  a CNode takes more than these.
* `lookupFp`: the lookup of the fast path shifts the address up, and does not look whether bits are
  left.
* `lookupFp_lookupCap`: what the first finds, the second finds too.
* `lookupFp_overruns`: the second goes on where the first faults.
-/

namespace PartitionSeL4.Kernel

/-- A capability for a CNode. The fields of its guard's size and its radix have five bits, and no
CNode is made with a radix of zero. -/
structure CNodeCap where
  capCNodeGuardSize : Nat
  capCNodeRadix : Nat
  capCNodePtr : Nat
  guard_lt : capCNodeGuardSize < wordBits
  radix_pos : 0 < capCNodeRadix
  radix_lt : capCNodeRadix < wordBits
  deriving DecidableEq, Repr

/-- A capability in a slot, as far as the lookups and the fast paths read it. -/
inductive SlotCap where
  | null
  | endpoint (capEPBadge : Nat) (capCanSend capCanReceive capCanGrant : Bool) (capEPPtr : Nat)
  | cnode (cap : CNodeCap)
  | other
  deriving DecidableEq, Repr

/-- `lookup_fault_t`, where a lookup gives it. -/
inductive LookupFault where
  | invalidRoot
  | depthMismatch (bitsFound bitsLeft : Nat)
  | guardMismatch (guardFound bitsLeft bitsFound : Nat)
  deriving DecidableEq, Repr

/-- The address of a slot of a CNode. -/
def CNodeCap.slot (cap : CNodeCap) (offset : Nat) : Nat :=
  cap.capCNodePtr + offset * 2 ^ cteSizeBits

section Lookup

variable (slots : Nat → SlotCap) (capptr : Nat)

/-- The loop of `resolveAddressBits`. It gives the slot and the bits that remain. -/
def resolveLevels (nodeCap : CNodeCap) (nBits : Nat) : Except LookupFault (Nat × Nat) :=
  let levelBits := nodeCap.capCNodeRadix
  if nBits < levelBits then .error (.depthMismatch levelBits nBits)
  else
    let offset := (capptr >>> (nBits - levelBits)) % 2 ^ levelBits
    let slot := nodeCap.slot offset
    if nBits ≤ levelBits then .ok (slot, 0)
    else
      match slots slot with
      | .cnode next => resolveLevels next (nBits - levelBits)
      | _ => .ok (slot, nBits - levelBits)
termination_by nBits
decreasing_by
  have hpos := nodeCap.radix_pos
  omega

/-- Only the root's guard is looked at, and only its size. -/
def resolveAddressBits (nodeCap : SlotCap) (nBits : Nat) : Except LookupFault (Nat × Nat) :=
  match nodeCap with
  | .cnode cap =>
      let guardBits := cap.capCNodeGuardSize
      if nBits < guardBits then .error (.guardMismatch 0 nBits guardBits)
      else resolveLevels slots capptr cap (nBits - guardBits)
  | _ => .error .invalidRoot

/-- `lookupCap`, where the thread's root is `threadRoot`. Bits may remain. -/
def lookupCap (threadRoot : SlotCap) : Except LookupFault SlotCap :=
  match resolveAddressBits slots capptr threadRoot wordBits with
  | .ok (slot, _) => .ok (slots slot)
  | .error fault => .error fault

/-- The loop of `lookup_fp`. -/
def lookupFpLevels (cap : CNodeCap) (bits : Nat) : SlotCap :=
  let radixBits := cap.capCNodeRadix
  let cptr2 := (capptr <<< bits) % 2 ^ wordBits
  let radix := cptr2 >>> (wordBits - radixBits)
  let found := slots (cap.slot radix)
  if bits + radixBits < wordBits then
    match found with
    | .cnode next => lookupFpLevels next (bits + radixBits)
    | found => found
  else found
termination_by wordBits - bits
decreasing_by
  have hpos := cap.radix_pos
  omega

def lookupFp : SlotCap → SlotCap
  | .cnode cap => lookupFpLevels slots capptr cap cap.capCNodeGuardSize
  | _ => .null

end Lookup

variable {slots : Nat → SlotCap} {capptr nBits bits slot left : Nat} {node : CNodeCap}
  {root : SlotCap}

/-! ## The same slot -/

/-- The two ways to take the next bits of the address: from below, and from above after those that
are resolved are shifted out. -/
theorem shiftLeft_shiftRight (capptr : Nat) {levelBits : Nat} (hbits : bits + nBits = wordBits)
    (hlevel : levelBits ≤ nBits) :
    ((capptr <<< bits) % 2 ^ wordBits) >>> (wordBits - levelBits) =
      (capptr >>> (nBits - levelBits)) % 2 ^ levelBits := by
  have hword : 2 ^ wordBits = 2 ^ nBits * 2 ^ bits := by rw [← hbits, Nat.add_comm, Nat.pow_add]
  have hshift : 2 ^ (wordBits - levelBits) = 2 ^ bits * 2 ^ (nBits - levelBits) := by
    rw [← Nat.pow_add]
    congr 1
    omega
  have hn : 2 ^ nBits = 2 ^ (nBits - levelBits) * 2 ^ levelBits := by
    rw [← Nat.pow_add]
    congr 1
    omega
  rw [Nat.shiftLeft_eq, Nat.shiftRight_eq_div_pow, Nat.shiftRight_eq_div_pow, hword,
    Nat.mul_mod_mul_right, hshift, Nat.mul_comm (capptr % 2 ^ nBits),
    Nat.mul_div_mul_left _ _ (Nat.two_pow_pos bits), hn, Nat.mod_mul_right_div_self]

theorem lookupFpLevels_resolve (h : resolveLevels slots capptr node nBits = .ok (slot, left))
    (hbits : bits + nBits = wordBits) : lookupFpLevels slots capptr node bits = slots slot := by
  induction nBits using Nat.strong_induction_on generalizing node bits with
  | _ nBits ih =>
      rw [resolveLevels] at h
      split_ifs at h with hover hlast
      all_goals
        rw [lookupFpLevels, shiftLeft_shiftRight capptr hbits (Nat.le_of_not_lt hover)]
        dsimp only at h ⊢
      · rw [if_neg (by omega), (Prod.mk.inj (Except.ok.inj h)).1]
      · rw [if_pos (by omega)]
        have hpos := node.radix_pos
        generalize hfound : slots (node.slot _) = found at h ⊢
        cases found with
        | cnode next => exact ih _ (by omega) h (by omega)
        | null | endpoint | other => rw [← (Prod.mk.inj (Except.ok.inj h)).1, hfound]

/-- The slow path's lookup fails for want of bits. -/
theorem resolveLevels_error {fault : LookupFault}
    (h : resolveLevels slots capptr node nBits = .error fault) :
    ∃ found left, fault = .depthMismatch found left ∧ left < found := by
  induction nBits using Nat.strong_induction_on generalizing node with
  | _ nBits ih =>
      rw [resolveLevels] at h
      split_ifs at h with hover hlast
      · exact ⟨_, _, (Except.error.inj h).symm, hover⟩
      · dsimp only at h
        have hpos := node.radix_pos
        generalize slots (node.slot _) = found at h
        cases found with
        | cnode next => exact ih _ (by omega) h
        | null | endpoint | other => cases h

/-! ## The lookups -/

/-- Where the slow path finds a capability, the fast path finds the same one. Where it faults, the
root is no CNode, and the fast path finds nothing, or a CNode takes more bits than are left. -/
theorem lookupFp_lookupCap (slots : Nat → SlotCap) (capptr : Nat) (root : SlotCap) :
    (∀ cap, lookupCap slots capptr root = .ok cap → lookupFp slots capptr root = cap) ∧
      ∀ fault, lookupCap slots capptr root = .error fault →
        fault = .invalidRoot ∧ lookupFp slots capptr root = .null ∨
          ∃ found left, fault = .depthMismatch found left ∧ left < found := by
  cases root with
  | null | endpoint | other =>
      exact ⟨fun _ h => (by cases h), fun _ h => .inl ⟨(Except.error.inj h).symm, rfl⟩⟩
  | cnode node =>
      have hguard : ¬ wordBits < node.capCNodeGuardSize := Nat.lt_asymm node.guard_lt
      rw [lookupCap, resolveAddressBits, if_neg hguard]
      cases hresolve : resolveLevels slots capptr node (wordBits - node.capCNodeGuardSize) with
      | error fault =>
          refine ⟨fun _ h => (by cases h), fun fault' h => .inr ?_⟩
          obtain rfl := Except.error.inj h
          exact resolveLevels_error hresolve
      | ok found =>
          refine ⟨fun cap h => ?_, fun _ h => (by cases h)⟩
          obtain rfl := Except.ok.inj h
          exact lookupFpLevels_resolve hresolve (by omega)

/-- A root with a guard of 20 bits and a radix of 10, whose slots hold a CNode of radix 4. -/
def overrunRoot : CNodeCap := ⟨20, 10, 0xE0010000, by decide, by decide, by decide⟩

def overrunNode : CNodeCap := ⟨0, 4, 0xE0020000, by decide, by decide, by decide⟩

def overrunSlots (slot : Nat) : SlotCap :=
  if slot < 0xE0020000 then .cnode overrunNode else .endpoint 7 true true true 0x40

theorem lookupFp_overruns :
    lookupCap overrunSlots 3 (.cnode overrunRoot) = .error (.depthMismatch 4 2) ∧
      lookupFp overrunSlots 3 (.cnode overrunRoot) = .endpoint 7 true true true 0x40 := by
  have hnode : overrunSlots 0xE0010000 = .cnode overrunNode := rfl
  have hend : overrunSlots 0xE00200C0 = .endpoint 7 true true true 0x40 := rfl
  constructor
  · simp [lookupCap, resolveAddressBits, resolveLevels, overrunRoot, overrunNode, CNodeCap.slot,
      wordBits, cteSizeBits, hnode]
  · simp [lookupFp, lookupFpLevels, overrunRoot, overrunNode, CNodeCap.slot, wordBits, cteSizeBits,
      hnode, hend]

end PartitionSeL4.Kernel
