import PartitionSeL4.Refos.Rpc

/-!
# What the server stores while it takes a message apart

`rpc_sv_pop_str` asks the pool for `slen + 1` bytes, a sum of 32 bits, and then copies `slen` bytes.
For the length `2 ^ 32 - 1` the sum is 0, `rpc_malloc` is content, and the copy runs on from one
register to the next. `seL4_GetMR` does not check its index: it reads what lies behind the message
registers, until an address is not mapped.

`pop_inside_iff`: all bytes are stored inside the slot, for every length and count, unless the
length is `2 ^ 32 - 1`, the pool has a slot, and so many words can be read that the copy gets past
its end. The only array elements of the interfaces are bytes, so that the product of
`rpc_sv_pop_buf_array` does not wrap around.

Here a run is the list of its stores, so that a run that a fault ends can be told from one that
stays inside. `popStrStores_result` and `popBufArrayStores_result` say that the results are those of
`Rpc`, whose messages end at the last register.
-/

namespace PartitionSeL4.Refos

open Lib

/-! ## Stores -/

/-- What `seL4_GetMR` reads, by its index: the message registers and the words behind them. Where
nothing is mapped there is a fault. -/
abbrev Registers := Nat → Option UInt32

/-- The registers of a message with nothing behind them. -/
def Msg.registers (msg : Msg) : Registers := fun i =>
  if i < seL4MsgMaxLength then some (msg i) else none

/-- `rpc_unmarshall`: the bytes that are stored from `str` on, and the next register, unless a read
is a fault. -/
def unmarshallBytes (regs : Registers) : Nat → Nat → List UInt8 × Option Nat
  | curMr, 0 => ([], some curMr)
  | curMr, slen + 4 =>
      match regs curMr with
      | none => ([], none)
      | some w =>
          (leWord w.toNat ++ (unmarshallBytes regs (curMr + 1) slen).1,
            (unmarshallBytes regs (curMr + 1) slen).2)
  | curMr, slen =>
      match regs curMr with
      | none => ([], none)
      | some w => ((leWord w.toNat).take slen, some (curMr + 1))

/-- The stores of a block to an offset: the offset of each byte from the start of the slot, modulo
`2 ^ 32`, and the byte. -/
def storesAt (off : Nat) (bytes : List UInt8) : List (Nat × UInt8) :=
  bytes.mapIdx fun j b => (u32 (off + j), b)

/-- What a function stores into its slot, and what it returns: the slot and the next register. -/
structure PopRun where
  stores : List (Nat × UInt8)
  result : Except Failure (Nat × Nat)

/-- `rpc_sv_pop_str` -/
def popStrStores (s : Rpc) (regs : Registers) : PopRun :=
  match regs s.mr with
  | none => ⟨[], .error .fault⟩
  | some slen =>
      match rpcMalloc s ((slen.toNat + 1) % 2 ^ 32) with
      | .error f => ⟨[], .error f⟩
      | .ok (i, _) =>
          match unmarshallBytes regs (s.mr + 1) slen.toNat with
          | (str, none) => ⟨storesAt 0 str, .error .fault⟩
          | (str, some mr) => ⟨storesAt 0 str ++ [(slen.toNat, 0)], .ok (i, mr)⟩

/-- The loop of `rpc_sv_pop_buf_array`, from the `i`-th element on. -/
def popElemsStores (regs : Registers) (sz : Nat) :
    Nat → Nat → Nat → List (Nat × UInt8) × Option Nat
  | 0, _, mr => ([], some mr)
  | count + 1, i, mr =>
      match unmarshallBytes regs mr sz with
      | (elem, none) => (storesAt (i * sz) elem, none)
      | (elem, some mr) =>
          (storesAt (i * sz) elem ++ (popElemsStores regs sz count (i + 1) mr).1,
            (popElemsStores regs sz count (i + 1) mr).2)

/-- `rpc_sv_pop_buf_array` -/
def popBufArrayStores (s : Rpc) (regs : Registers) (sz : Nat) : PopRun :=
  match regs s.mr with
  | none => ⟨[], .error .fault⟩
  | some count =>
      match rpcMalloc s (count.toNat * sz % 2 ^ 32) with
      | .error f => ⟨[], .error f⟩
      | .ok (i, _) =>
          match popElemsStores regs sz count.toNat 0 (s.mr + 1) with
          | (stores, none) => ⟨stores, .error .fault⟩
          | (stores, some mr) => ⟨stores, .ok (i, mr)⟩

/-- The sizes of the elements of the arrays that the stubs pop: `sizeof(byte)`, for the argument
`buf` of `data_write`. -/
def stubElementSizes : List Nat := [1]

/-! ## The property and the condition -/

/-- All stores are inside the slot. -/
def PopRun.Inside (r : PopRun) : Prop := ∀ store ∈ r.stores, store.1 < rpcStaticMempoolObjSize

/-- The length wraps around, the pool has a slot, and the words that the copy needs to get past the
end of the slot can be read. -/
structure LengthWraps (s : Rpc) (regs : Registers) : Prop where
  length : regs s.mr = some 0xFFFFFFFF
  slot : ∃ i < rpcMaxTrackedObjs, s.mempoolTable i = false
  readable : ∀ k ≤ 1024, (regs (s.mr + 1 + k)).isSome

/-! ## The bytes of a block -/

theorem storesAt_lt {off n : Nat} {bytes : List UInt8} (h : off + bytes.length ≤ n)
    (hn : n ≤ 2 ^ 32) : ∀ store ∈ storesAt off bytes, store.1 < n := by
  intro store hstore
  obtain ⟨j, hj, rfl⟩ := List.mem_mapIdx.1 hstore
  rw [u32_of_lt (by omega)]
  omega

theorem unmarshallBytes_length (regs : Registers) (curMr slen : Nat) :
    (unmarshallBytes regs curMr slen).1.length ≤ slen := by
  fun_induction unmarshallBytes regs curMr slen with
  | case1 => exact Nat.le_refl _
  | case2 => exact Nat.zero_le _
  | case3 curMr slen w _ ih =>
      rw [List.length_append, length_leWord]
      omega
  | case4 => exact Nat.zero_le _
  | case5 curMr slen _ _ w => exact List.length_take_le _ _

theorem unmarshallBytes_whole (regs : Registers) (curMr slen : Nat) {mr : Nat}
    (h : (unmarshallBytes regs curMr slen).2 = some mr) :
    (unmarshallBytes regs curMr slen).1.length = slen := by
  fun_induction unmarshallBytes regs curMr slen with
  | case1 => rfl
  | case2 => cases h
  | case3 curMr slen w _ ih =>
      rw [List.length_append, length_leWord, ih h]
      exact Nat.add_comm 4 slen
  | case4 => cases h
  | case5 curMr slen _ hfour w _ =>
      have hshort : slen < 4 := by
        by_contra hlong
        exact hfour (slen - 4) (by omega)
      rw [List.length_take, length_leWord]
      omega

/-- The copy gets past the first `n` words if they can be read, and the one after them. -/
theorem unmarshallBytes_reaches (regs : Registers) {n curMr slen : Nat} (h : 4 * n + 4 ≤ slen) :
    4 * n < (unmarshallBytes regs curMr slen).1.length ↔ ∀ k ≤ n, (regs (curMr + k)).isSome := by
  induction n generalizing curMr slen with
  | zero =>
      obtain ⟨slen, rfl⟩ := Nat.exists_eq_add_of_le' (show 4 ≤ slen by omega)
      rw [unmarshallBytes]
      cases hread : regs curMr with
      | none => simp [hread]
      | some w =>
          refine iff_of_true ?_ fun k hk => ?_
          · rw [List.length_append, length_leWord]
            omega
          · obtain rfl := Nat.le_zero.1 hk
            simp [hread]
  | succ n ih =>
      obtain ⟨slen, rfl⟩ := Nat.exists_eq_add_of_le' (show 4 ≤ slen by omega)
      rw [unmarshallBytes]
      cases hread : regs curMr with
      | none =>
          refine iff_of_false (Nat.not_lt_zero _) fun hall => ?_
          have := hall 0 (Nat.zero_le _)
          simp [hread] at this
      | some w =>
          have hrest := @ih (curMr + 1) slen (by omega)
          rw [List.length_append, length_leWord]
          constructor
          · intro hlong k hk
            cases k with
            | zero => simp [hread]
            | succ k =>
                have := hrest.1 (by omega) k (by omega)
                rwa [Nat.add_assoc, Nat.add_comm 1 k] at this
          · intro hall
            have := hrest.2 fun k hk => by
              have := hall (k + 1) (by omega)
              rwa [Nat.add_comm k 1, ← Nat.add_assoc] at this
            omega

theorem inside_storesAt_zero (bytes : List UInt8) :
    (∀ store ∈ storesAt 0 bytes, store.1 < rpcStaticMempoolObjSize) ↔
      bytes.length ≤ rpcStaticMempoolObjSize := by
  constructor
  · intro hall
    by_contra hlong
    have hlast : rpcStaticMempoolObjSize < bytes.length := Nat.lt_of_not_le hlong
    have := hall _ (List.mem_mapIdx.2 ⟨rpcStaticMempoolObjSize, hlast, rfl⟩)
    have hoff : u32 (0 + rpcStaticMempoolObjSize) = rpcStaticMempoolObjSize := by decide
    exact Nat.lt_irrefl _ (hoff ▸ this)
  · intro hshort
    exact storesAt_lt (by rwa [Nat.zero_add]) (by decide)

/-! ## `rpc_sv_pop_str` -/

section Pop

variable {s : Rpc} {regs : Registers}

/-- `rpc_malloc` of what fits succeeds where the pool has a slot, and of what does not fit never. -/
theorem rpcMalloc_ok_iff {sz : Nat} :
    (∃ r, rpcMalloc s sz = .ok r) ↔
      sz ≤ rpcStaticMempoolObjSize ∧ ∃ i < rpcMaxTrackedObjs, s.mempoolTable i = false := by
  rw [rpcMalloc]
  by_cases hsz : rpcStaticMempoolObjSize < sz
  · rw [if_pos hsz]
    refine iff_of_false ?_ fun h => absurd h.1 (Nat.not_le.2 hsz)
    rintro ⟨r, hr⟩
    cases hr
  rw [if_neg hsz]
  cases hfind : (List.range rpcMaxTrackedObjs).find? fun i => !s.mempoolTable i with
  | none =>
      refine iff_of_false ?_ ?_
      · rintro ⟨r, hr⟩
        cases hr
      · rintro ⟨_, i, hi, hfree⟩
        have := List.find?_eq_none.1 hfind i (List.mem_range.2 hi)
        simp [hfree] at this
  | some i =>
      refine iff_of_true ⟨_, rfl⟩ ⟨Nat.le_of_not_lt hsz, i, ?_, ?_⟩
      · exact List.mem_range.1 (List.mem_of_find?_eq_some hfind)
      · simpa using List.find?_some hfind

/-- The length `2 ^ 32 - 1`: the pool gives a slot for 0 bytes, and the copy decides. -/
theorem popStr_inside_wrapped (hread : regs s.mr = some 0xFFFFFFFF) :
    (popStrStores s regs).Inside ↔ ¬LengthWraps s regs := by
  simp only [popStrStores, hread]
  cases hslot : rpcMalloc s ((UInt32.toNat 0xFFFFFFFF + 1) % 2 ^ 32) with
  | error f =>
      refine iff_of_true (fun store hstore => nomatch hstore) fun hwraps => ?_
      obtain ⟨r, hr⟩ := rpcMalloc_ok_iff.2 ⟨Nat.zero_le _, hwraps.slot⟩
      rw [show (UInt32.toNat 0xFFFFFFFF + 1) % 2 ^ 32 = 0 from rfl, hr] at hslot
      cases hslot
  | ok r =>
      have hwraps : LengthWraps s regs ↔ ∀ k ≤ 1024, (regs (s.mr + 1 + k)).isSome :=
        ⟨fun h => h.readable, fun h => ⟨hread, (rpcMalloc_ok_iff.1 ⟨r, hslot⟩).2, h⟩⟩
      have hlong : 4 * 1024 + 4 ≤ UInt32.toNat 0xFFFFFFFF := by decide
      rw [hwraps, ← unmarshallBytes_reaches regs hlong, Nat.not_lt]
      cases hcopy : unmarshallBytes regs (s.mr + 1) (UInt32.toNat 0xFFFFFFFF) with
      | mk str next =>
          cases next with
          | none => exact inside_storesAt_zero str
          | some mr =>
              -- the whole string is stored, far behind the end of the slot
              have hlong : ¬str.length ≤ rpcStaticMempoolObjSize := by
                have hwhole := unmarshallBytes_whole regs (s.mr + 1) _ (congrArg Prod.snd hcopy)
                have hlen : str.length = UInt32.toNat 0xFFFFFFFF := by rwa [hcopy] at hwhole
                rw [hlen]
                decide
              refine iff_of_false (fun hinside => hlong ?_) hlong
              exact (inside_storesAt_zero str).1
                fun store hstore => hinside store (List.mem_append_left _ hstore)

/-- A length that does not wrap around: the string fits into its slot, or there is an assertion. -/
theorem popStr_inside_short {slen : UInt32} (hread : regs s.mr = some slen)
    (hslen : slen ≠ 0xFFFFFFFF) : (popStrStores s regs).Inside := by
  have hlt : slen.toNat + 1 < 2 ^ 32 := by
    have hword := slen.toNat_lt
    have hne : slen.toNat ≠ 2 ^ 32 - 1 := fun h => hslen (UInt32.toNat_inj.1 h)
    omega
  simp only [popStrStores, hread, Nat.mod_eq_of_lt hlt]
  cases hslot : rpcMalloc s (slen.toNat + 1) with
  | error f => exact fun store hstore => nomatch hstore
  | ok r =>
      have hfits := (rpcMalloc_ok_iff.1 ⟨r, hslot⟩).1
      have hlen := unmarshallBytes_length regs (s.mr + 1) slen.toNat
      cases hcopy : unmarshallBytes regs (s.mr + 1) slen.toNat with
      | mk str next =>
          have hstr : ∀ store ∈ storesAt 0 str, store.1 < rpcStaticMempoolObjSize := by
            have hlen : str.length ≤ slen.toNat := by
              rw [hcopy] at hlen
              exact hlen
            exact (inside_storesAt_zero str).2 (by omega)
          cases next with
          | none => exact hstr
          | some mr =>
              intro store hstore
              rcases List.mem_append.1 hstore with hstore | hstore
              · exact hstr store hstore
              · rw [List.mem_singleton.1 hstore]
                exact hfits

/-- A string stays inside its slot unless its length wraps around. -/
theorem popStr_inside_iff : (popStrStores s regs).Inside ↔ ¬LengthWraps s regs := by
  by_cases hread : regs s.mr = some 0xFFFFFFFF
  · exact popStr_inside_wrapped hread
  · refine iff_of_true ?_ fun hwraps => hread hwraps.length
    cases hlength : regs s.mr with
    | none =>
        simp only [popStrStores, hlength]
        exact fun store hstore => nomatch hstore
    | some slen => exact popStr_inside_short hlength fun h => hread (h ▸ hlength)

/-! ## `rpc_sv_pop_buf_array` -/

theorem popElemsStores_lt {sz count i mr n : Nat} (h : (i + count) * sz ≤ n) (hn : n ≤ 2 ^ 32) :
    ∀ store ∈ (popElemsStores regs sz count i mr).1, store.1 < n := by
  induction count generalizing i mr with
  | zero => exact fun store hstore => nomatch hstore
  | succ count ih =>
      have hlen := unmarshallBytes_length regs mr sz
      have hend : i * sz + sz ≤ n := by
        refine Nat.le_trans ?_ h
        rw [← Nat.succ_mul]
        exact Nat.mul_le_mul_right sz (by omega)
      rw [popElemsStores]
      cases hcopy : unmarshallBytes regs mr sz with
      | mk elem next =>
          have helem : ∀ store ∈ storesAt (i * sz) elem, store.1 < n := by
            have hshort : elem.length ≤ sz := by
              rw [hcopy] at hlen
              exact hlen
            exact storesAt_lt (by omega) hn
          cases next with
          | none => exact helem
          | some next =>
              intro store hstore
              rcases List.mem_append.1 hstore with hstore | hstore
              · exact helem store hstore
              · refine ih ?_ store hstore
                rwa [Nat.add_right_comm, Nat.add_assoc]

theorem popBufArray_inside {sz : Nat}
    (hsz : ∀ count, regs s.mr = some count → count.toNat * sz < 2 ^ 32) :
    (popBufArrayStores s regs sz).Inside := by
  rw [popBufArrayStores]
  cases hread : regs s.mr with
  | none => exact fun store hstore => nomatch hstore
  | some count =>
      dsimp only
      rw [Nat.mod_eq_of_lt (hsz count hread)]
      cases hslot : rpcMalloc s (count.toNat * sz) with
      | error f => exact fun store hstore => nomatch hstore
      | ok r =>
          have hfits := (rpcMalloc_ok_iff.1 ⟨r, hslot⟩).1
          have hall : ∀ store ∈ (popElemsStores regs sz count.toNat 0 (s.mr + 1)).1,
              store.1 < rpcStaticMempoolObjSize := by
            apply popElemsStores_lt
            · rwa [Nat.zero_add]
            · decide
          dsimp only
          cases hcopy : popElemsStores regs sz count.toNat 0 (s.mr + 1) with
          | mk stores next =>
              rw [hcopy] at hall
              cases next with
              | none => exact hall
              | some mr => exact hall

end Pop

/-! ## The results are those of the messages -/

theorem seL4GetMR_eq (msg : Msg) (i : Nat) :
    seL4GetMR msg i = match msg.registers i with
      | some w => .ok w
      | none => .error .fault := by
  rw [seL4GetMR, Msg.registers]
  by_cases hi : i < seL4MsgMaxLength
  · rw [if_pos hi, if_pos hi]
  · rw [if_neg hi, if_neg hi]

theorem rpcUnmarshall_eq (msg : Msg) (curMr slen : Nat) :
    rpcUnmarshall msg curMr slen =
      match unmarshallBytes msg.registers curMr slen with
      | (str, some mr) => .ok (str, mr)
      | (_, none) => .error .fault := by
  fun_induction unmarshallBytes msg.registers curMr slen with
  | case1 => rfl
  | case2 curMr slen hread =>
      rw [rpcUnmarshall, seL4GetMR_eq, hread]
      rfl
  | case3 curMr slen w hread ih =>
      rw [rpcUnmarshall, seL4GetMR_eq, hread, ih]
      cases unmarshallBytes msg.registers (curMr + 1) slen with
      | mk str next => cases next <;> rfl
  | case4 curMr slen hzero hfour hread =>
      rw [rpcUnmarshall, seL4GetMR_eq, hread]
      · rfl
      · exact hzero
      · exact hfour
  | case5 curMr slen hzero hfour w hread =>
      rw [rpcUnmarshall, seL4GetMR_eq, hread]
      · rfl
      · exact hzero
      · exact hfour

theorem rpcPopElems_eq (msg : Msg) (sz count i mr : Nat) (v : Nat → UInt8) :
    (rpcPopElems msg sz count i mr v).map Prod.snd =
      match (popElemsStores msg.registers sz count i mr).2 with
      | some mr => .ok mr
      | none => .error .fault := by
  induction count generalizing i mr v with
  | zero => rfl
  | succ count ih =>
      rw [rpcPopElems, popElemsStores, rpcUnmarshall_eq]
      cases unmarshallBytes msg.registers mr sz with
      | mk elem next =>
          cases next with
          | none => rfl
          | some mr => exact ih (i + 1) mr _

theorem rpcMalloc_setMr (s : Rpc) (mr sz : Nat) :
    rpcMalloc { s with mr := mr } sz =
      (rpcMalloc s sz).map fun r => (r.1, { r.2 with mr := mr }) := by
  simp only [rpcMalloc]
  by_cases hsz : rpcStaticMempoolObjSize < sz
  · rw [if_pos hsz, if_pos hsz]
    rfl
  · rw [if_neg hsz, if_neg hsz]
    cases (List.range rpcMaxTrackedObjs).find? fun i => !s.mempoolTable i <;> rfl

theorem msg_of_rpcMalloc {s t : Rpc} {sz i : Nat} (h : rpcMalloc s sz = .ok (i, t)) :
    t.msg = s.msg := by
  rw [rpcMalloc] at h
  split_ifs at h
  split at h
  · cases h
  · obtain ⟨_, rfl⟩ := Prod.mk.inj (Except.ok.inj h)
    rfl

theorem popStrStores_result (s : Rpc) :
    (popStrStores s s.msg.registers).result =
      (rpcSvPopStr s).map fun r => (r.1, r.2.mr) := by
  rw [popStrStores, rpcSvPopStr, rpcSvPopUint, seL4GetMR_eq]
  cases s.msg.registers s.mr with
  | none => rfl
  | some slen =>
      simp only [bind, Except.bind, rpcMalloc_setMr]
      cases hslot : rpcMalloc s ((slen.toNat + 1) % 2 ^ 32) with
      | error f => rfl
      | ok r =>
          obtain ⟨i, t⟩ := r
          simp only [Except.map, msg_of_rpcMalloc hslot, rpcUnmarshall_eq]
          cases unmarshallBytes s.msg.registers (s.mr + 1) slen.toNat with
          | mk str next => cases next <;> rfl

theorem popBufArrayStores_result (s : Rpc) (sz : Nat) :
    (popBufArrayStores s s.msg.registers sz).result =
      (rpcSvPopBufArray s sz).map fun r => (r.1.1, r.2.mr) := by
  rw [popBufArrayStores, rpcSvPopBufArray, rpcSvPopUint, seL4GetMR_eq]
  cases s.msg.registers s.mr with
  | none => rfl
  | some count =>
      simp only [bind, Except.bind, rpcMalloc_setMr]
      cases hslot : rpcMalloc s (count.toNat * sz % 2 ^ 32) with
      | error f => rfl
      | ok r =>
          obtain ⟨i, t⟩ := r
          simp only [Except.map, msg_of_rpcMalloc hslot]
          have hloop := rpcPopElems_eq s.msg sz count.toNat 0 (s.mr + 1) (t.mempool i)
          cases hpop : rpcPopElems s.msg sz count.toNat 0 (s.mr + 1) (t.mempool i) with
          | error f =>
              rw [hpop] at hloop
              cases hstores : popElemsStores s.msg.registers sz count.toNat 0 (s.mr + 1) with
              | mk stores next =>
                  rw [hstores] at hloop
                  cases next with
                  | none => exact congrArg Except.error (Except.error.inj hloop).symm
                  | some mr => cases hloop
          | ok v =>
              rw [hpop] at hloop
              cases hstores : popElemsStores s.msg.registers sz count.toNat 0 (s.mr + 1) with
              | mk stores next =>
                  rw [hstores] at hloop
                  cases next with
                  | none => cases hloop
                  | some mr =>
                      exact congrArg (fun mr => Except.ok (i, mr)) (Except.ok.inj hloop).symm

/-! ## All lengths and counts -/

/-- **When unmarshalling stays in its slot.** For every message, whatever can be read behind it, and
every state of the pool: the string and the arrays of the stubs are stored inside their slots if and
only if the length of the string does not wrap around with enough to read. -/
theorem pop_inside_iff (s : Rpc) (regs : Registers) :
    ((popStrStores s regs).Inside ∧ ∀ sz ∈ stubElementSizes, (popBufArrayStores s regs sz).Inside) ↔
      ¬LengthWraps s regs := by
  rw [popStr_inside_iff, and_iff_left]
  intro sz hsz
  obtain rfl := List.mem_singleton.1 hsz
  refine popBufArray_inside fun count _ => ?_
  rw [Nat.mul_one]
  exact count.toNat_lt

/-- A message whose length is `2 ^ 32 - 1`, with zeros behind it. -/
theorem length_wraps :
    ¬(popStrStores ⟨fun _ => 0, 1, fun _ _ => 0, fun _ => false⟩
      fun i => some (if i = 1 then 0xFFFFFFFF else 0)).Inside := by
  rw [popStr_inside_iff, not_not]
  exact ⟨rfl, ⟨0, by decide, rfl⟩, fun k _ => rfl⟩

end PartitionSeL4.Refos
