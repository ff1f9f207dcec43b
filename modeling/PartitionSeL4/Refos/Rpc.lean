import PartitionSeL4.Data
import PartitionSeL4.Lib.Bytes
import PartitionSeL4.Lib.Run
import Mathlib.Algebra.Ring.Nat
import Mathlib.Data.Finset.Card

/-!
# Marshalling

A remote call sends its arguments in the message registers: an integer in one register, a string as
its length followed by its characters, four to a register, a buffer as its bytes, an array as its
count followed by its elements. Every string and every element begins in a new register. The
receiver takes them out again in the same order. On the server, a string or an array is put into a
slot of a static pool, where it stays while the further arguments are taken out.

`RpcArg.encode` says which words stand for an argument. Pushing appends these words to the message
(`rpcPush_spec`), and popping reads them back (`rpcSvPop_spec`, `rpcPop_spec`), so that
`rpc_round_trip` is about lists of words only: the receiver gets the arguments, and ends at the
register where the sender ended.
-/

namespace PartitionSeL4.Refos

open Lib

/-! ## Message registers -/

/-- `seL4_MsgMaxLength` -/
def seL4MsgMaxLength : Nat := 120

/-- `RPC_MAX_TRACKED_OBJS` -/
def rpcMaxTrackedObjs : Nat := 32

/-- `RPC_STATIC_MEMPOOL_OBJ_SIZE` -/
def rpcStaticMempoolObjSize : Nat := 4096

/-- The message registers. -/
abbrev Msg := Nat → UInt32

/-- `seL4_SetMR` -/
def seL4SetMR (msg : Msg) (i : Nat) (w : UInt32) : Except Failure Msg :=
  if i < seL4MsgMaxLength then .ok (Function.update msg i w) else .error .fault

/-- `seL4_GetMR` -/
def seL4GetMR (msg : Msg) (i : Nat) : Except Failure UInt32 :=
  if i < seL4MsgMaxLength then .ok (msg i) else .error .fault

/-- The word that has up to four bytes in memory, and zeros behind them. -/
def wordOf (bytes : List UInt8) : UInt32 := .ofNat (ofLe bytes)

/-- `rpc_marshall`: a register for every four bytes, and one for the rest. -/
def rpcMarshall : Msg → Nat → List UInt8 → Except Failure (Msg × Nat)
  | msg, curMr, [] => .ok (msg, curMr)
  | msg, curMr, a :: b :: c :: d :: str => do
      let msg ← seL4SetMR msg curMr (wordOf [a, b, c, d])
      rpcMarshall msg (curMr + 1) str
  | msg, curMr, str => do
      let msg ← seL4SetMR msg curMr (wordOf str)
      .ok (msg, curMr + 1)

/-- `rpc_unmarshall`: the bytes that are stored. -/
def rpcUnmarshall (msg : Msg) : Nat → Nat → Except Failure (List UInt8 × Nat)
  | curMr, 0 => .ok ([], curMr)
  | curMr, slen + 4 => do
      let w ← seL4GetMR msg curMr
      let (str, curMr) ← rpcUnmarshall msg (curMr + 1) slen
      .ok (leWord w.toNat ++ str, curMr)
  | curMr, slen => do
      let w ← seL4GetMR msg curMr
      .ok ((leWord w.toNat).take slen, curMr + 1)

/-- The variables of `rpc.c`: the message, `_rpc_mr`, and the static pool. -/
structure Rpc where
  msg : Msg
  mr : Nat
  mempool : Nat → Nat → UInt8
  mempoolTable : Nat → Bool

/-- `rpc_reset_contents`: register 0 is for the label of the call. -/
def rpcResetContents (s : Rpc) : Rpc := { s with mr := 1 }

/-! ## The client pushes -/

/-- `rpc_push_uint` -/
def rpcPushUint (s : Rpc) (v : UInt32) : Except Failure Rpc := do
  let msg ← seL4SetMR s.msg s.mr v
  .ok { s with msg := msg, mr := s.mr + 1 }

/-- `rpc_push_buf`, for a buffer that is there -/
def rpcPushBuf (s : Rpc) (v : List UInt8) : Except Failure Rpc := do
  let (msg, mr) ← rpcMarshall s.msg s.mr v
  .ok { s with msg := msg, mr := mr }

/-- `rpc_push_str` -/
def rpcPushStr (s : Rpc) (v : List UInt8) : Except Failure Rpc := do
  let s ← rpcPushUint s (.ofNat v.length)
  rpcPushBuf s v

/-- The loop of `rpc_push_buf_array` -/
def rpcPushElems (sz : Nat) : Rpc → Nat → List UInt8 → Except Failure Rpc
  | s, 0, _ => .ok s
  | s, count + 1, v => do
      let s ← rpcPushBuf s (v.take sz)
      rpcPushElems sz s count (v.drop sz)

/-- `rpc_push_buf_array` -/
def rpcPushBufArray (s : Rpc) (v : List UInt8) (sz count : Nat) : Except Failure Rpc := do
  let s ← rpcPushUint s (.ofNat count)
  rpcPushElems sz s count v

/-! ## The server pops -/

/-- `rpc_malloc` -/
def rpcMalloc (s : Rpc) (sz : Nat) : Except Failure (Nat × Rpc) :=
  if rpcStaticMempoolObjSize < sz then .error .assertion
  else
    match (List.range rpcMaxTrackedObjs).find? fun i => !s.mempoolTable i with
    | none => .error .assertion
    | some i => .ok (i, { s with mempoolTable := Function.update s.mempoolTable i true })

/-- A slot of the pool is written. -/
def Rpc.setSlot (s : Rpc) (i : Nat) (v : Nat → UInt8) (mr : Nat) : Rpc :=
  { s with mempool := Function.update s.mempool i v, mr := mr }

/-- `rpc_sv_pop_uint` -/
def rpcSvPopUint (s : Rpc) : Except Failure (UInt32 × Rpc) := do
  let w ← seL4GetMR s.msg s.mr
  .ok (w, { s with mr := s.mr + 1 })

/-- `rpc_sv_pop_str`: the slot with the string -/
def rpcSvPopStr (s : Rpc) : Except Failure (Nat × Rpc) := do
  let (slen, s) ← rpcSvPopUint s
  let (i, s) ← rpcMalloc s ((slen.toNat + 1) % 2 ^ 32)
  let (str, mr) ← rpcUnmarshall s.msg s.mr slen.toNat
  .ok (i, s.setSlot i (blit (s.mempool i) 0 (str ++ [0])) mr)

/-- `rpc_sv_pop_buf` -/
def rpcSvPopBuf (s : Rpc) (sz : Nat) : Except Failure (List UInt8 × Rpc) := do
  let (v, mr) ← rpcUnmarshall s.msg s.mr sz
  .ok (v, { s with mr := mr })

/-- The loop of `rpc_sv_pop_buf_array` and of `rpc_pop_buf_array`, from the `i`-th element on -/
def rpcPopElems (msg : Msg) (sz : Nat) :
    Nat → Nat → Nat → (Nat → UInt8) → Except Failure ((Nat → UInt8) × Nat)
  | 0, _, mr, v => .ok (v, mr)
  | count + 1, i, mr, v => do
      let (elem, mr) ← rpcUnmarshall msg mr sz
      rpcPopElems msg sz count (i + 1) mr (blit v (i * sz) elem)

/-- `rpc_sv_pop_buf_array`: the slot with the elements, and their count -/
def rpcSvPopBufArray (s : Rpc) (sz : Nat) : Except Failure ((Nat × Nat) × Rpc) := do
  let (count, s) ← rpcSvPopUint s
  let (i, s) ← rpcMalloc s (count.toNat * sz % 2 ^ 32)
  let (v, mr) ← rpcPopElems s.msg sz count.toNat 0 s.mr (s.mempool i)
  .ok ((i, count.toNat), s.setSlot i v mr)

/-! ## The server pushes, the client pops -/

/-- `rpc_sv_push_uint` -/
def rpcSvPushUint (s : Rpc) (v : UInt32) : Except Failure Rpc := rpcPushUint s v

/-- `rpc_sv_push_buf` -/
def rpcSvPushBuf (s : Rpc) (v : List UInt8) : Except Failure Rpc := rpcPushBuf s v

/-- `rpc_sv_push_buf_array` -/
def rpcSvPushBufArray (s : Rpc) (v : List UInt8) (sz count : Nat) : Except Failure Rpc := do
  let s ← rpcSvPushUint s (.ofNat count)
  rpcPushElems sz s count v

/-- `rpc_pop_uint` -/
def rpcPopUint (s : Rpc) : Except Failure (UInt32 × Rpc) := rpcSvPopUint s

/-- `rpc_pop_buf` -/
def rpcPopBuf (s : Rpc) (sz : Nat) : Except Failure (List UInt8 × Rpc) := rpcSvPopBuf s sz

/-- `rpc_pop_buf_array`, into a buffer for `count` elements -/
def rpcPopBufArray (s : Rpc) (v : Nat → UInt8) (sz count : Nat) :
    Except Failure ((Nat → UInt8) × Rpc) := do
  let (cn, s) ← rpcPopUint s
  if count < cn.toNat then .error .assertion
  else
    let (v, mr) ← rpcPopElems s.msg sz cn.toNat 0 s.mr v
    .ok (v, { s with mr := mr })

/-! ## Arguments and the words that stand for them -/

/-- An argument of a call. The elements of an array lie one behind the other. -/
inductive RpcArg where
  | uint (v : UInt32)
  | str (v : List UInt8)
  | buf (v : List UInt8)
  | bufArray (sz count : Nat) (v : List UInt8)
  deriving DecidableEq, Repr

/-- The words of a block of bytes. -/
def wordsOf : List UInt8 → List UInt32
  | [] => []
  | a :: b :: c :: d :: str => wordOf [a, b, c, d] :: wordsOf str
  | str => [wordOf str]

/-- The words of the elements of an array. -/
def elemWords (sz : Nat) : Nat → List UInt8 → List UInt32
  | 0, _ => []
  | count + 1, v => wordsOf (v.take sz) ++ elemWords sz count (v.drop sz)

/-- The words that stand for an argument. -/
def RpcArg.encode : RpcArg → List UInt32
  | .uint v => [v]
  | .str v => .ofNat v.length :: wordsOf v
  | .buf v => wordsOf v
  | .bufArray sz count v => .ofNat count :: elemWords sz count v

/-- The number of registers that a block of bytes takes. -/
def registersOf (n : Nat) : Nat := (n + 3) / 4

/-- The number of registers that an argument takes. -/
def RpcArg.registers : RpcArg → Nat
  | .uint _ => 1
  | .str v => 1 + registersOf v.length
  | .buf v => registersOf v.length
  | .bufArray sz count _ => 1 + count * registersOf sz

/-- The number of slots of the pool that an argument takes. -/
def RpcArg.slots : RpcArg → Nat
  | .uint _ | .buf _ => 0
  | .str _ | .bufArray _ _ _ => 1

/-- A string holds no zero; it fits into a slot with the zero behind it. An array has its elements,
counted by a word, and fits into a slot. -/
def RpcArg.WellFormed : RpcArg → Prop
  | .uint _ | .buf _ => True
  | .str v => 0 ∉ v ∧ v.length + 1 ≤ rpcStaticMempoolObjSize
  | .bufArray sz count v => v.length = count * sz ∧ count < 2 ^ 32 ∧
      count * sz ≤ rpcStaticMempoolObjSize

/-- An argument is pushed by the client. -/
def rpcPush (s : Rpc) : RpcArg → Except Failure Rpc
  | .uint v => rpcPushUint s v
  | .str v => rpcPushStr s v
  | .buf v => rpcPushBuf s v
  | .bufArray sz count v => rpcPushBufArray s v sz count

/-- What the server knows of an argument. -/
inductive RpcType where
  | uint
  | str
  | buf (sz : Nat)
  | bufArray (sz : Nat)
  deriving DecidableEq, Repr

def RpcArg.type : RpcArg → RpcType
  | .uint _ => .uint
  | .str _ => .str
  | .buf v => .buf v.length
  | .bufArray sz _ _ => .bufArray sz

/-- What the server gets: a string or an array is a pointer into the pool. -/
inductive RpcVal where
  | uint (v : UInt32)
  | str (slot : Nat)
  | buf (v : List UInt8)
  | bufArray (sz slot count : Nat)
  deriving DecidableEq, Repr

/-- An argument is popped by the server. -/
def rpcSvPop (s : Rpc) : RpcType → Except Failure (RpcVal × Rpc)
  | .uint => (rpcSvPopUint s).map fun x => (.uint x.1, x.2)
  | .str => (rpcSvPopStr s).map fun x => (.str x.1, x.2)
  | .buf sz => (rpcSvPopBuf s sz).map fun x => (.buf x.1, x.2)
  | .bufArray sz => (rpcSvPopBufArray s sz).map fun x => (.bufArray sz x.1.1 x.1.2, x.2)

/-- The arguments are popped by the server, in the order of their types. -/
def rpcSvPopAll : Rpc → List RpcType → Except Failure (List RpcVal × Rpc)
  | s, [] => .ok ([], s)
  | s, type :: types => do
      let (v, s) ← rpcSvPop s type
      let (vs, s) ← rpcSvPopAll s types
      .ok (v :: vs, s)

/-- The value of what the server has: a string ends at its zero. -/
def RpcVal.read (s : Rpc) : RpcVal → RpcArg
  | .uint v => .uint v
  | .str i => .str ((slice (s.mempool i) 0 rpcStaticMempoolObjSize).takeWhile fun c => c ≠ 0)
  | .buf v => .buf v
  | .bufArray sz i count => .bufArray sz count (slice (s.mempool i) 0 (count * sz))

/-- A result of a call. There are no strings among them. -/
inductive RpcResult where
  | uint (v : UInt32)
  | buf (v : List UInt8)
  | bufArray (sz count : Nat) (v : List UInt8)
  deriving DecidableEq, Repr

/-- A result, as an argument. -/
def RpcResult.arg : RpcResult → RpcArg
  | .uint v => .uint v
  | .buf v => .buf v
  | .bufArray sz count v => .bufArray sz count v

/-- A result is pushed by the server. -/
def rpcSvPush (s : Rpc) : RpcResult → Except Failure Rpc
  | .uint v => rpcSvPushUint s v
  | .buf v => rpcSvPushBuf s v
  | .bufArray sz count v => rpcSvPushBufArray s v sz count

/-- Where the client wants a result: an array in a buffer for `count` elements, which holds `v`. -/
inductive RpcDest where
  | uint
  | buf (sz : Nat)
  | bufArray (sz count : Nat) (v : Nat → UInt8)

/-- What the client gets: an array is in its buffer. -/
inductive RpcOut where
  | uint (v : UInt32)
  | buf (v : List UInt8)
  | bufArray (v : Nat → UInt8)

/-- A result is popped by the client. -/
def rpcPop (s : Rpc) : RpcDest → Except Failure (RpcOut × Rpc)
  | .uint => (rpcPopUint s).map fun x => (.uint x.1, x.2)
  | .buf sz => (rpcPopBuf s sz).map fun x => (.buf x.1, x.2)
  | .bufArray sz count v => (rpcPopBufArray s v sz count).map fun x => (.bufArray x.1, x.2)

/-- The results are popped by the client, in their order. -/
def rpcPopAll : Rpc → List RpcDest → Except Failure (List RpcOut × Rpc)
  | s, [] => .ok ([], s)
  | s, dest :: dests => do
      let (v, s) ← rpcPop s dest
      let (vs, s) ← rpcPopAll s dests
      .ok (v :: vs, s)

/-- The client expects the result: it has the size, and for an array there is room. -/
def RpcResult.Fits : RpcResult → RpcDest → Prop
  | .uint _, .uint => True
  | .buf v, .buf sz => v.length = sz
  | .bufArray sz count _, .bufArray sz' count' _ => sz' = sz ∧ count ≤ count'
  | _, _ => False

/-- The result, where the client wants it: an array stands at the beginning of the buffer. -/
def RpcResult.at : RpcResult → RpcDest → RpcOut
  | .uint v, _ => .uint v
  | .buf v, _ => .buf v
  | .bufArray _ _ v, .bufArray _ _ m => .bufArray (blit m 0 v)
  | .bufArray _ _ v, _ => .buf v

/-! ## Blocks of bytes -/

/-- The words of a block, one after the other: the last one may have fewer than four bytes. -/
theorem block_induction {P : List UInt8 → Prop} (nil : P [])
    (word : ∀ a b c d str, P str → P (a :: b :: c :: d :: str))
    (last : ∀ str, str ≠ [] → str.length < 4 → P str) : ∀ str, P str
  | [] => nil
  | [_] | [_, _] | [_, _, _] => last _ (by simp) (by simp)
  | a :: b :: c :: d :: str => word a b c d str (block_induction nil word last str)

section Short

variable {str : List UInt8} (hne : str ≠ []) (hlt : str.length < 4)

include hne hlt

theorem wordsOf_short : wordsOf str = [wordOf str] := by
  match str, hne, hlt with
  | [_], _, _ | [_, _], _, _ | [_, _, _], _, _ => rfl

theorem rpcMarshall_short (msg : Msg) (curMr : Nat) :
    rpcMarshall msg curMr str =
      (seL4SetMR msg curMr (wordOf str)).bind fun msg => .ok (msg, curMr + 1) := by
  match str, hne, hlt with
  | [_], _, _ | [_, _], _, _ | [_, _, _], _, _ => rfl

theorem rpcUnmarshall_short (msg : Msg) (curMr : Nat) :
    rpcUnmarshall msg curMr str.length =
      (seL4GetMR msg curMr).bind fun w => .ok ((leWord w.toNat).take str.length, curMr + 1) := by
  match str, hne, hlt with
  | [_], _, _ | [_, _], _, _ | [_, _, _], _, _ => rfl

end Short

theorem length_wordsOf (str : List UInt8) : (wordsOf str).length = registersOf str.length := by
  induction str using block_induction with
  | nil => rfl
  | word a b c d str ih =>
      simp only [wordsOf, List.length_cons, ih, registersOf]
      omega
  | last str hne hlt =>
      have := List.length_pos_iff.2 hne
      simp only [wordsOf_short hne hlt, List.length_singleton, registersOf]
      omega

theorem seL4SetMR_of_lt (msg : Msg) {i : Nat} (h : i < seL4MsgMaxLength) (w : UInt32) :
    seL4SetMR msg i w = .ok (blit msg i [w]) := by
  rw [seL4SetMR, if_pos h, blit_singleton]

theorem rpcMarshall_spec (msg : Msg) (curMr : Nat) (str : List UInt8)
    (h : curMr + (wordsOf str).length ≤ seL4MsgMaxLength) :
    rpcMarshall msg curMr str =
      .ok (blit msg curMr (wordsOf str), curMr + (wordsOf str).length) := by
  induction str using block_induction generalizing msg curMr with
  | nil => simp [rpcMarshall, wordsOf]
  | word a b c d str ih =>
      rw [wordsOf, List.length_cons] at h ⊢
      rw [rpcMarshall]
      refine bind_eq_ok_iff.2 ⟨_, seL4SetMR_of_lt msg (by omega) _, ?_⟩
      have happend : blit (blit msg curMr [wordOf [a, b, c, d]]) (curMr + 1) (wordsOf str) =
          blit msg curMr (wordOf [a, b, c, d] :: wordsOf str) :=
        (blit_append msg curMr [wordOf [a, b, c, d]] (wordsOf str)).symm
      rw [ih _ _ (by omega), happend, Nat.add_assoc, Nat.add_comm 1]
  | last str hne hlt =>
      rw [wordsOf_short hne hlt, List.length_singleton] at h ⊢
      rw [rpcMarshall_short hne hlt, seL4SetMR_of_lt msg (by omega)]
      rfl

theorem toNat_wordOf {str : List UInt8} (h : str.length ≤ 4) : (wordOf str).toNat = ofLe str := by
  have hlt : ofLe str < 2 ^ 32 :=
    Nat.lt_of_lt_of_le (ofLe_lt str) (Nat.pow_le_pow_right (by omega) (by omega))
  rw [wordOf, UInt32.toNat_ofNat', Nat.mod_eq_of_lt hlt]

theorem rpcUnmarshall_spec {msg : Msg} {curMr : Nat} {str : List UInt8}
    (hmsg : HoldsAt msg curMr (wordsOf str))
    (h : curMr + (wordsOf str).length ≤ seL4MsgMaxLength) :
    rpcUnmarshall msg curMr str.length = .ok (str, curMr + (wordsOf str).length) := by
  induction str using block_induction generalizing curMr with
  | nil => rfl
  | word a b c d str ih =>
      rw [wordsOf] at hmsg
      rw [wordsOf, List.length_cons] at h ⊢
      obtain ⟨hword, hrest⟩ := holdsAt_cons.1 hmsg
      have hget : seL4GetMR msg curMr = .ok (wordOf [a, b, c, d]) := by
        rw [seL4GetMR, if_pos (by omega), hword]
      have hbytes : leWord (wordOf [a, b, c, d]).toNat = [a, b, c, d] := by
        rw [toNat_wordOf (by simp)]
        exact take_leWord_ofLe (l := [a, b, c, d]) (by simp)
      simp only [List.length_cons, rpcUnmarshall]
      refine bind_eq_ok_iff.2 ⟨_, hget, bind_eq_ok_iff.2 ⟨_, ih hrest (by omega), ?_⟩⟩
      rw [hbytes, Nat.add_assoc, Nat.add_comm 1]
      rfl
  | last str hne hlt =>
      rw [wordsOf_short hne hlt] at hmsg
      rw [wordsOf_short hne hlt, List.length_singleton] at h ⊢
      have hget : seL4GetMR msg curMr = .ok (wordOf str) := by
        rw [seL4GetMR, if_pos (by omega), (holdsAt_cons.1 hmsg).1]
      rw [rpcUnmarshall_short hne hlt, hget]
      show Except.ok ((leWord (wordOf str).toNat).take str.length, curMr + 1) = _
      rw [toNat_wordOf (by omega), take_leWord_ofLe (by omega)]

/-! ## Pushing -/

/-- The words are appended to the message. -/
def Rpc.append (s : Rpc) (words : List UInt32) : Rpc :=
  { s with msg := blit s.msg s.mr words, mr := s.mr + words.length }

@[simp] theorem Rpc.append_nil (s : Rpc) : s.append [] = s := by
  simp [append]

@[simp] theorem Rpc.append_mr (s : Rpc) (words : List UInt32) :
    (s.append words).mr = s.mr + words.length := rfl

theorem Rpc.append_append (s : Rpc) (words words' : List UInt32) :
    (s.append words).append words' = s.append (words ++ words') := by
  simp [append, blit_append, Nat.add_assoc]

section Push

variable {s : Rpc}

theorem rpcPushUint_spec (h : s.mr < seL4MsgMaxLength) (v : UInt32) :
    rpcPushUint s v = .ok (s.append [v]) :=
  bind_eq_ok_iff.2 ⟨_, seL4SetMR_of_lt s.msg h v, rfl⟩

theorem rpcPushBuf_spec {v : List UInt8} (h : s.mr + (wordsOf v).length ≤ seL4MsgMaxLength) :
    rpcPushBuf s v = .ok (s.append (wordsOf v)) :=
  bind_eq_ok_iff.2 ⟨_, rpcMarshall_spec s.msg s.mr v h, rfl⟩

theorem rpcPushElems_spec {sz count : Nat} {v : List UInt8}
    (h : s.mr + (elemWords sz count v).length ≤ seL4MsgMaxLength) :
    rpcPushElems sz s count v = .ok (s.append (elemWords sz count v)) := by
  induction count generalizing s v with
  | zero => simp [rpcPushElems, elemWords]
  | succ count ih =>
      rw [elemWords, List.length_append] at h
      rw [rpcPushElems, elemWords, ← Rpc.append_append]
      refine bind_eq_ok_iff.2 ⟨_, rpcPushBuf_spec (by omega), ih ?_⟩
      rw [Rpc.append_mr]
      omega

theorem rpcPush_spec {a : RpcArg} (h : s.mr + a.encode.length ≤ seL4MsgMaxLength) :
    rpcPush s a = .ok (s.append a.encode) := by
  cases a with
  | uint v => exact rpcPushUint_spec h v
  | buf v => exact rpcPushBuf_spec h
  | str v =>
      rw [RpcArg.encode, List.length_cons] at h
      rw [RpcArg.encode, ← List.singleton_append, ← Rpc.append_append]
      refine bind_eq_ok_iff.2 ⟨_, rpcPushUint_spec (by omega) _, rpcPushBuf_spec ?_⟩
      rw [Rpc.append_mr, List.length_singleton]
      omega
  | bufArray sz count v =>
      rw [RpcArg.encode, List.length_cons] at h
      rw [RpcArg.encode, ← List.singleton_append, ← Rpc.append_append]
      refine bind_eq_ok_iff.2 ⟨_, rpcPushUint_spec (by omega) _, rpcPushElems_spec ?_⟩
      rw [Rpc.append_mr, List.length_singleton]
      omega

theorem foldlM_rpcPush {args : List RpcArg}
    (h : s.mr + (args.flatMap RpcArg.encode).length ≤ seL4MsgMaxLength) :
    args.foldlM rpcPush s = .ok (s.append (args.flatMap RpcArg.encode)) := by
  induction args generalizing s with
  | nil => simp [pure, Except.pure]
  | cons a args ih =>
      rw [List.flatMap_cons, List.length_append] at h
      rw [List.foldlM_cons, List.flatMap_cons, ← Rpc.append_append]
      refine bind_eq_ok_iff.2 ⟨_, rpcPush_spec (by omega), ih ?_⟩
      rw [Rpc.append_mr]
      omega

end Push

theorem length_first_elem {sz count : Nat} {v : List UInt8} (h : v.length = (count + 1) * sz) :
    (v.take sz).length = sz ∧ (v.drop sz).length = count * sz := by
  rw [Nat.succ_mul] at h
  rw [List.length_take, List.length_drop]
  omega

theorem length_elemWords {sz count : Nat} {v : List UInt8} (h : v.length = count * sz) :
    (elemWords sz count v).length = count * registersOf sz := by
  induction count generalizing v with
  | zero => simp [elemWords]
  | succ count ih =>
      obtain ⟨htake, hdrop⟩ := length_first_elem h
      rw [elemWords, List.length_append, length_wordsOf, htake, ih hdrop, Nat.succ_mul,
        Nat.add_comm]

theorem RpcArg.length_encode {a : RpcArg} (h : a.WellFormed) : a.encode.length = a.registers := by
  cases a with
  | uint v => rfl
  | buf v => exact length_wordsOf v
  | str v => rw [encode, registers, List.length_cons, length_wordsOf, Nat.add_comm]
  | bufArray sz count v =>
      rw [encode, registers, List.length_cons, length_elemWords h.1, Nat.add_comm]

theorem length_flatMap_encode {args : List RpcArg} (h : ∀ a ∈ args, a.WellFormed) :
    (args.flatMap RpcArg.encode).length = (args.map RpcArg.registers).sum := by
  rw [List.length_flatMap]
  congr 1
  exact List.map_congr_left fun a ha => RpcArg.length_encode (h a ha)

/-! ## Popping -/

/-- The slots of the pool that are free. -/
def Rpc.freeSlots (s : Rpc) : Finset Nat :=
  (Finset.range rpcMaxTrackedObjs).filter fun i => s.mempoolTable i = false

/-- From one state to another, `n` slots are taken. Those that were in use are left alone, and so
is the message. -/
structure Rpc.Took (s s' : Rpc) (n : Nat) : Prop where
  msg : s'.msg = s.msg
  free : s'.freeSlots.card + n = s.freeSlots.card
  used : ∀ i, s.mempoolTable i = true → s'.mempoolTable i = true ∧ s'.mempool i = s.mempool i

/-- The slot of a value is in use. -/
def RpcVal.Owned (s : Rpc) : RpcVal → Prop
  | .uint _ | .buf _ => True
  | .str i | .bufArray _ i _ => s.mempoolTable i = true

theorem Rpc.Took.trans {s s' s'' : Rpc} {n n' : Nat} (h : s.Took s' n) (h' : s'.Took s'' n') :
    s.Took s'' (n + n') where
  msg := h'.msg.trans h.msg
  free := by
    have := h.free
    have := h'.free
    omega
  used i hi := by
    obtain ⟨hused, hsame⟩ := h.used i hi
    obtain ⟨hused', hsame'⟩ := h'.used i hused
    exact ⟨hused', hsame'.trans hsame⟩

theorem RpcVal.Owned.took {s s' : Rpc} {n : Nat} {v : RpcVal} (hv : v.Owned s) (h : s.Took s' n) :
    v.Owned s' ∧ v.read s' = v.read s := by
  cases v with
  | uint v => exact ⟨trivial, rfl⟩
  | buf v => exact ⟨trivial, rfl⟩
  | str i =>
      obtain ⟨hused, hsame⟩ := h.used i hv
      exact ⟨hused, by rw [read, read, hsame]⟩
  | bufArray sz i count =>
      obtain ⟨hused, hsame⟩ := h.used i hv
      exact ⟨hused, by rw [read, read, hsame]⟩

section Pop

variable {s : Rpc}

theorem rpcMalloc_spec {sz : Nat} (hsz : sz ≤ rpcStaticMempoolObjSize)
    (hfree : 0 < s.freeSlots.card) :
    ∃ i, rpcMalloc s sz =
        .ok (i, { s with mempoolTable := Function.update s.mempoolTable i true }) ∧
      ∀ v mr, s.Took (Rpc.setSlot
        { s with mempoolTable := Function.update s.mempoolTable i true } i v mr) 1 := by
  obtain ⟨j, hj⟩ := Finset.card_pos.1 hfree
  obtain ⟨hlt, hunused⟩ := Finset.mem_filter.1 hj
  obtain ⟨i, hi⟩ : ∃ i,
      (List.range rpcMaxTrackedObjs).find? (fun i => !s.mempoolTable i) = some i :=
    Option.isSome_iff_exists.1 (List.find?_isSome.2
      ⟨j, List.mem_range.2 (Finset.mem_range.1 hlt), by simp [hunused]⟩)
  have hi₁ := List.mem_range.1 (List.mem_of_find?_eq_some hi)
  have hi₂ : s.mempoolTable i = false := by simpa using List.find?_some hi
  refine ⟨i, by rw [rpcMalloc, if_neg (Nat.not_lt.2 hsz), hi], fun v mr => ⟨rfl, ?_, ?_⟩⟩
  · have hmem : i ∈ s.freeSlots := Finset.mem_filter.2 ⟨Finset.mem_range.2 hi₁, hi₂⟩
    have herase : (Rpc.setSlot { s with mempoolTable := Function.update s.mempoolTable i true } i v
        mr).freeSlots = s.freeSlots.erase i := by
      ext k
      simp only [Rpc.freeSlots, Rpc.setSlot, Finset.mem_filter, Finset.mem_erase,
        Function.update_apply]
      split_ifs with hk
      · simp [hk]
      · simp [hk]
    rw [herase]
    exact Finset.card_erase_add_one hmem
  · intro k hk
    have hne : k ≠ i := by
      rintro rfl
      rw [hi₂] at hk
      cases hk
    simp only [Rpc.setSlot, Function.update_of_ne hne, and_true]
    exact hk

theorem rpcSvPopUint_spec {w : UInt32} {words : List UInt32}
    (hmsg : HoldsAt s.msg s.mr (w :: words)) (h : s.mr < seL4MsgMaxLength) :
    rpcSvPopUint s = .ok (w, { s with mr := s.mr + 1 }) := by
  have hget : seL4GetMR s.msg s.mr = .ok w := by
    rw [seL4GetMR, if_pos h, (holdsAt_cons.1 hmsg).1]
  exact bind_eq_ok_iff.2 ⟨_, hget, rfl⟩

theorem rpcPopElems_spec {msg : Msg} {sz count i mr : Nat} {v : List UInt8} {m : Nat → UInt8}
    (hmsg : HoldsAt msg mr (elemWords sz count v)) (hv : v.length = count * sz)
    (h : mr + (elemWords sz count v).length ≤ seL4MsgMaxLength) :
    rpcPopElems msg sz count i mr m =
      .ok (blit m (i * sz) v, mr + (elemWords sz count v).length) := by
  induction count generalizing i mr v m with
  | zero =>
      rw [Nat.zero_mul] at hv
      simp [rpcPopElems, elemWords, List.length_eq_zero_iff.1 hv]
  | succ count ih =>
      obtain ⟨htake, hdrop⟩ := length_first_elem hv
      rw [elemWords] at hmsg
      rw [elemWords, List.length_append] at h ⊢
      obtain ⟨hfirst, hrest⟩ := holdsAt_append.1 hmsg
      have hunmarshall := rpcUnmarshall_spec hfirst (by omega)
      rw [htake] at hunmarshall
      rw [rpcPopElems]
      refine bind_eq_ok_iff.2 ⟨_, hunmarshall, ?_⟩
      have happend := blit_append m (i * sz) (v.take sz) (v.drop sz)
      rw [List.take_append_drop, htake, ← Nat.succ_mul] at happend
      rw [happend, ← Nat.add_assoc]
      exact ih hrest hdrop (by omega)

/-- The string that was stored with a zero behind it. -/
theorem takeWhile_slice {m : Nat → UInt8} {str : List UInt8} (hstr : 0 ∉ str)
    (hlen : str.length + 1 ≤ rpcStaticMempoolObjSize) :
    (slice (blit m 0 (str ++ [0])) 0 rpcStaticMempoolObjSize).takeWhile (fun c => c ≠ 0) = str := by
  obtain ⟨k, hk⟩ := Nat.exists_eq_add_of_le hlen
  have hself := slice_blit_self m 0 (str ++ [0])
  rw [List.length_append, List.length_singleton] at hself
  have hpos : ∀ c ∈ str, decide (c ≠ 0) = true := by
    intro c hc
    refine decide_eq_true ?_
    rintro rfl
    exact hstr hc
  rw [hk, slice_add, hself, List.append_assoc, List.takeWhile_append_of_pos hpos]
  simp

theorem toNat_ofNat_of_lt {n : Nat} (h : n < 2 ^ 32) : (UInt32.ofNat n).toNat = n := by
  rw [UInt32.toNat_ofNat', Nat.mod_eq_of_lt h]

theorem rpcSvPopStr_spec {v : List UInt8} (hmsg : HoldsAt s.msg s.mr (RpcArg.str v).encode)
    (h : s.mr + (RpcArg.str v).encode.length ≤ seL4MsgMaxLength)
    (hlen : v.length + 1 ≤ rpcStaticMempoolObjSize) (hfree : 0 < s.freeSlots.card) :
    ∃ i s', rpcSvPopStr s = .ok (i, s') ∧ s'.mr = s.mr + (RpcArg.str v).encode.length ∧
      s.Took s' 1 ∧ s'.mempoolTable i = true ∧
      ∃ m, s'.mempool i = blit m 0 (v ++ [0]) := by
  rw [RpcArg.encode] at hmsg
  rw [RpcArg.encode, List.length_cons] at h ⊢
  have hword : v.length + 1 < 2 ^ 32 := Nat.lt_of_le_of_lt hlen (by decide)
  have hcount : (UInt32.ofNat v.length).toNat = v.length := toNat_ofNat_of_lt (by omega)
  have hpop := rpcSvPopUint_spec hmsg (by omega)
  obtain ⟨i, hmalloc, htook⟩ := rpcMalloc_spec (s := { s with mr := s.mr + 1 }) hlen hfree
  rw [← Nat.mod_eq_of_lt hword, ← hcount] at hmalloc
  have hread := rpcUnmarshall_spec (holdsAt_cons.1 hmsg).2 (by omega)
  rw [← hcount] at hread
  refine ⟨i, _, bind_eq_ok_iff.2 ⟨_, hpop, bind_eq_ok_iff.2 ⟨_, hmalloc,
    bind_eq_ok_iff.2 ⟨_, hread, rfl⟩⟩⟩, ?_, ?_, ?_, s.mempool i, ?_⟩
  · show s.mr + 1 + (wordsOf v).length = s.mr + ((wordsOf v).length + 1)
    omega
  · exact ⟨(htook _ _).msg, (htook _ _).free, (htook _ _).used⟩
  · exact Function.update_self ..
  · exact Function.update_self ..

theorem rpcSvPopBufArray_spec {sz count : Nat} {v : List UInt8}
    (hmsg : HoldsAt s.msg s.mr (RpcArg.bufArray sz count v).encode)
    (h : s.mr + (RpcArg.bufArray sz count v).encode.length ≤ seL4MsgMaxLength)
    (hok : (RpcArg.bufArray sz count v).WellFormed) (hfree : 0 < s.freeSlots.card) :
    ∃ i s', rpcSvPopBufArray s sz = .ok ((i, count), s') ∧
      s'.mr = s.mr + (RpcArg.bufArray sz count v).encode.length ∧ s.Took s' 1 ∧
      s'.mempoolTable i = true ∧ ∃ m, s'.mempool i = blit m 0 v := by
  obtain ⟨hv, hcount, hlen⟩ := hok
  rw [RpcArg.encode] at hmsg
  rw [RpcArg.encode, List.length_cons] at h ⊢
  have hword : count * sz < 2 ^ 32 := Nat.lt_of_le_of_lt hlen (by decide)
  have hcount : (UInt32.ofNat count).toNat = count := toNat_ofNat_of_lt hcount
  have hpop := rpcSvPopUint_spec hmsg (by omega)
  obtain ⟨i, hmalloc, htook⟩ := rpcMalloc_spec (s := { s with mr := s.mr + 1 }) hlen hfree
  have hread := rpcPopElems_spec (i := 0) (m := s.mempool i) (holdsAt_cons.1 hmsg).2 hv (by omega)
  rw [Nat.zero_mul] at hread
  refine ⟨i, Rpc.setSlot { s with mempoolTable := Function.update s.mempoolTable i true } i
    (blit (s.mempool i) 0 v) (s.mr + 1 + (elemWords sz count v).length),
    bind_eq_ok_iff.2 ⟨_, hpop, ?_⟩, ?_, ?_, ?_, s.mempool i, ?_⟩
  · simp only [hcount, Nat.mod_eq_of_lt hword]
    exact bind_eq_ok_iff.2 ⟨_, hmalloc, bind_eq_ok_iff.2 ⟨_, hread, rfl⟩⟩
  · show s.mr + 1 + (elemWords sz count v).length = s.mr + ((elemWords sz count v).length + 1)
    omega
  · exact ⟨(htook _ _).msg, (htook _ _).free, (htook _ _).used⟩
  · exact Function.update_self ..
  · exact Function.update_self ..

theorem rpcSvPop_spec {a : RpcArg} (hmsg : HoldsAt s.msg s.mr a.encode)
    (h : s.mr + a.encode.length ≤ seL4MsgMaxLength) (hok : a.WellFormed)
    (hfree : a.slots ≤ s.freeSlots.card) :
    ∃ v s', rpcSvPop s a.type = .ok (v, s') ∧ s'.mr = s.mr + a.encode.length ∧ s.Took s' a.slots ∧
      v.Owned s' ∧ v.read s' = a := by
  have hsame : ∀ mr, s.Took { s with mr := mr } 0 := fun mr => ⟨rfl, rfl, fun i hi => ⟨hi, rfl⟩⟩
  cases a with
  | uint v =>
      refine ⟨.uint v, _, ?_, rfl, hsame _, trivial, rfl⟩
      rw [RpcArg.type, rpcSvPop, rpcSvPopUint_spec hmsg h]
      rfl
  | buf v =>
      refine ⟨.buf v, _, ?_, rfl, hsame _, trivial, rfl⟩
      rw [RpcArg.type, rpcSvPop, rpcSvPopBuf, rpcUnmarshall_spec hmsg h]
      rfl
  | str v =>
      obtain ⟨i, s', hpop, hmr, htook, hused, m, hm⟩ := rpcSvPopStr_spec hmsg h hok.2 hfree
      refine ⟨.str i, s', ?_, hmr, htook, hused, ?_⟩
      · rw [RpcArg.type, rpcSvPop, hpop]
        rfl
      · rw [RpcVal.read, hm, takeWhile_slice hok.1 hok.2]
  | bufArray sz count v =>
      obtain ⟨i, s', hpop, hmr, htook, hused, m, hm⟩ := rpcSvPopBufArray_spec hmsg h hok hfree
      refine ⟨.bufArray sz i count, s', ?_, hmr, htook, hused, ?_⟩
      · rw [RpcArg.type, rpcSvPop, hpop]
        rfl
      · rw [RpcVal.read, hm, ← hok.1, slice_blit_self]

theorem rpcSvPopAll_spec {args : List RpcArg}
    (hmsg : HoldsAt s.msg s.mr (args.flatMap RpcArg.encode))
    (h : s.mr + (args.flatMap RpcArg.encode).length ≤ seL4MsgMaxLength)
    (hok : ∀ a ∈ args, a.WellFormed) (hfree : (args.map RpcArg.slots).sum ≤ s.freeSlots.card) :
    ∃ vs s', rpcSvPopAll s (args.map RpcArg.type) = .ok (vs, s') ∧
      s'.mr = s.mr + (args.flatMap RpcArg.encode).length ∧
      s.Took s' (args.map RpcArg.slots).sum ∧ vs.map (RpcVal.read s') = args := by
  induction args generalizing s with
  | nil => exact ⟨[], s, rfl, rfl, ⟨rfl, rfl, fun i hi => ⟨hi, rfl⟩⟩, rfl⟩
  | cons a args ih =>
      rw [List.flatMap_cons] at hmsg
      rw [List.flatMap_cons, List.length_append] at h ⊢
      rw [List.map_cons, List.sum_cons] at hfree
      rw [List.map_cons, List.map_cons, List.sum_cons]
      obtain ⟨hfirst, hrest⟩ := holdsAt_append.1 hmsg
      obtain ⟨v, s₁, hpop, hmr, htook, howned, hread⟩ :=
        rpcSvPop_spec hfirst (by omega) (hok a List.mem_cons_self) (by omega)
      have hfree₁ := htook.free
      rw [← hmr, ← htook.msg] at hrest
      obtain ⟨vs, s₂, hpops, hmr₂, htook₂, hreads⟩ := ih hrest (by omega)
        (fun b hb => hok b (List.mem_cons_of_mem _ hb)) (by omega)
      refine ⟨v :: vs, s₂, ?_, by omega, htook.trans htook₂, ?_⟩
      · exact bind_eq_ok_iff.2 ⟨_, hpop, bind_eq_ok_iff.2 ⟨_, hpops, rfl⟩⟩
      · -- the first value is still there after the others are popped
        rw [List.map_cons, (howned.took htook₂).2, hread, hreads]

theorem rpcSvPush_eq (s : Rpc) (a : RpcResult) : rpcSvPush s a = rpcPush s a.arg := by
  cases a <;> rfl

/-- The results as arguments. -/
def resultArgs (results : List (RpcResult × RpcDest)) : List RpcArg :=
  results.map fun p => p.1.arg

theorem foldlM_rpcSvPush (s : Rpc) (results : List (RpcResult × RpcDest)) :
    (results.map Prod.fst).foldlM rpcSvPush s = (resultArgs results).foldlM rpcPush s := by
  rw [resultArgs, List.foldlM_map, List.foldlM_map]
  congr 1
  funext s p
  exact rpcSvPush_eq s p.1

theorem rpcPopBufArray_spec {sz count count' : Nat} {v : List UInt8} {m : Nat → UInt8}
    (hmsg : HoldsAt s.msg s.mr (RpcArg.bufArray sz count v).encode)
    (h : s.mr + (RpcArg.bufArray sz count v).encode.length ≤ seL4MsgMaxLength)
    (hok : (RpcArg.bufArray sz count v).WellFormed) (hle : count ≤ count') :
    rpcPopBufArray s m sz count' =
      .ok (blit m 0 v, { s with mr := s.mr + (RpcArg.bufArray sz count v).encode.length }) := by
  obtain ⟨hv, hcount, _⟩ := hok
  rw [RpcArg.encode] at hmsg
  rw [RpcArg.encode, List.length_cons] at h ⊢
  have hcount : (UInt32.ofNat count).toNat = count := toNat_ofNat_of_lt hcount
  have hpop : rpcPopUint s = .ok (.ofNat count, { s with mr := s.mr + 1 }) :=
    rpcSvPopUint_spec hmsg (by omega)
  have hread := rpcPopElems_spec (i := 0) (m := m) (holdsAt_cons.1 hmsg).2 hv (by omega)
  rw [Nat.zero_mul, Nat.add_assoc, Nat.add_comm 1] at hread
  refine bind_eq_ok_iff.2 ⟨_, hpop, ?_⟩
  simp only [hcount, if_neg (Nat.not_lt.2 hle)]
  exact bind_eq_ok_iff.2 ⟨_, hread, rfl⟩

theorem rpcPop_spec {a : RpcResult} {dest : RpcDest} (hmsg : HoldsAt s.msg s.mr a.arg.encode)
    (h : s.mr + a.arg.encode.length ≤ seL4MsgMaxLength) (hok : a.arg.WellFormed)
    (hfits : a.Fits dest) :
    rpcPop s dest = .ok (a.at dest, { s with mr := s.mr + a.arg.encode.length }) := by
  cases a with
  | uint v =>
      cases dest with
      | uint =>
          rw [rpcPop, rpcPopUint, rpcSvPopUint_spec hmsg h]
          rfl
      | buf sz => exact hfits.elim
      | bufArray sz count m => exact hfits.elim
  | buf v =>
      cases dest with
      | buf sz =>
          obtain rfl := hfits
          rw [rpcPop, rpcPopBuf, rpcSvPopBuf, rpcUnmarshall_spec hmsg h]
          rfl
      | uint => exact hfits.elim
      | bufArray sz count m => exact hfits.elim
  | bufArray sz count v =>
      cases dest with
      | bufArray sz' count' m =>
          obtain ⟨rfl, hle⟩ := hfits
          rw [rpcPop, rpcPopBufArray_spec hmsg h hok hle]
          rfl
      | uint => exact hfits.elim
      | buf sz => exact hfits.elim

theorem rpcPopAll_spec {results : List (RpcResult × RpcDest)}
    (hmsg : HoldsAt s.msg s.mr ((resultArgs results).flatMap RpcArg.encode))
    (h : s.mr + ((resultArgs results).flatMap RpcArg.encode).length ≤ seL4MsgMaxLength)
    (hok : ∀ p ∈ results, p.1.arg.WellFormed ∧ p.1.Fits p.2) :
    rpcPopAll s (results.map Prod.snd) = .ok (results.map fun p => p.1.at p.2,
      { s with mr := s.mr + ((resultArgs results).flatMap RpcArg.encode).length }) := by
  induction results generalizing s with
  | nil => rfl
  | cons p results ih =>
      have hcons : (resultArgs (p :: results)).flatMap RpcArg.encode =
          p.1.arg.encode ++ (resultArgs results).flatMap RpcArg.encode := rfl
      rw [hcons] at hmsg
      rw [hcons, List.length_append] at h ⊢
      obtain ⟨hfirst, hrest⟩ := holdsAt_append.1 hmsg
      obtain ⟨hwf, hfits⟩ := hok p List.mem_cons_self
      have hpop := rpcPop_spec hfirst (by omega) hwf hfits
      rw [← Nat.add_assoc] at h ⊢
      have hpops := ih (s := { s with mr := s.mr + p.1.arg.encode.length }) hrest h
        fun q hq => hok q (List.mem_cons_of_mem _ hq)
      exact bind_eq_ok_iff.2 ⟨_, hpop, bind_eq_ok_iff.2 ⟨_, hpops, rfl⟩⟩

end Pop

/-! ## There and back -/

/-- The message that arrives holds what was appended. -/
theorem Rpc.append_holdsAt {s r : Rpc} {words : List UInt32}
    (h : ∀ i < (s.append words).mr, r.msg i = (s.append words).msg i) :
    HoldsAt r.msg s.mr words := by
  refine (holdsAt_blit s.msg s.mr words).congr ?_
  intro i _ hi
  exact h i hi

/-- **Marshalling.** For all arguments that take no more registers than there are, the client pushes
them; a server whose registers hold the message, and whose pool has the slots, pops them in the same
order, has exactly their values when it is done, and ends at the register where the client ended.
And the same for the results of a call, from the server to the client. -/
theorem rpc_round_trip :
    (∀ (args : List RpcArg) (s : Rpc), (∀ a ∈ args, a.WellFormed) →
      1 + (args.map RpcArg.registers).sum ≤ seL4MsgMaxLength →
        ∃ s', args.foldlM rpcPush (rpcResetContents s) = .ok s' ∧
          ∀ r : Rpc, (∀ i < s'.mr, r.msg i = s'.msg i) →
            (args.map RpcArg.slots).sum ≤ r.freeSlots.card →
              ∃ vs r', rpcSvPopAll (rpcResetContents r) (args.map RpcArg.type) = .ok (vs, r') ∧
                vs.map (RpcVal.read r') = args ∧ r'.mr = s'.mr) ∧
    ∀ (results : List (RpcResult × RpcDest)) (s : Rpc),
      (∀ p ∈ results, p.1.arg.WellFormed ∧ p.1.Fits p.2) →
      1 + (results.map fun p => p.1.arg.registers).sum ≤ seL4MsgMaxLength →
        ∃ s', (results.map Prod.fst).foldlM rpcSvPush (rpcResetContents s) = .ok s' ∧
          ∀ r : Rpc, (∀ i < s'.mr, r.msg i = s'.msg i) →
            ∃ r', rpcPopAll (rpcResetContents r) (results.map Prod.snd) =
                .ok (results.map fun p => p.1.at p.2, r') ∧ r'.mr = s'.mr := by
  constructor
  · intro args s hok hfits
    rw [← length_flatMap_encode hok] at hfits
    refine ⟨_, foldlM_rpcPush hfits, ?_⟩
    intro r hmsg hfree
    have hholds : HoldsAt r.msg 1 (args.flatMap RpcArg.encode) :=
      Rpc.append_holdsAt (s := rpcResetContents s) hmsg
    obtain ⟨vs, r', hpop, hmr, _, hread⟩ :=
      rpcSvPopAll_spec (s := rpcResetContents r) hholds hfits hok hfree
    exact ⟨vs, r', hpop, hread, hmr⟩
  · intro results s hok hfits
    have hargs : ∀ a ∈ resultArgs results, a.WellFormed := by
      intro a ha
      obtain ⟨p, hp, rfl⟩ := List.mem_map.1 ha
      exact (hok p hp).1
    have hlen : 1 + ((resultArgs results).flatMap RpcArg.encode).length ≤ seL4MsgMaxLength := by
      rw [length_flatMap_encode hargs, resultArgs, List.map_map]
      exact hfits
    rw [foldlM_rpcSvPush]
    refine ⟨_, foldlM_rpcPush hlen, ?_⟩
    intro r hmsg
    have hholds : HoldsAt r.msg 1 ((resultArgs results).flatMap RpcArg.encode) :=
      Rpc.append_holdsAt (s := rpcResetContents s) hmsg
    exact ⟨_, rpcPopAll_spec (s := rpcResetContents r) hholds hlen hok, rfl⟩

/-- A state in which nothing is in use. -/
def Rpc.init : Rpc where
  msg _ := 0
  mr := 1
  mempool _ _ := 0
  mempoolTable _ := false

/-- An integer, a string of five characters and an array of two elements of three bytes. -/
def threeArgs : List RpcArg :=
  [.uint 7, .str [104, 101, 108, 108, 111], .bufArray 3 2 [1, 2, 3, 4, 5, 6]]

theorem threeArgs_wellFormed : ∀ a ∈ threeArgs, a.WellFormed := by
  intro a ha
  simp only [threeArgs, List.mem_cons, List.not_mem_nil, or_false] at ha
  obtain rfl | rfl | rfl := ha
  · trivial
  · exact ⟨by decide, by decide⟩
  · exact ⟨rfl, by decide, by decide⟩

/-- The arguments take seven registers, and arrive. -/
theorem rpc_round_trip_three :
    ∃ s', threeArgs.foldlM rpcPush (rpcResetContents .init) = .ok s' ∧
      ∃ vs r', rpcSvPopAll (rpcResetContents { Rpc.init with msg := s'.msg })
          (threeArgs.map RpcArg.type) = .ok (vs, r') ∧
        vs.map (RpcVal.read r') = threeArgs ∧ r'.mr = s'.mr := by
  obtain ⟨s', hpush, hpop⟩ := rpc_round_trip.1 threeArgs .init threeArgs_wellFormed (by decide)
  have hfree : (threeArgs.map RpcArg.slots).sum ≤ Rpc.init.freeSlots.card := by decide
  exact ⟨s', hpush, hpop { Rpc.init with msg := s'.msg } (fun _ _ => rfl) hfree⟩

end PartitionSeL4.Refos
