import PartitionSeL4.Lib.Fuel
import PartitionSeL4.Refos.FileTable
import Mathlib.Algebra.Ring.Nat

/-!
# `sys_io.c`: `writev`

The bytes of a list of buffers are written with one call to a server for each piece, and the server
replies how many of them it accepted, or with an error. There are two loops over a buffer:

* the one for the console (`stdoutRound`) ends at the reply 0, and adds any other reply to the
  index, negative ones too: an error takes the index back, or behind the end of the buffer, which
  then counts as written;
* the one for files (`fileRound`) ends at a negative reply, and goes on after the reply 0: it never
  ends if there are no other replies, and for a null buffer, for which no call is made.

Each of them looks for the replies that the other one misses. `MeetsError` and `Stalls` are the
replies for which this matters.
-/

namespace PartitionSeL4.Refos

open Lib

/-! ## The server -/

/-- `struct iovec`. A buffer does not wrap around the address space. -/
structure Iovec where
  base : Nat
  len : Nat
  deriving DecidableEq, Repr

/-- What a server does with the calls of a write: its replies, and the size of the file after
each of them. -/
structure WriteServer where
  reply : Nat → Int
  size : Nat → Nat

/-- The reply to a call for `len` bytes is at most `len`. -/
def WriteServer.serve (srv : WriteServer) (k : Nat) (len : Int) : Int := min (srv.reply k) len

/-- What a write has done so far: the buffers and lengths of its calls, how many bytes were
accepted, and what became of the open files. -/
structure WriteState where
  requests : List (Nat × Nat)
  accepted : Nat
  table : FdTable

namespace WriteState

/-- The number of the next call. -/
def calls (io : WriteState) : Nat := io.requests.length

/-- A call for `len` bytes at `buffer` with the reply `n`. -/
def call (io : WriteState) (buffer len : Nat) (n : Int) : WriteState :=
  { io with requests := io.requests ++ [(buffer, len)], accepted := io.accepted + n.toNat }

/-- What `filetable_write` returned. -/
def after (io : WriteState) : Int × Option FileRequest × FdTable → WriteState
  | (_, none, table) => { io with table := table }
  | (nc, some r, table) => { io.call r.buffer r.len.toNat nc with table := table }

end WriteState

/-! ## The console -/

/-- `REFOS_DEFAULT_DSPACE_IPC_MAXLEN` -/
def refosDefaultDspaceIpcMaxlen : Nat := 64

/-- A round of the loop in `sys_platform_stdout_write`. -/
def stdoutRound (srv : WriteServer) (v : Iovec) :
    Nat × WriteState → (Nat × WriteState) ⊕ (Nat × WriteState)
  | (i, io) =>
      if i < v.len then
        let c := min refosDefaultDspaceIpcMaxlen (v.len - i)
        let n := srv.serve io.calls c
        let io := io.call (v.base + i) c n
        if n = 0 then .inr (i, io) else .inl (word (i + n), io)
      else .inr (v.len, io)

/-- `sys_platform_stdout_write`, without `stdioWriteOverride`. `connected` is whether there is a
session and a dataspace for the console. -/
def sysPlatformStdoutWrite (srv : WriteServer) (connected : Bool) (v : Iovec) (io : WriteState)
    (fuel : Nat) : Option (Nat × WriteState) :=
  if connected then loop (stdoutRound srv v) fuel (0, io) else some (v.len, io)

/-- The loop of `_sys_writev` for the console. -/
def writeStdout (srv : WriteServer) (connected : Bool) :
    List Iovec → Int → WriteState → Nat → Option (Int × WriteState)
  | [], ret, io, _ => some (ret, io)
  | v :: iov, ret, io, fuel =>
      (sysPlatformStdoutWrite srv connected v io fuel).bind fun (n, io) =>
        writeStdout srv connected iov (ret + n) io fuel

/-! ## Files -/

/-- What `_sys_writev` returns, or the assertion that fails. -/
abbrev WriteResult : Type := Except Failure (Int × WriteState)

/-- A round of the inner loop of `_sys_writev`. -/
def fileRound (srv : WriteServer) (fd : Int) (v : Iovec) :
    Nat × Int × WriteState → (Nat × Int × WriteState) ⊕ WriteResult
  | (offset, ret, io) =>
      if offset < v.len then
        let written := filetableWrite io.table fd (v.base + offset) (v.len - offset : Nat)
          (fun r => srv.serve io.calls r.len) (srv.size io.calls)
        let nc := written.1
        let io := io.after written
        if 0 ≤ nc then
          if nc ≤ (v.len - offset : Nat) then .inl (offset + nc.toNat, ret + nc, io)
          else .inr (.error .assertion)
        else .inr (.ok (-efault, io))
      else .inr (.ok (ret, io))

/-- The outer loop goes on unless there was an error. -/
def unlessFailed (next : Int → WriteState → Option WriteResult) : WriteResult → Option WriteResult
  | .error e => some (.error e)
  | .ok (ret, io) => if ret < 0 then some (.ok (ret, io)) else next ret io

/-- The loop of `_sys_writev` for files. -/
def writeFiles (srv : WriteServer) (fd : Int) :
    List Iovec → Int → WriteState → Nat → Option WriteResult
  | [], ret, io, _ => some (.ok (ret, io))
  | v :: iov, ret, io, fuel =>
      if v.len = 0 then writeFiles srv fd iov ret io fuel
      else (loop (fileRound srv fd v) fuel (0, ret, io)).bind
        (unlessFailed fun ret io => writeFiles srv fd iov ret io fuel)

/-! ## The system call -/

/-- `IOV_MAX` -/
def iovMax : Nat := 1024

/-- `SSIZE_MAX` -/
def ssizeMax : Nat := 2 ^ 31 - 1

/-- `EINVAL` -/
def einval : Int := 22

/-- The length of all buffers together. -/
def iovSum (iov : List Iovec) : Nat := (iov.map Iovec.len).sum

/-- `_sys_writev`. The sum only grows, so that it is enough to look at all of it. -/
def sysWritev (srv : WriteServer) (connected : Bool) (fildes : Int) (iov : List Iovec)
    (io : WriteState) (fuel : Nat) : Option WriteResult :=
  if iov.length = 0 ∨ iovMax < iov.length then some (.ok (-einval, io))
  else if ssizeMax < iovSum iov then some (.ok (-einval, io))
  else if iovSum iov = 0 then some (.ok (0, io))
  else if fildes = 1 ∨ fildes = 2 then (writeStdout srv connected iov 0 io fuel).map .ok
  else if fildes = 0 then some (.error .assertion)
  else writeFiles srv fildes iov 0 io fuel

/-! ## The property -/

/-- These bytes are in one of the buffers. -/
def Inside (iov : List Iovec) (request : Nat × Nat) : Prop :=
  ∃ v ∈ iov, v.base ≤ request.1 ∧ request.1 + request.2 ≤ v.base + v.len

/-- The call ends, returns how many bytes were accepted or an error, and passes on only bytes of
the buffers. -/
def WritevRight (srv : WriteServer) (connected : Bool) (fildes : Int) (iov : List Iovec)
    (table : FdTable) : Prop :=
  ∃ r io, Returns (sysWritev srv connected fildes iov ⟨[], 0, table⟩) (.ok (r, io)) ∧
    (r = io.accepted ∨ r < 0) ∧ ∀ request ∈ io.requests, Inside iov request

/-- What is left of a buffer. -/
def Iovec.drop (v : Iovec) (n : Nat) : Iovec := ⟨v.base + n, v.len - n⟩

/-- How much of a buffer is accepted with a reply, with at most `maxlen` in a call. -/
def Iovec.taken (v : Iovec) (maxlen : Nat) (reply : Int) : Nat :=
  (min reply (min maxlen v.len : Nat)).toNat

/-- The console replies with an error at some point, with the `k`th reply the next one. -/
inductive MeetsError (reply : Nat → Int) : Nat → List Iovec → Prop
  | error {k v iov} (hlen : 0 < v.len) (hneg : reply k < 0) : MeetsError reply k (v :: iov)
  | empty {k v iov} (hlen : v.len = 0) (h : MeetsError reply k iov) : MeetsError reply k (v :: iov)
  | stop {k v iov} (hlen : 0 < v.len) (hzero : reply k = 0) (h : MeetsError reply (k + 1) iov) :
      MeetsError reply k (v :: iov)
  | next {k v iov} (hlen : 0 < v.len) (hpos : 0 < reply k)
      (h : MeetsError reply (k + 1)
        (v.drop (v.taken refosDefaultDspaceIpcMaxlen (reply k)) :: iov)) :
      MeetsError reply k (v :: iov)

/-- It comes to a null buffer, or to bytes of which the server of an open file accepts nothing any
more, with the `k`th reply the next one. -/
inductive Stalls (isOpen : Bool) (reply : Nat → Int) : Nat → List Iovec → Prop
  | null {k v iov} (hlen : 0 < v.len) (hbase : v.base = 0) : Stalls isOpen reply k (v :: iov)
  | silent {k v iov} (hlen : 0 < v.len) (hopen : isOpen) (hnone : ∀ j, k ≤ j → reply j = 0) :
      Stalls isOpen reply k (v :: iov)
  | empty {k v iov} (hlen : v.len = 0) (h : Stalls isOpen reply k iov) :
      Stalls isOpen reply k (v :: iov)
  | next {k v iov} (hlen : 0 < v.len) (hbase : v.base ≠ 0) (hopen : isOpen) (hreply : 0 ≤ reply k)
      (h : Stalls isOpen reply (k + 1)
        (v.drop (v.taken fdTableDataspaceIpcMaxlen (reply k)) :: iov)) :
      Stalls isOpen reply k (v :: iov)

/-! ## Buffers -/

@[simp] theorem Iovec.drop_zero (v : Iovec) : v.drop 0 = v := rfl

theorem Iovec.drop_drop (v : Iovec) (i n : Nat) : (v.drop i).drop n = v.drop (i + n) := by
  rw [drop, drop, drop]
  congr 1
  · exact Nat.add_assoc ..
  · exact Nat.sub_sub ..

theorem Iovec.taken_le (v : Iovec) (maxlen : Nat) (reply : Int) : v.taken maxlen reply ≤ v.len := by
  rw [taken]
  omega

theorem Iovec.taken_zero (v : Iovec) (maxlen : Nat) : v.taken maxlen 0 = 0 := by
  rw [taken]
  omega

theorem Iovec.taken_pos {v : Iovec} {maxlen : Nat} {reply : Int} (hlen : 0 < v.len)
    (hmaxlen : 0 < maxlen) (hreply : 0 < reply) : 0 < v.taken maxlen reply := by
  rw [taken]
  omega

theorem Inside.of_head {v : Iovec} {request : Nat × Nat} (h : Inside [v] request)
    (iov : List Iovec) : Inside (v :: iov) request := by
  obtain ⟨w, hw, hin⟩ := h
  exact ⟨w, List.mem_cons.2 (Or.inl (List.mem_singleton.1 hw)), hin⟩

theorem Inside.of_tail {iov : List Iovec} {request : Nat × Nat} (h : Inside iov request)
    (v : Iovec) : Inside (v :: iov) request := by
  obtain ⟨w, hw, hin⟩ := h
  exact ⟨w, List.mem_cons_of_mem v hw, hin⟩

theorem inside_piece {v : Iovec} {i : Nat} (hi : i < v.len) {len : Nat} (hlen : len ≤ v.len - i) :
    Inside [v] (v.base + i, len) := by
  refine ⟨v, List.mem_singleton_self v, Nat.le_add_right .., ?_⟩
  dsimp only
  omega

/-- What a part of a write does: `ret` is what it adds to the number of bytes written, and its
requests are inside these buffers. -/
structure Sends (iov : List Iovec) (io : WriteState) (ret : Int) (io' : WriteState) : Prop where
  accepted : ret = io'.accepted - io.accepted
  inside : ∀ request ∈ io'.requests, request ∈ io.requests ∨ Inside iov request

namespace Sends

variable {iov iov' : List Iovec} {io io' io'' : WriteState} {ret ret' : Int}

theorem refl (iov : List Iovec) (io : WriteState) : Sends iov io 0 io where
  accepted := (Int.sub_self _).symm
  inside := fun _ h => Or.inl h

theorem trans (h : Sends iov io ret io') (h' : Sends iov io' ret' io'') :
    Sends iov io (ret + ret') io'' where
  accepted := by
    rw [h.accepted, h'.accepted]
    omega
  inside := fun request hreq => by
    rcases h'.inside request hreq with hbefore | hin
    · exact h.inside request hbefore
    · exact Or.inr hin

theorem mono (h : Sends iov io ret io')
    (hsub : ∀ request, Inside iov request → Inside iov' request) : Sends iov' io ret io' where
  accepted := h.accepted
  inside := fun request hreq => (h.inside request hreq).imp_right (hsub request)

theorem head {v : Iovec} (h : Sends [v] io ret io') (iov : List Iovec) :
    Sends (v :: iov) io ret io' :=
  h.mono fun _ hin => hin.of_head iov

theorem cons {v : Iovec} (h : Sends [v] io ret io') (h' : Sends iov io' ret' io'') :
    Sends (v :: iov) io (ret + ret') io'' :=
  (h.head iov).trans (h'.mono fun _ hin => hin.of_tail v)

end Sends

section

variable {srv : WriteServer} {v : Iovec} {iov : List Iovec} {i : Nat} {io : WriteState}

@[simp] theorem WriteState.calls_call (io : WriteState) (buffer len : Nat) (n : Int) :
    (io.call buffer len n).calls = io.calls + 1 := by
  rw [calls, call, calls, List.length_append]
  rfl

theorem serve_eq {k : Nat} (hreply : 0 ≤ srv.reply k) (v : Iovec) (maxlen : Nat) :
    srv.serve k (min maxlen v.len : Nat) = v.taken maxlen (srv.reply k) := by
  rw [WriteServer.serve, Iovec.taken]
  omega

theorem sends_call (io : WriteState) (hi : i < v.len) {len : Nat} (hlen : len ≤ v.len - i)
    (n : Nat) : Sends [v] io n (io.call (v.base + i) len n) where
  accepted := by
    dsimp only [WriteState.call]
    omega
  inside := fun request hreq => by
    rcases List.mem_append.1 hreq with hbefore | hnew
    · exact Or.inl hbefore
    · rw [List.mem_singleton.1 hnew]
      exact Or.inr (inside_piece hi hlen)

end

end PartitionSeL4.Refos
