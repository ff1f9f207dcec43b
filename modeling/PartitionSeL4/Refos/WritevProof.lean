import PartitionSeL4.Refos.WritevStdout
import PartitionSeL4.Refos.WritevFiles
import Mathlib.Algebra.Order.BigOperators.Group.List
import Mathlib.Algebra.Order.Group.Nat
import Mathlib.Algebra.Ring.Nat

/-!
# What `writev` returns

`writev_right_iff` puts the results about the console and about files together.
-/

namespace PartitionSeL4.Refos

open Lib

section

variable {srv : WriteServer} {connected : Bool} {fd : Int} {iov : List Iovec} {table : FdTable}

theorem Iovec.len_le_sum {v : Iovec} (hv : v ∈ iov) : v.len ≤ iovSum iov :=
  List.le_sum_of_mem (List.mem_map_of_mem hv)

theorem not_stalls_of_sum {isOpen : Bool} {reply : Nat → Int} {k : Nat} (hsum : iovSum iov = 0) :
    ¬Stalls isOpen reply k iov := by
  intro h
  induction h with
  | null hlen | silent hlen | next hlen =>
      exact Nat.not_le.2 hlen (hsum ▸ Iovec.len_le_sum List.mem_cons_self)
  | empty hlen _ ih =>
      rw [iovSum, List.map_cons, List.sum_cons] at hsum
      exact ih (Nat.add_eq_zero_iff.1 hsum).2

theorem MeetsError.sum_ne {reply : Nat → Int} {k : Nat} (h : MeetsError reply k iov) :
    iovSum iov ≠ 0 := by
  intro hsum
  induction h with
  | error hlen | stop hlen | next hlen =>
      exact Nat.not_le.2 hlen (hsum ▸ Iovec.len_le_sum List.mem_cons_self)
  | empty hlen _ ih =>
      rw [iovSum, List.map_cons, List.sum_cons] at hsum
      exact ih (Nat.add_eq_zero_iff.1 hsum).2

/-- An accepted list is written to the console or to a file, unless there is nothing to write. -/
theorem sysWritev_accepted (hpos : 0 < iov.length) (hmax : iov.length ≤ iovMax)
    (hsum : iovSum iov ≤ ssizeMax) (io : WriteState) (fuel : Nat) :
    sysWritev srv connected fd iov io fuel =
      if iovSum iov = 0 then some (.ok (0, io))
      else if fd = 1 ∨ fd = 2 then (writeStdout srv connected iov 0 io fuel).map .ok
      else if fd = 0 then some (.error .assertion)
      else writeFiles srv fd iov 0 io fuel := by
  rw [sysWritev, if_neg (by omega), if_neg (Nat.not_lt.2 hsum)]

theorem writevRight_of_sum (hpos : 0 < iov.length) (hmax : iov.length ≤ iovMax)
    (hsum : iovSum iov = 0) : WritevRight srv connected fd iov table := by
  refine ⟨0, ⟨[], 0, table⟩, ⟨0, ?_⟩, Or.inl rfl, fun request hreq => absurd hreq List.not_mem_nil⟩
  rw [sysWritev_accepted hpos hmax (by omega), if_pos hsum]

theorem returns_sysWritev_files (hpos : 0 < iov.length) (hmax : iov.length ≤ iovMax)
    (hsum : iovSum iov ≤ ssizeMax) (hne : iovSum iov ≠ 0) (hfd : fd ≠ 0 ∧ fd ≠ 1 ∧ fd ≠ 2)
    (io : WriteState) : sysWritev srv connected fd iov io = writeFiles srv fd iov 0 io := by
  funext fuel
  rw [sysWritev_accepted hpos hmax hsum, if_neg hne, if_neg (by omega), if_neg hfd.1]

/-- A write to a file is right if and only if it does not stall. -/
theorem files_right_iff (hpos : 0 < iov.length) (hmax : iov.length ≤ iovMax)
    (hsum : iovSum iov ≤ ssizeMax) (hfd : fd ≠ 0 ∧ fd ≠ 1 ∧ fd ≠ 2) :
    WritevRight srv connected fd iov table ↔
      ¬Stalls (table.entry fd).isSome srv.reply 0 iov := by
  by_cases hne : iovSum iov = 0
  · exact iff_of_true (writevRight_of_sum hpos hmax hne) (not_stalls_of_sum hne)
  rw [WritevRight, returns_sysWritev_files hpos hmax hsum hne hfd]
  constructor
  · rintro ⟨r, io, hret, -⟩ hs
    cases iov with
    | nil => cases hs
    | cons v iov =>
        rw [returns_writeFiles_cons (Int.le_refl 0)] at hret
        exact hs.not_returns (i := 0) rfl rfl rfl (Int.le_refl 0) hret
  · intro hs
    obtain ⟨x, hx⟩ := writeFiles_ends srv fd iov 0 ⟨[], 0, table⟩ (Int.le_refl 0) hs
    obtain ⟨r, io, n, rfl, hr, hsends⟩ := writeFiles_written (Int.le_refl 0) hx
    refine ⟨r, io, hx, ?_, fun request hreq => ?_⟩
    · have haccepted := hsends.accepted
      dsimp only at haccepted
      omega
    · exact (hsends.inside request hreq).resolve_left List.not_mem_nil

theorem stdout_right (hpos : 0 < iov.length) (hmax : iov.length ≤ iovMax)
    (hsum : iovSum iov ≤ ssizeMax) (hfd : fd = 1 ∨ fd = 2) (h : ¬MeetsError srv.reply 0 iov) :
    WritevRight srv true fd iov table := by
  by_cases hne : iovSum iov = 0
  · exact writevRight_of_sum hpos hmax hne
  have hlen : ∀ v ∈ iov, v.len < 2 ^ 32 := by
    intro v hv
    have hle := Iovec.len_le_sum hv
    rw [ssizeMax] at hsum
    omega
  obtain ⟨m, io, ⟨fuel, hret⟩, hsends⟩ :=
    writeStdout_sends ⟨[], 0, table⟩ hlen h 0
  refine ⟨0 + m, io, ⟨fuel, ?_⟩, Or.inl ?_, fun request hreq => ?_⟩
  · rw [sysWritev_accepted hpos hmax hsum, if_neg hne, if_pos hfd, hret]
    rfl
  · have haccepted := hsends.accepted
    dsimp only at haccepted
    omega
  · exact (hsends.inside request hreq).resolve_left List.not_mem_nil

/-- With at most one error, a write to the console is right if and only if there is none. -/
theorem stdout_right_iff (hpos : 0 < iov.length) (hmax : iov.length ≤ iovMax)
    (hsum : iovSum iov ≤ ssizeMax) (hfd : fd = 1 ∨ fd = 2) (hint : ∀ k, -2 ^ 31 ≤ srv.reply k)
    (honce : ∀ j l, srv.reply j < 0 → srv.reply l < 0 → j = l) :
    WritevRight srv true fd iov table ↔ ¬MeetsError srv.reply 0 iov := by
  refine ⟨?_, stdout_right hpos hmax hsum hfd⟩
  rintro ⟨r, io, ⟨fuel, hret⟩, hr, -⟩ hmeets
  have hlen : ∀ v ∈ iov, v.len < 2 ^ 31 := by
    intro v hv
    have hle := Iovec.len_le_sum hv
    rw [ssizeMax] at hsum
    omega
  cases iov with
  | nil => cases hmeets
  | cons v iov =>
      have hdrifts := (hmeets.drifts hint honce (i := 0) rfl
        (rfl : WriteState.calls ⟨[], 0, table⟩ = 0) (Nat.zero_le _) hlen (Int.le_refl 0)).start
      obtain ⟨r', io', m, hret', hsends, hnonneg, hne⟩ := hdrifts
      rw [sysWritev_accepted hpos hmax hsum, if_neg hmeets.sum_ne, if_pos hfd,
        Option.map_eq_some_iff] at hret
      obtain ⟨⟨_, _⟩, hstdout, hok⟩ := hret
      obtain ⟨rfl, rfl⟩ := Prod.mk.inj (Except.ok.inj hok)
      obtain ⟨rfl, rfl⟩ := Prod.mk.inj
        (Returns.unique (writeStdout_mono srv true (v :: iov) 0 _) ⟨fuel, hstdout⟩ hret')
      have haccepted := hsends.accepted
      dsimp only at haccepted
      omega

/-- Without a console, the bytes are counted, and sent to nobody. -/
theorem writeStdout_unconnected (iov : List Iovec) (ret : Int) (io : WriteState) (fuel : Nat) :
    writeStdout srv false iov ret io fuel = some (ret + iovSum iov, io) := by
  induction iov generalizing ret with
  | nil => exact congrArg some (by rw [iovSum, List.map_nil, List.sum_nil]; simp)
  | cons v iov ih =>
      have hcons : writeStdout srv false (v :: iov) ret io fuel =
          writeStdout srv false iov (ret + v.len) io fuel := rfl
      rw [hcons, ih, iovSum, iovSum, List.map_cons, List.sum_cons, Int.natCast_add, Int.add_assoc]

theorem unconnected_right_iff (hpos : 0 < iov.length) (hmax : iov.length ≤ iovMax)
    (hsum : iovSum iov ≤ ssizeMax) (hfd : fd = 1 ∨ fd = 2) :
    WritevRight srv false fd iov table ↔ iovSum iov = 0 := by
  constructor
  · rintro ⟨r, io, ⟨fuel, hret⟩, hr, -⟩
    by_contra hne
    rw [sysWritev_accepted hpos hmax hsum, if_neg hne, if_pos hfd, writeStdout_unconnected] at hret
    obtain ⟨rfl, rfl⟩ := Prod.mk.inj (Except.ok.inj (Option.some.inj hret))
    dsimp only at hr
    omega
  · exact writevRight_of_sum hpos hmax

end

/-- **What a write returns.** For every list of buffers that `writev` accepts, and every server with
replies that are at most what was asked for: a write to a file ends, returns how many bytes were
accepted or an error, and passes on only bytes of the buffers, if and only if it does not come to a
null buffer, or to bytes of which the server accepts nothing any more; a write to the console does
so if it meets no error, and if there is only one error among the replies, then only if it does not
meet it; and without a console, if and only if there is nothing to write. -/
theorem writev_right_iff (srv : WriteServer) (fildes : Int) (iov : List Iovec) (table : FdTable)
    (hpos : 0 < iov.length) (hmax : iov.length ≤ iovMax) (hsum : iovSum iov ≤ ssizeMax) :
    (fildes ≠ 0 ∧ fildes ≠ 1 ∧ fildes ≠ 2 → ∀ connected,
      (WritevRight srv connected fildes iov table ↔
        ¬Stalls (table.entry fildes).isSome srv.reply 0 iov)) ∧
    (fildes = 1 ∨ fildes = 2 →
      (¬MeetsError srv.reply 0 iov → WritevRight srv true fildes iov table) ∧
      ((∀ k, -2 ^ 31 ≤ srv.reply k) → (∀ j l, srv.reply j < 0 → srv.reply l < 0 → j = l) →
        (WritevRight srv true fildes iov table ↔ ¬MeetsError srv.reply 0 iov)) ∧
      (WritevRight srv false fildes iov table ↔ iovSum iov = 0)) :=
  ⟨fun hfd _ => files_right_iff hpos hmax hsum hfd, fun hfd =>
    ⟨stdout_right hpos hmax hsum hfd, stdout_right_iff hpos hmax hsum hfd,
      unconnected_right_iff hpos hmax hsum hfd⟩⟩

/-- A server that accepts 4 bytes of each call. -/
def fourBytes : WriteServer := ⟨fun _ => 4, fun _ => 100⟩

/-- Ten bytes are written to a file, or to the console, in three calls. -/
theorem writev_right_iff_four :
    (WritevRight fourBytes true 3 [⟨4096, 10⟩] hundredTable ↔
      ¬Stalls (hundredTable.entry 3).isSome fourBytes.reply 0 [⟨4096, 10⟩]) ∧
    WritevRight fourBytes true 1 [⟨4096, 10⟩] hundredTable := by
  refine ⟨(writev_right_iff fourBytes 3 [⟨4096, 10⟩] hundredTable (by decide) (by decide)
      (by decide)).1 (by decide) true,
    ((writev_right_iff fourBytes 1 [⟨4096, 10⟩] hundredTable (by decide) (by decide)
      (by decide)).2 (Or.inl rfl)).1 fun hmeets => ?_⟩
  obtain ⟨j, _, hneg⟩ := hmeets.exists_neg
  exact absurd hneg (by decide : ¬(4 : Int) < 0)

/-- A server that accepts nothing. -/
def fullServer : WriteServer := ⟨fun _ => 0, fun _ => 100⟩

/-- A console that replies with an error. -/
def brokenConsole : WriteServer := ⟨fun _ => -1, fun _ => 0⟩

/-- Ten bytes for a server that accepts nothing are tried to be written for ever, and on a console
that is broken they are written without any being accepted. -/
theorem writev_misses_replies :
    ¬WritevRight fullServer true 3 [⟨4096, 10⟩] hundredTable ∧
    ¬WritevRight brokenConsole true 1 [⟨4096, 10⟩] hundredTable := by
  constructor
  · rw [files_right_iff (by decide) (by decide) (by decide) (by decide), not_not]
    exact .silent (by decide) (by decide) fun _ _ => rfl
  · rintro ⟨r, io, ⟨fuel, hret⟩, hr, -⟩
    cases fuel with
    | zero => cases hret
    | succ fuel =>
        cases fuel with
        | zero => cases hret
        | succ fuel =>
            have hten : sysWritev brokenConsole true 1 [⟨4096, 10⟩] ⟨[], 0, hundredTable⟩
                (fuel + 1 + 1) = some (.ok (10, ⟨[(4096, 10)], 0, hundredTable⟩)) := rfl
            rw [hten] at hret
            obtain ⟨rfl, rfl⟩ := Prod.mk.inj (Except.ok.inj (Option.some.inj hret))
            exact absurd hr (by decide)

end PartitionSeL4.Refos
