import PartitionSeL4.Refos.Writev

/-!
# Writing to a file

What a round of the inner loop does is said once (`fileRound_spec`). A write that stalls goes on for
ever (`Stalls.not_returns`). One that does not ends: there is always another reply that is not 0,
and with it an error, or less of the buffer left (`writeFiles_ends`). What it returns is an error or
the number of accepted bytes (`writeFiles_written`).
-/

namespace PartitionSeL4.Refos

open Lib

variable {srv : WriteServer} {v : Iovec} {iov : List Iovec} {i : Nat} {io : WriteState}

/-! ## Rounds -/

variable {fd : Int} {ret : Int}

/-- Whether the descriptor is open. -/
def WriteState.isOpen (io : WriteState) (fd : Int) : Bool := (io.table.entry fd).isSome

theorem filetableWrite_open {t : FdTable} {e : FdEntry} (hentry : t.entry fd = some e)
    {buffer : Nat} {bufferLen : Int} (hbuffer : buffer ≠ 0) (hlen : bufferLen ≠ 0)
    (serve : FileRequest → Int) (getSize : Nat) :
    ∃ r u, filetableWrite t fd buffer bufferLen serve getSize = (serve r, some r, u) ∧
      r.buffer = buffer ∧ r.len = min bufferLen fdTableDataspaceIpcMaxlen ∧
      (u.entry fd).isSome = (t.entry fd).isSome := by
  rw [filetableWrite, filetableInternalReadWrite, if_neg (not_or.2 ⟨hbuffer, hlen⟩), hentry]
  dsimp only
  split
  · exact ⟨_, t, rfl, rfl, rfl, by rw [hentry]⟩
  · rw [if_neg Bool.false_ne_true]
    refine ⟨_, _, rfl, rfl, rfl, ?_⟩
    rw [FdTable.entry_setEntry hentry]
    rfl

/-- The rounds of the loop for a file: at the end of the buffer, for a null buffer, for a descriptor
that is not open, and with the two kinds of replies. -/
inductive FileRound (srv : WriteServer) (fd : Int) (v : Iovec) (i : Nat) (ret : Int)
    (io : WriteState) : (Nat × Int × WriteState) ⊕ WriteResult → Prop
  | done (hi : v.len ≤ i) : FileRound srv fd v i ret io (.inr (.ok (ret, io)))
  | null (hi : i < v.len) (hbase : v.base + i = 0) : FileRound srv fd v i ret io (.inl (i, ret, io))
  | closed (hi : i < v.len) (hbase : v.base + i ≠ 0) (hopen : io.isOpen fd = false) :
      FileRound srv fd v i ret io (.inr (.ok (-efault, io)))
  | error (io' : WriteState) (hi : i < v.len) (hbase : v.base + i ≠ 0) (hopen : io.isOpen fd)
      (hreply : srv.reply io.calls < 0) (hsends : Sends [v] io 0 io') :
      FileRound srv fd v i ret io (.inr (.ok (-efault, io')))
  | next (io' : WriteState) (hi : i < v.len) (hbase : v.base + i ≠ 0) (hopen : io.isOpen fd)
      (hreply : 0 ≤ srv.reply io.calls) (hcalls : io'.calls = io.calls + 1)
      (hopen' : io'.isOpen fd = io.isOpen fd)
      (hsends : Sends [v] io
        ((v.drop i).taken fdTableDataspaceIpcMaxlen (srv.reply io.calls)) io') :
      FileRound srv fd v i ret io
        (.inl (i + (v.drop i).taken fdTableDataspaceIpcMaxlen (srv.reply io.calls),
          ret + (v.drop i).taken fdTableDataspaceIpcMaxlen (srv.reply io.calls), io'))

theorem fileRound_open {e : FdEntry} (hi : i < v.len) (hbase : v.base + i ≠ 0)
    (hentry : io.table.entry fd = some e) (ret : Int) :
    FileRound srv fd v i ret io (fileRound srv fd v (i, ret, io)) := by
  have hisOpen : io.isOpen fd = true := by
    rw [WriteState.isOpen, hentry]
    rfl
  obtain ⟨r, u, hwrite, hbuffer, hlen, hopen⟩ := filetableWrite_open hentry hbase
    (by omega : ((v.len - i : Nat) : Int) ≠ 0) (fun r => srv.serve io.calls r.len)
    (srv.size io.calls)
  have hmin : r.len = (min fdTableDataspaceIpcMaxlen (v.len - i) : Nat) := by omega
  have hle := Nat.min_le_right fdTableDataspaceIpcMaxlen (v.len - i)
  rw [fileRound, if_pos hi]
  dsimp only
  rw [hwrite]
  dsimp only [WriteState.after]
  rw [hbuffer, hmin, Int.toNat_natCast]
  by_cases hreply : 0 ≤ srv.reply io.calls
  · have hn := serve_eq hreply (v.drop i) fdTableDataspaceIpcMaxlen
    have htaken := (v.drop i).taken_le fdTableDataspaceIpcMaxlen (srv.reply io.calls)
    have hsends := sends_call io hi hle
      ((v.drop i).taken fdTableDataspaceIpcMaxlen (srv.reply io.calls))
    have hcalls := io.calls_call (v.base + i) (min fdTableDataspaceIpcMaxlen (v.len - i))
      ((v.drop i).taken fdTableDataspaceIpcMaxlen (srv.reply io.calls))
    dsimp only [Iovec.drop] at hn htaken hsends hcalls
    rw [hn, if_pos (Int.natCast_nonneg _), if_pos (Int.ofNat_le.2 htaken), Int.toNat_natCast]
    exact .next _ hi hbase hisOpen hreply hcalls hopen ⟨hsends.accepted, hsends.inside⟩
  · have hn : srv.serve io.calls (min fdTableDataspaceIpcMaxlen (v.len - i) : Nat) =
        srv.reply io.calls := by
      rw [WriteServer.serve]
      omega
    have hsends := sends_call io hi hle 0
    rw [hn, if_neg hreply]
    refine .error _ hi hbase hisOpen (Int.not_le.1 hreply) ⟨?_, hsends.inside⟩
    dsimp only [WriteState.call]
    omega

theorem fileRound_spec (srv : WriteServer) (fd : Int) (v : Iovec) (i : Nat) (ret : Int)
    (io : WriteState) : FileRound srv fd v i ret io (fileRound srv fd v (i, ret, io)) := by
  by_cases hi : i < v.len
  case neg =>
    rw [fileRound, if_neg hi]
    exact .done (Nat.not_lt.1 hi)
  by_cases hbase : v.base + i = 0
  · have hwrite : filetableWrite io.table fd (v.base + i) (v.len - i : Nat)
        (fun r => srv.serve io.calls r.len) (srv.size io.calls) = (0, none, io.table) :=
      if_pos (Or.inl hbase)
    rw [fileRound, if_pos hi]
    dsimp only
    rw [hwrite, if_pos (Int.le_refl 0), if_pos (Int.natCast_nonneg _), Int.add_zero]
    exact .null hi hbase
  cases hentry : io.table.entry fd with
  | none =>
      have hwrite : filetableWrite io.table fd (v.base + i) (v.len - i : Nat)
          (fun r => srv.serve io.calls r.len) (srv.size io.calls) =
            (-efilenotfound, none, io.table) := by
        rw [filetableWrite, filetableInternalReadWrite, if_neg (by omega), hentry]
      rw [fileRound, if_pos hi]
      dsimp only
      rw [hwrite, if_neg (by decide : ¬(0 : Int) ≤ -efilenotfound)]
      exact .closed hi hbase (by rw [WriteState.isOpen, hentry]; rfl)
  | some e => exact fileRound_open hi hbase hentry ret

/-! ## Unrolling the loops -/

theorem unlessFailed_mono {next : Int → WriteState → Nat → Option WriteResult}
    (hnext : ∀ ret io, FuelMono (next ret io)) (r : WriteResult) :
    FuelMono fun f => unlessFailed (fun ret io => next ret io f) r := by
  cases r with
  | error e => exact FuelMono.const (some (Except.error e))
  | ok res =>
      obtain ⟨ret, io⟩ := res
      by_cases hret : ret < 0
      · intro f g a _ hf
        exact (if_pos hret).trans ((if_pos hret).symm.trans hf)
      · intro f g a hle hf
        exact (if_neg hret).trans (hnext ret io f g a hle ((if_neg hret).symm.trans hf))

theorem writeFiles_mono (srv : WriteServer) (fd : Int) (iov : List Iovec) (ret : Int)
    (io : WriteState) : FuelMono (writeFiles srv fd iov ret io) := by
  induction iov generalizing ret io with
  | nil => exact FuelMono.const (some (Except.ok (ret, io)))
  | cons v iov ih =>
      by_cases hlen : v.len = 0
      · intro f g a hle hf
        exact (if_pos hlen).trans (ih ret io f g a hle ((if_pos hlen).symm.trans hf))
      · intro f g a hle hf
        exact (if_neg hlen).trans ((loop_mono (fileRound srv fd v) (0, ret, io)).bind
          (unlessFailed_mono ih) f g a hle ((if_neg hlen).symm.trans hf))

/-- What is left to do in the middle of a buffer. -/
def writeRest (srv : WriteServer) (fd : Int) (v : Iovec) (iov : List Iovec) (i : Nat) (ret : Int)
    (io : WriteState) (fuel : Nat) : Option WriteResult :=
  (loop (fileRound srv fd v) fuel (i, ret, io)).bind
    (unlessFailed fun ret io => writeFiles srv fd iov ret io fuel)

variable {ret' : Int} {io' : WriteState} {x : WriteResult}

theorem returns_writeRest_iff : Returns (writeRest srv fd v iov i ret io) x ↔
    ∃ r, Returns (fun f => loop (fileRound srv fd v) f (i, ret, io)) r ∧
      Returns (fun f => unlessFailed (fun ret io => writeFiles srv fd iov ret io f) r) x :=
  returns_bind_iff (loop_mono (fileRound srv fd v) (i, ret, io))
    (unlessFailed_mono (writeFiles_mono srv fd iov))

theorem returns_writeRest_inl {i' : Nat}
    (hround : fileRound srv fd v (i, ret, io) = .inl (i', ret', io')) :
    Returns (writeRest srv fd v iov i ret io) x ↔
      Returns (writeRest srv fd v iov i' ret' io') x := by
  rw [returns_writeRest_iff, returns_writeRest_iff]
  exact exists_congr fun r => and_congr_left fun _ => returns_loop_inl hround

theorem returns_writeRest_inr {r : WriteResult}
    (hround : fileRound srv fd v (i, ret, io) = .inr r) :
    Returns (writeRest srv fd v iov i ret io) x ↔
      Returns (fun f => unlessFailed (fun ret io => writeFiles srv fd iov ret io f) r) x := by
  rw [returns_writeRest_iff]
  constructor
  · rintro ⟨r', hloop, hret⟩
    rwa [(returns_loop_inr hround).1 hloop] at hret
  · exact fun hret => ⟨r, (returns_loop_inr hround).2 rfl, hret⟩

/-- At the end of a buffer, the next ones follow. -/
theorem returns_writeRest_done (hi : v.len ≤ i) (hret : 0 ≤ ret) :
    Returns (writeRest srv fd v iov i ret io) x ↔ Returns (writeFiles srv fd iov ret io) x := by
  have hround : fileRound srv fd v (i, ret, io) = .inr (.ok (ret, io)) :=
    if_neg (Nat.not_lt.2 hi)
  have hnext : (fun f => unlessFailed (fun ret io => writeFiles srv fd iov ret io f)
      (.ok (ret, io))) = writeFiles srv fd iov ret io :=
    funext fun f => if_neg (Int.not_lt.2 hret)
  rw [returns_writeRest_inr hround, hnext]

theorem returns_writeRest_efault
    (hround : fileRound srv fd v (i, ret, io) = .inr (.ok (-efault, io'))) :
    Returns (writeRest srv fd v iov i ret io) x ↔ x = .ok (-efault, io') := by
  have hend : (fun f => unlessFailed (fun ret io => writeFiles srv fd iov ret io f)
      (.ok (-efault, io'))) = fun _ => some (.ok (-efault, io')) :=
    funext fun f => by rw [unlessFailed, if_pos (by decide)]
  rw [returns_writeRest_inr hround, hend, returns_const_iff]
  exact ⟨fun h => (Option.some.inj h).symm, fun h => congrArg some h.symm⟩

theorem returns_writeFiles_cons (hret : 0 ≤ ret) :
    Returns (writeFiles srv fd (v :: iov) ret io) x ↔
      Returns (writeRest srv fd v iov 0 ret io) x := by
  by_cases hlen : v.len = 0
  · have hcons : writeFiles srv fd (v :: iov) ret io = writeFiles srv fd iov ret io :=
      funext fun f => if_pos hlen
    rw [hcons, returns_writeRest_done (Nat.le_of_eq hlen) hret]
  · have hcons : writeFiles srv fd (v :: iov) ret io = writeRest srv fd v iov 0 ret io :=
      funext fun f => if_neg hlen
    rw [hcons]

/-! ## Writes that do not end -/

theorem silent_not_returns {k : Nat} (hi : i < v.len) (hnone : ∀ j, k ≤ j → srv.reply j = 0)
    (hk : k ≤ io.calls) (hopen : io.isOpen fd) {r : WriteResult} :
    ¬Returns (fun f => loop (fileRound srv fd v) f (i, ret, io)) r := by
  refine not_returns_loop
    (I := fun s => s.1 = i ∧ k ≤ s.2.2.calls ∧ s.2.2.isOpen fd) ?_ ⟨rfl, hk, hopen⟩
  rintro ⟨i', ret', io'⟩ ⟨rfl, hk', hopen'⟩
  have hround := fileRound_spec srv fd v i' ret' io'
  have hzero := hnone io'.calls hk'
  dsimp only at hi hk' hopen' ⊢
  generalize fileRound srv fd v (i', ret', io') = next at hround
  cases hround with
  | done hend => exact absurd hi (Nat.not_lt.2 hend)
  | null => exact ⟨_, rfl, rfl, hk', hopen'⟩
  | closed _ _ hclosed => exact absurd hopen' (by rw [hclosed]; exact Bool.false_ne_true)
  | error _ _ _ _ hneg => omega
  | next io'' _ _ _ _ hcalls hsame =>
      refine ⟨_, rfl, ?_, by dsimp only; omega, hsame.trans hopen'⟩
      rw [hzero, Iovec.taken_zero]
      rfl

theorem null_not_returns (hi : i < v.len) (hbase : v.base + i = 0) {r : WriteResult} :
    ¬Returns (fun f => loop (fileRound srv fd v) f (i, ret, io)) r := by
  refine not_returns_loop (I := fun s => s = (i, ret, io)) ?_ rfl
  rintro _ rfl
  refine ⟨_, ?_, rfl⟩
  have hround := fileRound_spec srv fd v i ret io
  generalize fileRound srv fd v (i, ret, io) = next at hround
  cases hround with
  | done hend => exact absurd hi (Nat.not_lt.2 hend)
  | null => rfl
  | closed _ hne => exact absurd hbase hne
  | error _ _ hne => exact absurd hbase hne
  | next _ _ hne => exact absurd hbase hne

theorem Stalls.not_returns {isOpen : Bool} {k : Nat} {left : List Iovec}
    (h : Stalls isOpen srv.reply k left) : ∀ {v iov i ret io}, left = v.drop i :: iov →
      io.calls = k → io.isOpen fd = isOpen → 0 ≤ ret →
        ¬Returns (writeRest srv fd v iov i ret io) x := by
  induction h with
  | null hlen hbase =>
      rintro v iov i ret io heq rfl rfl _ hret
      obtain ⟨rfl, rfl⟩ := List.cons.inj heq
      obtain ⟨r, hloop, _⟩ := returns_writeRest_iff.1 hret
      exact null_not_returns (Nat.lt_of_sub_pos hlen) hbase hloop
  | silent hlen hopen hnone =>
      rintro v iov i ret io heq rfl rfl _ hret
      obtain ⟨rfl, rfl⟩ := List.cons.inj heq
      obtain ⟨r, hloop, _⟩ := returns_writeRest_iff.1 hret
      exact silent_not_returns (Nat.lt_of_sub_pos hlen) hnone (Nat.le_refl _) hopen hloop
  | @empty k w rest hlen h ih =>
      rintro v iov i ret io heq rfl rfl hnonneg hret
      obtain ⟨rfl, rfl⟩ := List.cons.inj heq
      rw [returns_writeRest_done (Nat.le_of_sub_eq_zero hlen) hnonneg] at hret
      cases rest with
      | nil => cases h
      | cons w rest =>
          rw [returns_writeFiles_cons hnonneg] at hret
          exact ih (i := 0) rfl rfl rfl hnonneg hret
  | next hlen hbase hopen hreply h ih =>
      rintro v iov i ret io heq rfl rfl hnonneg hret
      obtain ⟨rfl, rfl⟩ := List.cons.inj heq
      have hi := Nat.lt_of_sub_pos hlen
      have hround := fileRound_spec srv fd v i ret io
      cases hbody : fileRound srv fd v (i, ret, io) with
      | inl s =>
          rw [hbody] at hround
          cases hround with
          | null _ hnull => exact hbase hnull
          | next io' _ _ _ _ hcalls hsame =>
              rw [returns_writeRest_inl hbody] at hret
              exact ih (by rw [Iovec.drop_drop]) hcalls hsame (by omega) hret
      | inr r =>
          rw [hbody] at hround
          cases hround with
          | done hend => exact absurd hi (Nat.not_lt.2 hend)
          | closed _ _ hclosed => exact absurd hopen (by rw [hclosed]; exact Bool.false_ne_true)
          | error _ _ _ _ hneg => omega

/-! ## Writes that end -/

/-- A write of these buffers ends, if it does not stall. -/
def Ends (srv : WriteServer) (fd : Int) (iov : List Iovec) : Prop :=
  ∀ ret io, 0 ≤ ret → ¬Stalls (io.isOpen fd) srv.reply io.calls iov →
    ∃ x, Returns (writeFiles srv fd iov ret io) x

/-- Without stalling, the loop ends with this round, or goes on after it without stalling. -/
theorem writeRest_round (hiov : Ends srv fd iov) (hret : 0 ≤ ret)
    (h : ¬Stalls (io.isOpen fd) srv.reply io.calls (v.drop i :: iov)) :
    (∃ x, Returns (writeRest srv fd v iov i ret io) x) ∨
      ∃ n io', i < v.len ∧ io.isOpen fd ∧ n ≤ v.len - i ∧ (srv.reply io.calls ≠ 0 → 0 < n) ∧
        io'.calls = io.calls + 1 ∧
        ¬Stalls (io'.isOpen fd) srv.reply io'.calls (v.drop (i + n) :: iov) ∧
        ∀ x, Returns (writeRest srv fd v iov (i + n) (ret + n) io') x →
          Returns (writeRest srv fd v iov i ret io) x := by
  have hround := fileRound_spec srv fd v i ret io
  cases hbody : fileRound srv fd v (i, ret, io) with
  | inr r =>
      left
      rw [hbody] at hround
      cases hround with
      | done hend =>
          obtain ⟨x, hx⟩ := hiov ret io hret fun hs =>
            h (.empty (Nat.sub_eq_zero_of_le hend) hs)
          exact ⟨x, (returns_writeRest_done hend hret).2 hx⟩
      | closed => exact ⟨_, (returns_writeRest_efault hbody).2 rfl⟩
      | error => exact ⟨_, (returns_writeRest_efault hbody).2 rfl⟩
  | inl s =>
      right
      rw [hbody] at hround
      cases hround with
      | null hi hbase => exact absurd (.null (Nat.sub_pos_of_lt hi) hbase) h
      | next io' hi hbase hopen hreply hcalls hsame =>
          have hpos : 0 < (v.drop i).len := Nat.sub_pos_of_lt hi
          refine ⟨_, io', hi, hopen, (v.drop i).taken_le _ _, fun hne => ?_, hcalls,
            fun hs => ?_, fun x => (returns_writeRest_inl hbody).2⟩
          · have hreply' : 0 < srv.reply io.calls := by omega
            exact Iovec.taken_pos hpos (by decide) hreply'
          · rw [hcalls, hsame, ← Iovec.drop_drop] at hs
            exact h (.next hpos hbase hopen hreply hs)

/-- The rounds up to the next reply that is not 0. -/
theorem writeRest_within (hiov : Ends srv fd iov)
    (hrest : ∀ j ret io, i < j → j ≤ v.len → 0 ≤ ret →
      ¬Stalls (io.isOpen fd) srv.reply io.calls (v.drop j :: iov) →
        ∃ x, Returns (writeRest srv fd v iov j ret io) x)
    (d : Nat) (hd : srv.reply (io.calls + d) ≠ 0) (hret : 0 ≤ ret)
    (h : ¬Stalls (io.isOpen fd) srv.reply io.calls (v.drop i :: iov)) :
    ∃ x, Returns (writeRest srv fd v iov i ret io) x := by
  induction d generalizing ret io with
  | zero =>
      rcases writeRest_round hiov hret h with hends | ⟨n, io', hi, _, hn, hpos, _, hs, hgo⟩
      · exact hends
      · have hpos' := hpos hd
        obtain ⟨x, hx⟩ := hrest (i + n) (ret + n) io' (by omega) (by omega) (by omega) hs
        exact ⟨x, hgo x hx⟩
  | succ d ih =>
      rcases writeRest_round hiov hret h with hends | ⟨n, io', hi, _, hn, _, hcalls, hs, hgo⟩
      · exact hends
      · rcases Nat.eq_zero_or_pos n with rfl | hpos
        · have hd' : srv.reply (io'.calls + d) ≠ 0 := by
            rwa [hcalls, Nat.add_assoc, Nat.add_comm 1]
          obtain ⟨x, hx⟩ := ih hd' (by omega : 0 ≤ ret + (0 : Nat)) hs
          exact ⟨x, hgo x hx⟩
        · obtain ⟨x, hx⟩ := hrest (i + n) (ret + n) io' (by omega) (by omega) (by omega) hs
          exact ⟨x, hgo x hx⟩

/-- The rest of a buffer: there is less and less of it. -/
theorem writeRest_returns (hiov : Ends srv fd iov) (hret : 0 ≤ ret)
    (h : ¬Stalls (io.isOpen fd) srv.reply io.calls (v.drop i :: iov)) :
    ∃ x, Returns (writeRest srv fd v iov i ret io) x := by
  induction hleft : v.len - i using Nat.strongRecOn generalizing i ret io with
  | ind left ih =>
      rcases writeRest_round hiov hret h with hends | ⟨_, _, hi, hopen, _⟩
      · exact hends
      · have hlater : ∃ j, io.calls ≤ j ∧ srv.reply j ≠ 0 := by
          by_contra hnone
          exact h (.silent (Nat.sub_pos_of_lt hi) hopen fun j hj =>
            not_not.1 fun hne => hnone ⟨j, hj, hne⟩)
        obtain ⟨j, hj, hne⟩ := hlater
        obtain ⟨d, rfl⟩ := Nat.exists_eq_add_of_le hj
        exact writeRest_within hiov (fun j ret io hlt hle hret hs =>
          ih (v.len - j) (by omega) hret hs rfl) d hne hret h

theorem writeFiles_ends (srv : WriteServer) (fd : Int) (iov : List Iovec) : Ends srv fd iov := by
  induction iov with
  | nil => exact fun ret io _ _ => ⟨.ok (ret, io), 0, rfl⟩
  | cons v iov ih =>
      intro ret io hret h
      obtain ⟨x, hx⟩ := writeRest_returns (i := 0) ih hret h
      exact ⟨x, (returns_writeFiles_cons hret).2 hx⟩

/-! ## What is written -/

/-- A result: an error, or what was added to the number of bytes written before. -/
def Written (iov : List Iovec) (ret : Int) (io : WriteState) (x : WriteResult) : Prop :=
  ∃ r io' n, x = .ok (r, io') ∧ (r < 0 ∨ r = ret + n ∧ 0 ≤ n) ∧ Sends iov io n io'

theorem loop_written
    (h : Returns (fun f => loop (fileRound srv fd v) f (0, ret, io)) x) :
    Written [v] ret io x := by
  obtain ⟨fuel, hf⟩ := h
  refine loop_invariant (I := fun s => ∃ n, s.2.1 = ret + n ∧ 0 ≤ n ∧ Sends [v] io n s.2.2)
    (Q := Written [v] ret io) ?_ ?_ ⟨0, (Int.add_zero ret).symm, Int.le_refl 0, .refl [v] io⟩ hf
  · rintro ⟨i, ret', io'⟩ s ⟨n, rfl, hn, hsends⟩ hbody
    have hround := fileRound_spec srv fd v i (ret + n) io'
    rw [hbody] at hround
    cases hround with
    | null => exact ⟨n, rfl, hn, hsends⟩
    | next io'' _ _ _ _ _ _ hsends' =>
        exact ⟨_, Int.add_assoc .., by omega, hsends.trans hsends'⟩
  · rintro ⟨i, ret', io'⟩ r ⟨n, rfl, hn, hsends⟩ hbody
    have hround := fileRound_spec srv fd v i (ret + n) io'
    rw [hbody] at hround
    cases hround with
    | done => exact ⟨_, _, n, rfl, Or.inr ⟨rfl, hn⟩, hsends⟩
    | closed => exact ⟨_, _, n, rfl, Or.inl (by decide), hsends⟩
    | error io'' _ _ _ _ hsends' =>
        exact ⟨_, _, n + 0, rfl, Or.inl (by decide), hsends.trans hsends'⟩

theorem writeFiles_written (hret : 0 ≤ ret) (h : Returns (writeFiles srv fd iov ret io) x) :
    Written iov ret io x := by
  induction iov generalizing ret io with
  | nil =>
      obtain rfl := Option.some.inj (returns_const_iff.1 h)
      exact ⟨ret, io, 0, rfl, Or.inr ⟨(Int.add_zero ret).symm, Int.le_refl 0⟩, .refl [] io⟩
  | cons v iov ih =>
      rw [returns_writeFiles_cons hret] at h
      obtain ⟨_, hloop, hrest⟩ := returns_writeRest_iff.1 h
      obtain ⟨r, io', n, rfl, hr, hsends⟩ := loop_written hloop
      obtain ⟨fuel, hfuel⟩ := hrest
      dsimp only [unlessFailed] at hfuel
      by_cases hneg : r < 0
      · rw [if_pos hneg] at hfuel
        exact ⟨r, io', n, (Option.some.inj hfuel).symm, Or.inl hneg, hsends.head iov⟩
      · rw [if_neg hneg] at hfuel
        obtain ⟨r', io'', m, rfl, hr', hsends'⟩ := ih (Int.not_lt.1 hneg) ⟨fuel, hfuel⟩
        refine ⟨r', io'', n + m, rfl, ?_, hsends.cons hsends'⟩
        omega

end PartitionSeL4.Refos
