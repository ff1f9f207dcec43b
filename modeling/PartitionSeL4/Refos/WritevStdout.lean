import PartitionSeL4.Refos.Writev

/-!
# Writing to the console

Without an error a buffer is sent up to its end, or up to the reply 0, and what is returned are the
bytes that were accepted (`writeStdout_sends`). An error takes the index back, so that bytes are
sent again, or behind the end of the buffer, which then counts as sent (`stdoutRound_error`). With a
single error the result is wrong in any case (`MeetsError.drifts`); several of them may cancel out.
-/

namespace PartitionSeL4.Refos

open Lib

variable {srv : WriteServer} {v : Iovec} {iov : List Iovec} {i : Nat} {io : WriteState}

/-! ## Writing without an error -/

theorem sysPlatformStdoutWrite_mono (srv : WriteServer) (connected : Bool) (v : Iovec)
    (io : WriteState) : FuelMono (sysPlatformStdoutWrite srv connected v io) := by
  cases connected with
  | false => exact .const (some (v.len, io))
  | true => exact loop_mono (stdoutRound srv v) (0, io)

theorem writeStdout_mono (srv : WriteServer) (connected : Bool) (iov : List Iovec) (ret : Int)
    (io : WriteState) : FuelMono (writeStdout srv connected iov ret io) := by
  induction iov generalizing ret io with
  | nil => exact .const (some (ret, io))
  | cons v iov ih =>
      exact (sysPlatformStdoutWrite_mono srv connected v io).bind fun (n, io) => ih (ret + n) io

theorem stdoutRound_end (hi : v.len ≤ i) : stdoutRound srv v (i, io) = .inr (v.len, io) :=
  if_neg (Nat.not_lt.2 hi)

theorem stdoutRound_reply (hi : i < v.len) (hlen : v.len < 2 ^ 32)
    (hreply : 0 ≤ srv.reply io.calls) :
    ∃ io', io'.calls = io.calls + 1 ∧
      Sends [v] io ((v.drop i).taken refosDefaultDspaceIpcMaxlen (srv.reply io.calls)) io' ∧
      stdoutRound srv v (i, io) = if srv.reply io.calls = 0 then .inr (i, io') else
        .inl (i + (v.drop i).taken refosDefaultDspaceIpcMaxlen (srv.reply io.calls), io') := by
  have hn := serve_eq hreply (v.drop i) refosDefaultDspaceIpcMaxlen
  have hle := (v.drop i).taken_le refosDefaultDspaceIpcMaxlen (srv.reply io.calls)
  rw [Iovec.drop] at hn hle
  dsimp only at hn hle
  refine ⟨_, WriteState.calls_call ..,
    sends_call io hi (Nat.min_le_right refosDefaultDspaceIpcMaxlen _) _, ?_⟩
  rw [stdoutRound, if_pos hi]
  dsimp only
  rw [hn, Iovec.drop]
  by_cases hzero : srv.reply io.calls = 0
  · rw [if_pos hzero, hzero]
    rfl
  · have hreply' : 0 < srv.reply io.calls := by omega
    have hpos := Iovec.taken_pos (v := ⟨v.base + i, v.len - i⟩) (Nat.sub_pos_of_lt hi)
      (by decide : 0 < refosDefaultDspaceIpcMaxlen) hreply'
    have hword : ∀ m : Nat, m ≤ v.len - i → word (i + m) = i + m := by
      intro m hm
      rw [word]
      omega
    rw [if_neg hzero, if_neg (by omega), hword _ hle]

/-- A buffer is sent up to its end, or up to the reply 0. -/
theorem stdout_sends (iov : List Iovec) (hi : i ≤ v.len) (hlen : v.len < 2 ^ 32)
    (h : ¬MeetsError srv.reply io.calls (v.drop i :: iov)) :
    ∃ m io', Returns (fun f => loop (stdoutRound srv v) f (i, io)) (i + m, io') ∧
      Sends [v] io m io' ∧ ¬MeetsError srv.reply io'.calls iov := by
  induction hleft : v.len - i using Nat.strongRecOn generalizing i io with
  | ind left ih =>
      rcases Nat.eq_or_lt_of_le hi with hend | hlt
      · have hempty : (v.drop i).len = 0 := by
          rw [Iovec.drop, hend, Nat.sub_self]
        refine ⟨0, io, ?_, .refl [v] io, fun hmeets => h (.empty hempty hmeets)⟩
        rw [returns_loop_inr (stdoutRound_end (Nat.le_of_eq hend.symm)), hend]
        rfl
      · have hpos : 0 < (v.drop i).len := Nat.sub_pos_of_lt hlt
        have hreply : 0 ≤ srv.reply io.calls := by
          by_contra hneg
          exact h (.error hpos (Int.not_le.1 hneg))
        obtain ⟨io', hcalls, hsends, hround⟩ := stdoutRound_reply hlt hlen hreply
        by_cases hzero : srv.reply io.calls = 0
        · rw [if_pos hzero] at hround
          rw [hzero, Iovec.taken_zero] at hsends
          refine ⟨0, io', (returns_loop_inr hround).2 rfl, hsends, fun hmeets => ?_⟩
          rw [hcalls] at hmeets
          exact h (.stop hpos hzero hmeets)
        · have hreply' : 0 < srv.reply io.calls := by omega
          have htaken := Iovec.taken_pos hpos (by decide : 0 < refosDefaultDspaceIpcMaxlen) hreply'
          have hle := (v.drop i).taken_le refosDefaultDspaceIpcMaxlen (srv.reply io.calls)
          rw [if_neg hzero] at hround
          have hrest : ¬MeetsError srv.reply io'.calls
              (v.drop (i + (v.drop i).taken refosDefaultDspaceIpcMaxlen (srv.reply io.calls)) ::
                iov) := by
            intro hmeets
            rw [hcalls, ← Iovec.drop_drop] at hmeets
            exact h (.next hpos hreply' hmeets)
          generalize (v.drop i).taken refosDefaultDspaceIpcMaxlen (srv.reply io.calls) = n at *
          rw [Iovec.drop] at hle
          dsimp only at hle
          obtain ⟨m, io'', hret, hsends', hmeets⟩ :=
            ih (v.len - (i + n)) (by omega) (i := i + n) (by omega) hrest rfl
          refine ⟨n + m, io'', ?_, ?_, hmeets⟩
          · rw [← Nat.add_assoc]
            exact (returns_loop_inl hround).2 hret
          · rw [Int.natCast_add]
            exact hsends.trans hsends'

theorem writeStdout_sends (io : WriteState) (hlen : ∀ v ∈ iov, v.len < 2 ^ 32)
    (h : ¬MeetsError srv.reply io.calls iov) (ret : Int) :
    ∃ m : Nat, ∃ io', Returns (writeStdout srv true iov ret io) (ret + m, io') ∧
      Sends iov io m io' := by
  induction iov generalizing io ret with
  | nil => exact ⟨0, io, ⟨0, congrArg some (by rw [Int.natCast_zero, Int.add_zero])⟩, .refl [] io⟩
  | cons v iov ih =>
      obtain ⟨n, io', hret, hsends, hrest⟩ :=
        stdout_sends iov (i := 0) (Nat.zero_le _) (hlen v List.mem_cons_self) h
      obtain ⟨m, io'', hret', hsends'⟩ :=
        ih io' (fun w hw => hlen w (List.mem_cons_of_mem v hw)) hrest (ret + n)
      rw [Nat.zero_add] at hret
      refine ⟨n + m, io'', ?_, ?_⟩
      · rw [Int.natCast_add, ← Int.add_assoc]
        exact (returns_bind_iff (sysPlatformStdoutWrite_mono srv true v io)
          fun (n, io) => writeStdout_mono srv true iov (ret + n) io).2 ⟨(n, io'), hret, hret'⟩
      · rw [Int.natCast_add]
        exact hsends.cons hsends'

/-! ## Errors of the console -/

/-- What is left to do in the middle of a buffer for the console. -/
def stdoutRest (srv : WriteServer) (v : Iovec) (iov : List Iovec) (i : Nat) (ret : Int)
    (io : WriteState) (fuel : Nat) : Option (Int × WriteState) :=
  (loop (stdoutRound srv v) fuel (i, io)).bind fun (n, io) =>
    writeStdout srv true iov (ret + n) io fuel

theorem returns_stdoutRest_iff {ret : Int} {x : Int × WriteState} :
    Returns (stdoutRest srv v iov i ret io) x ↔
      ∃ r, Returns (fun f => loop (stdoutRound srv v) f (i, io)) r ∧
        Returns (writeStdout srv true iov (ret + r.1) r.2) x :=
  returns_bind_iff (loop_mono (stdoutRound srv v) (i, io))
    fun (n, io) => writeStdout_mono srv true iov (ret + n) io

/-- An error takes the index back, or behind the end of the buffer. -/
theorem stdoutRound_error (hi : i < v.len) (hlen : v.len < 2 ^ 31) (hneg : srv.reply io.calls < 0)
    (hint : -2 ^ 31 ≤ srv.reply io.calls) :
    ∃ i' io', stdoutRound srv v (i, io) = .inl (i', io') ∧ io'.calls = io.calls + 1 ∧
      Sends [v] io 0 io' ∧ (i' < i ∨ v.len ≤ i') := by
  have hserve : srv.serve io.calls (min refosDefaultDspaceIpcMaxlen (v.len - i) : Nat) =
      srv.reply io.calls := by
    rw [WriteServer.serve]
    omega
  refine ⟨word (i + srv.reply io.calls), io.call (v.base + i)
    (min refosDefaultDspaceIpcMaxlen (v.len - i)) (srv.reply io.calls), ?_,
    WriteState.calls_call ..,
    ⟨?_, (sends_call io hi (Nat.min_le_right refosDefaultDspaceIpcMaxlen _) 0).inside⟩, ?_⟩
  · rw [stdoutRound, if_pos hi]
    dsimp only
    rw [hserve, if_neg (by omega)]
  · dsimp only [WriteState.call]
    omega
  · rw [word]
    omega

/-- After an error, without another one, the number of bytes is wrong. -/
theorem stdout_drifts (iov : List Iovec) (hi : i < v.len) (hlen : v.len < 2 ^ 31)
    (hneg : srv.reply io.calls < 0)
    (hint : -2 ^ 31 ≤ srv.reply io.calls)
    (honce : ∀ left, ¬MeetsError srv.reply (io.calls + 1) left) :
    ∃ n m io', Returns (fun f => loop (stdoutRound srv v) f (i, io)) (n, io') ∧
      Sends [v] io (m : Nat) io' ∧ n ≠ i + m ∧ ¬MeetsError srv.reply io'.calls iov := by
  obtain ⟨i', io', hround, hcalls, hsends, hback | hend⟩ := stdoutRound_error hi hlen hneg hint
  · obtain ⟨m, io'', hret, hsends', hrest⟩ := stdout_sends iov (i := i') (by omega)
      (by omega) (hcalls ▸ honce (v.drop i' :: iov))
    refine ⟨i' + m, m, io'', (returns_loop_inl hround).2 hret, ?_, by omega, hrest⟩
    have htrans := hsends.trans hsends'
    rwa [Int.zero_add] at htrans
  · exact ⟨v.len, 0, io', (returns_loop_inl hround).2 ((returns_loop_inr (stdoutRound_end hend)).2
      rfl), hsends, by omega, hcalls ▸ honce iov⟩

theorem MeetsError.exists_neg {reply : Nat → Int} {k : Nat} {left : List Iovec}
    (h : MeetsError reply k left) : ∃ j, k ≤ j ∧ reply j < 0 := by
  induction h with
  | error _ hneg => exact ⟨_, Nat.le_refl _, hneg⟩
  | empty _ _ ih => exact ih
  | stop _ _ _ ih | next _ _ _ ih =>
      obtain ⟨j, hj, hneg⟩ := ih
      exact ⟨j, Nat.le_of_succ_le hj, hneg⟩

/-- The result is no error, and it is not the number of accepted bytes on top of `base`. -/
def Drifts (x : Nat → Option (Int × WriteState)) (iov : List Iovec) (io : WriteState)
    (base : Int) : Prop :=
  ∃ r io', ∃ m : Nat, Returns x (r, io') ∧ Sends iov io m io' ∧ 0 ≤ r ∧ r ≠ base + m

section

variable {ret : Int} {n : Nat} {io' : WriteState}

theorem Drifts.start (h : Drifts (stdoutRest srv v iov 0 ret io) (v :: iov) io (ret + (0 : Nat))) :
    Drifts (writeStdout srv true (v :: iov) ret io) (v :: iov) io ret := by
  rwa [Int.natCast_zero, Int.add_zero] at h

theorem Drifts.after (hret : Returns (fun f => loop (stdoutRound srv v) f (i, io)) (i, io'))
    (hsends : Sends [v] io 0 io') (h : Drifts (writeStdout srv true iov (ret + i) io') iov io'
      (ret + i)) : Drifts (stdoutRest srv v iov i ret io) (v :: iov) io (ret + i) := by
  obtain ⟨r, io'', m, hret', hsends', hnonneg, hne⟩ := h
  refine ⟨r, io'', m, returns_stdoutRest_iff.2 ⟨(i, io'), hret, hret'⟩, ?_, hnonneg, hne⟩
  have htotal := hsends.cons hsends'
  rwa [Int.zero_add] at htotal

theorem Drifts.next (hround : stdoutRound srv v (i, io) = .inl (i + n, io'))
    (hsends : Sends [v] io n io') (h : Drifts (stdoutRest srv v iov (i + n) ret io') (v :: iov) io'
      (ret + (i + n : Nat))) : Drifts (stdoutRest srv v iov i ret io) (v :: iov) io (ret + i) := by
  obtain ⟨r, io'', m, hret, hsends', hnonneg, hne⟩ := h
  obtain ⟨x, hloop, hrest⟩ := returns_stdoutRest_iff.1 hret
  refine ⟨r, io'', n + m, ?_, ?_, hnonneg, by omega⟩
  · exact returns_stdoutRest_iff.2 ⟨x, (returns_loop_inl hround).2 hloop, hrest⟩
  · rw [Int.natCast_add]
    exact (hsends.head iov).trans hsends'

/-- This buffer is wrong, and the other ones are right. -/
theorem drifts_of_error (hi : i < v.len) (hlens : ∀ w ∈ v :: iov, w.len < 2 ^ 31) (hret : 0 ≤ ret)
    (hneg : srv.reply io.calls < 0) (hint : -2 ^ 31 ≤ srv.reply io.calls)
    (honce : ∀ left, ¬MeetsError srv.reply (io.calls + 1) left) :
    Drifts (stdoutRest srv v iov i ret io) (v :: iov) io (ret + i) := by
  obtain ⟨n, m, io', hloop, hsends, hne, hrest⟩ :=
    stdout_drifts iov hi (hlens v List.mem_cons_self) hneg hint honce
  have hlens' : ∀ w ∈ iov, w.len < 2 ^ 32 := by
    intro w hw
    have hlen := hlens w (List.mem_cons_of_mem v hw)
    omega
  obtain ⟨m', io'', hret', hsends'⟩ := writeStdout_sends io' hlens' hrest (ret + n)
  refine ⟨_, io'', m + m', returns_stdoutRest_iff.2 ⟨(n, io'), hloop, hret'⟩, ?_, by omega,
    by omega⟩
  rw [Int.natCast_add]
  exact hsends.cons hsends'

end

/-- A single error makes the result differ from the number of accepted bytes. -/
theorem MeetsError.drifts {k : Nat} {left : List Iovec} (h : MeetsError srv.reply k left)
    (hint : ∀ j, -2 ^ 31 ≤ srv.reply j)
    (honce : ∀ j l, srv.reply j < 0 → srv.reply l < 0 → j = l) :
    ∀ {v iov i ret io}, left = v.drop i :: iov → io.calls = k → i ≤ v.len →
      (∀ w ∈ v :: iov, w.len < 2 ^ 31) → 0 ≤ ret →
        Drifts (stdoutRest srv v iov i ret io) (v :: iov) io (ret + i) := by
  induction h with
  | error hpos hneg =>
      rintro v iov i ret io heq rfl hi hlens hret
      obtain ⟨rfl, rfl⟩ := List.cons.inj heq
      refine drifts_of_error (Nat.lt_of_sub_pos hpos) hlens hret hneg (hint _) fun left hmeets => ?_
      obtain ⟨j, hj, hneg'⟩ := hmeets.exists_neg
      exact absurd (honce _ _ hneg hneg') (by omega)
  | @empty k w rest hempty h ih =>
      rintro v iov i ret io heq rfl hi hlens hret
      obtain ⟨rfl, rfl⟩ := List.cons.inj heq
      obtain rfl : i = v.len := Nat.le_antisymm hi (Nat.le_of_sub_eq_zero hempty)
      cases rest with
      | nil => cases h
      | cons w rest =>
          exact .after ((returns_loop_inr (stdoutRound_end (Nat.le_refl _))).2 rfl) (.refl [v] io)
            (ih (i := 0) rfl rfl (Nat.zero_le _)
              (fun w' hw' => hlens w' (List.mem_cons_of_mem v hw')) (by omega)).start
  | @stop k w rest hpos hzero h ih =>
      rintro v iov i ret io heq rfl hi hlens hret
      obtain ⟨rfl, rfl⟩ := List.cons.inj heq
      have hlen := hlens v List.mem_cons_self
      obtain ⟨io', hcalls, hsends, hround⟩ :=
        stdoutRound_reply (Nat.lt_of_sub_pos hpos) (by omega) (Int.le_of_eq hzero.symm)
      rw [if_pos hzero] at hround
      rw [hzero, Iovec.taken_zero] at hsends
      cases rest with
      | nil => cases h
      | cons w rest =>
          exact .after ((returns_loop_inr hround).2 rfl) hsends
            (ih (i := 0) rfl hcalls (Nat.zero_le _)
              (fun w' hw' => hlens w' (List.mem_cons_of_mem v hw')) (by omega)).start
  | next hpos hreply h ih =>
      rintro v iov i ret io heq rfl hi hlens hret
      obtain ⟨rfl, rfl⟩ := List.cons.inj heq
      have hlen := hlens v List.mem_cons_self
      obtain ⟨io', hcalls, hsends, hround⟩ :=
        stdoutRound_reply (Nat.lt_of_sub_pos hpos) (by omega) (Int.le_of_lt hreply)
      rw [if_neg (by omega)] at hround
      have hle := (v.drop i).taken_le refosDefaultDspaceIpcMaxlen (srv.reply io.calls)
      exact .next hround hsends
        (ih (by rw [Iovec.drop_drop]) hcalls (Nat.add_le_of_le_sub' hi hle) hlens hret)

end PartitionSeL4.Refos
