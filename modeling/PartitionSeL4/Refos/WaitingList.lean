import PartitionSeL4.Refos.ContentInit

/-!
# The waiting list of a dataspace

`ram_dspace_content_init_reply_waiters` deletes from the list that it goes through: after a deletion
it takes back the index and the count. `replyLoop` is the loop with its `int`s, its assertions and
the shifting vector; `replyLoop_eq` says that it ends and divides the list into the waiters of the
page and the others, in their order.

`waiting_list` is about whole runs: everybody on the list waits for a page that exists and is not
provided, so that the bounds check at the start of the function never leaves a waiter without a
reply.
-/

namespace PartitionSeL4.Refos

open Lib

/-! ## The loop -/

/-- The loop of `ram_dspace_content_init_reply_waiters`, with the waiters replied to so far. `none`
if the loop is not over when the fuel is used up. -/
def replyLoop (npage : Nat) : Nat → Int → Int → List Waiter → List Waiter →
    Option (Except Failure (List Waiter × List Waiter))
  | 0, _, _, _, _ => none
  | fuel + 1, i, waitingListCount, waitingList, sent =>
      if i < waitingListCount then
        -- `cvector_get` asserts that the index is below the count
        match (if 0 ≤ i then waitingList[i.toNat]? else none) with
        | none => some (.error .assertion)
        | some waiter =>
            if waiter.reply = 0 then some (.error .assertion)
            else if waiter.pageidx = npage then
              let waitingList := waitingList.eraseIdx i.toNat
              let waitingListCount := waitingListCount - 1
              if waitingListCount ≠ waitingList.length then some (.error .assertion)
              else
                replyLoop npage fuel (i - 1 + 1) waitingListCount waitingList (sent ++ [waiter])
            else replyLoop npage fuel (i + 1) waitingListCount waitingList sent
      else some (.ok (waitingList, sent))

/-- `ram_dspace_content_init_reply_waiters`: the waiting list afterwards and the waiters replied
to. -/
def replyWaiters (fuel : Nat) (dataspace : RamDspace) (offset : Nat) :
    Option (Except Failure (List Waiter × List Waiter)) :=
  let npage := offset / pageSize
  if dataspace.npages ≤ npage then some (.ok (dataspace.contentInitWaitingList, []))
  else
    replyLoop npage fuel 0 dataspace.contentInitWaitingList.length
      dataspace.contentInitWaitingList []

/-- The loop ends within as many turns as there are waiters from the index on, and one more. It
leaves the waiters of other pages and has replied to those of the page, in their order. -/
theorem replyLoop_eq {npage fuel i : Nat} {waitingList : List Waiter}
    (hreply : ∀ w ∈ waitingList, w.reply ≠ 0) (hi : i ≤ waitingList.length)
    (hfuel : waitingList.length - i < fuel) (sent : List Waiter) :
    replyLoop npage fuel i waitingList.length waitingList sent =
      some (.ok (waitingList.take i ++ (waitingList.drop i).filter (fun w => w.pageidx ≠ npage),
        sent ++ (waitingList.drop i).filter (fun w => w.pageidx = npage))) := by
  induction fuel generalizing i waitingList sent with
  | zero => omega
  | succ fuel ih =>
      rw [replyLoop]
      by_cases hlt : i < waitingList.length
      · have hcount : (i : Int) < (waitingList.length : Int) := by omega
        have hget : waitingList[i]? = some waitingList[i] := List.getElem?_eq_getElem hlt
        have hdrop := List.drop_eq_getElem_cons hlt
        have hne := hreply waitingList[i] (List.getElem_mem hlt)
        simp only [hcount, if_true, Int.natCast_nonneg, Int.toNat_natCast, hget, hne, if_false]
        by_cases hpage : waitingList[i].pageidx = npage
        · -- the next waiter moves to the index
          have hlen : (waitingList.eraseIdx i).length = waitingList.length - 1 :=
            List.length_eraseIdx_of_lt hlt
          have hcount' : (waitingList.length : Int) - 1 =
              ((waitingList.eraseIdx i).length : Int) := by omega
          have hback : (i : Int) - 1 + 1 = i := by omega
          have htake : (waitingList.eraseIdx i).take i = waitingList.take i := by
            rw [List.eraseIdx_eq_take_drop_succ, List.take_left' (by rw [List.length_take]; omega)]
          have hrest : (waitingList.eraseIdx i).drop i = waitingList.drop (i + 1) := by
            rw [List.eraseIdx_eq_take_drop_succ, List.drop_left' (by rw [List.length_take]; omega)]
          have hle : i ≤ (waitingList.eraseIdx i).length := by omega
          have hnext := ih (fun w hw => hreply w (List.mem_of_mem_eraseIdx hw)) hle (by omega)
            (sent ++ [waitingList[i]])
          rw [htake, hrest] at hnext
          simp only [hpage, if_true, hcount', hback, ne_eq, not_true_eq_false, if_false, hnext]
          rw [hdrop, List.filter_cons_of_neg (by simpa using hpage),
            List.filter_cons_of_pos (by simpa using hpage), List.append_assoc,
            List.singleton_append]
        · have hnext := ih hreply (show i + 1 ≤ _ by omega) (by omega) sent
          rw [Int.natCast_add, Int.natCast_one] at hnext
          simp only [hpage, if_false, hnext]
          rw [hdrop, List.filter_cons_of_pos (by simpa using hpage),
            List.filter_cons_of_neg (by simpa using hpage), List.take_succ_eq_append_getElem hlt,
            List.append_assoc, List.singleton_append]
      · obtain rfl : i = waitingList.length := by omega
        simp

/-! ## Who is on the list -/

/-- Everybody on the list can be replied to and waits for a page that exists. -/
def Listed (dataspace : RamDspace) : Prop :=
  ∀ w ∈ dataspace.contentInitWaitingList, w.reply ≠ 0 ∧ w.pageidx < dataspace.npages

/-- Everybody on the list can be replied to and waits for a page that exists and is not provided. -/
def WaitersOk (dataspace : RamDspace) : Prop :=
  ∀ w ∈ dataspace.contentInitWaitingList,
    w.reply ≠ 0 ∧ w.pageidx < dataspace.npages ∧ dataspace.provided w.pageidx = false

theorem WaitersOk.listed {dataspace : RamDspace} (h : WaitersOk dataspace) : Listed dataspace :=
  fun w hw => ⟨(h w hw).1, (h w hw).2.1⟩

section Steps

variable {s : ContentState}

/-- Where the waiters wait for pages that exist, the function divides the list, whatever the
offset. -/
theorem replyWaiters_eq {dataspace : RamDspace} (h : Listed dataspace) (offset : Nat) {fuel : Nat}
    (hfuel : dataspace.contentInitWaitingList.length < fuel) :
    replyWaiters fuel dataspace offset =
      some (.ok
        (dataspace.contentInitWaitingList.filter (fun w => w.pageidx ≠ offset / pageSize),
          dataspace.contentInitWaitingList.filter (fun w => w.pageidx = offset / pageSize))) := by
  rw [replyWaiters]
  by_cases hpage : dataspace.npages ≤ offset / pageSize
  · -- there is no such page, and so no waiter for it
    have hother : ∀ w ∈ dataspace.contentInitWaitingList, w.pageidx ≠ offset / pageSize := by
      intro w hw
      have hlt := (h w hw).2
      omega
    rw [if_pos hpage, List.filter_eq_self.2 (by simpa using hother),
      List.filter_eq_nil_iff.2 (by simpa using hother)]
  · rw [if_neg hpage]
    exact replyLoop_eq (fun w hw => (h w hw).1) (Nat.zero_le _) hfuel []

theorem replyWaiters_model (h : Listed s.dspace) (offset : Nat) {fuel : Nat}
    (hfuel : s.dspace.contentInitWaitingList.length < fuel) :
    ∃ waiting sent, replyWaiters fuel s.dspace offset = some (.ok (waiting, sent)) ∧
      ramDspaceContentInitReplyWaiters s offset =
        { dspace := { s.dspace with contentInitWaitingList := waiting }
          replied := s.replied ++ sent } := by
  by_cases hpage : s.dspace.npages ≤ offset / pageSize
  · refine ⟨s.dspace.contentInitWaitingList, [], if_pos hpage, ?_⟩
    rw [ramDspaceContentInitReplyWaiters, if_pos hpage, List.append_nil]
  · refine ⟨_, _, replyWaiters_eq h offset hfuel, ?_⟩
    rw [ramDspaceContentInitReplyWaiters, if_neg hpage]

theorem provided_of_need {dataspace : RamDspace} {offset : Nat}
    (h : ramDspaceNeedContentInit dataspace offset = .ok (.ok true)) :
    dataspace.provided (offset / pageSize) = false := by
  rw [ramDspaceNeedContentInit] at h
  split at h
  · rename_i bitmask henabled hbitmask
    simp only at h
    split_ifs at h
    · cases Except.ok.inj h
    · simp only [RamDspace.provided, hbitmask]
      simpa using h
  · cases Except.ok.inj h

theorem ramDspaceAddContentInitWaiter_waiter {dataspace : RamDspace} {offset reply : Nat}
    {memory : Bool} {r : Err × RamDspace}
    (h : ramDspaceAddContentInitWaiter dataspace offset reply memory = .ok r) :
    r.2 = dataspace ∨ reply ≠ 0 ∧ offset / pageSize < dataspace.npages ∧
      r.2 = { dataspace with
        contentInitWaitingList := dataspace.contentInitWaitingList ++
          [{ pageidx := offset / pageSize, reply := reply }] } := by
  simp only [ramDspaceAddContentInitWaiter] at h
  split_ifs at h with hreply hsize henabled hpage hmemory
  · exact Or.inl (congrArg Prod.snd (Except.ok.inj h)).symm
  · exact Or.inl (congrArg Prod.snd (Except.ok.inj h)).symm
  · exact Or.inl (congrArg Prod.snd (Except.ok.inj h)).symm
  · exact Or.inl (congrArg Prod.snd (Except.ok.inj h)).symm
  · exact Or.inr ⟨hreply, by omega, (congrArg Prod.snd (Except.ok.inj h)).symm⟩

theorem delegateContentInit_waiter {f : DspaceFault} {r : Err × ContentState}
    (h : delegateContentInit s f = .ok r) :
    r.2 = s ∨ ∃ w : Waiter,
      r.2 = { s with dspace := { s.dspace with
        contentInitWaitingList := s.dspace.contentInitWaitingList ++ [w] } } ∧
      w.reply ≠ 0 ∧ w.pageidx = f.dspaceOffset / pageSize ∧
      f.dspaceOffset / pageSize < s.dspace.npages := by
  rw [delegateContentInit] at h
  split_ifs at h
  · exact Or.inl (congrArg Prod.snd (Except.ok.inj h)).symm
  · exact Or.inl (congrArg Prod.snd (Except.ok.inj h)).symm
  · exact Or.inl (congrArg Prod.snd (Except.ok.inj h)).symm
  · cases hsaved : f.callerReply with
    | none =>
        rw [hsaved] at h
        exact Or.inl (congrArg Prod.snd (Except.ok.inj h)).symm
    | some reply =>
        rw [hsaved] at h
        obtain ⟨⟨error, dspace⟩, hadd, h⟩ := bind_eq_ok_iff.1 h
        obtain rfl := Except.ok.inj h
        rcases ramDspaceAddContentInitWaiter_waiter hadd with hsame | ⟨hreply, hpage, hadded⟩
        · obtain rfl : dspace = s.dspace := hsame
          exact Or.inl rfl
        · obtain rfl : dspace = _ := hadded
          exact Or.inr ⟨_, rfl, hreply, rfl, hpage⟩

theorem handleVmFaultDspace_waiter {f : DspaceFault} {r : Err × ContentState}
    (h : handleVmFaultDspace s f = .ok r) :
    r.2 = s ∨ ∃ w : Waiter,
      r.2 = { s with dspace := { s.dspace with
        contentInitWaitingList := s.dspace.contentInitWaitingList ++ [w] } } ∧
      w.reply ≠ 0 ∧ w.pageidx < s.dspace.npages ∧ s.dspace.provided w.pageidx = false := by
  have hmap : (mapDspacePage s f).2 = s := by
    rw [mapDspacePage]
    split_ifs <;> rfl
  rw [handleVmFaultDspace] at h
  split_ifs at h with henabled
  · obtain rfl := Except.ok.inj h
    exact Or.inl hmap
  · obtain ⟨need, hneed, h⟩ := bind_eq_ok_iff.1 h
    rcases need with _ | need
    · obtain rfl := Except.ok.inj h
      exact Or.inl rfl
    · cases need with
      | false =>
          obtain rfl := Except.ok.inj h
          exact Or.inl hmap
      | true =>
          rcases delegateContentInit_waiter h with hsame | ⟨w, hw, hreply, hpage, hlt⟩
          · exact Or.inl hsame
          · refine Or.inr ⟨w, hw, hreply, hpage ▸ hlt, ?_⟩
            rw [hpage]
            exact provided_of_need hneed

theorem WaitersOk.fault (hok : WaitersOk s.dspace) {f : DspaceFault} {r : Err × ContentState}
    (h : handleVmFaultDspace s f = .ok r) : WaitersOk r.2.dspace := by
  rcases handleVmFaultDspace_waiter h with hsame | ⟨w, hw, hnew⟩
  · rw [hsame]
    exact hok
  · rw [hw]
    intro v hv
    rcases List.mem_append.1 hv with hold | hv
    · exact hok v hold
    · obtain rfl := List.mem_singleton.1 hv
      exact hnew

/-- Registering a content initialiser clears the list, or the bitmask is gone. -/
theorem WaitersOk.contentInit {dataspace : RamDspace} (hok : WaitersOk dataspace)
    {initEP initPID : Nat} {memory : Bool} {r : Err × RamDspace}
    (h : ramDspaceContentInit dataspace initEP initPID memory = .ok r) : WaitersOk r.2 := by
  rw [ramDspaceContentInit] at h
  by_cases hphys : dataspace.physicalAddrEnabled = true
  · rw [if_pos hphys] at h
    obtain rfl := Except.ok.inj h
    exact hok
  rw [if_neg hphys] at h
  by_cases hassert : dataspace.contentInitEnabled = true ∧ dataspace.contentInitEP = 0
  · rw [if_pos hassert] at h
    cases h
  rw [if_neg hassert] at h
  by_cases hep : initEP = 0
  · rw [if_pos hep] at h
    obtain rfl := Except.ok.inj h
    exact fun w hw => ⟨(hok w hw).1, (hok w hw).2.1, rfl⟩
  rw [if_neg hep] at h
  cases memory with
  | false =>
      obtain rfl := Except.ok.inj h
      exact fun w hw => ⟨(hok w hw).1, (hok w hw).2.1, rfl⟩
  | true =>
      obtain rfl := Except.ok.inj h
      exact fun w hw => absurd hw List.not_mem_nil

theorem WaitersOk.haveData (hok : WaitersOk s.dspace) {faultNotifyEP : Option Nat} {pid : Nat}
    {memory : Bool} {r : Err × ContentState}
    (h : dataHaveDataHandler s faultNotifyEP pid memory = .ok r) : WaitersOk r.2.dspace := by
  cases faultNotifyEP with
  | none =>
      obtain ⟨⟨error, dspace⟩, hinit, hr⟩ := bind_eq_ok_iff.1 h
      obtain rfl := Except.ok.inj hr
      exact hok.contentInit hinit
  | some ep =>
      simp only [dataHaveDataHandler] at h
      split_ifs at h with hep
      · obtain rfl := Except.ok.inj h
        exact hok
      · obtain ⟨⟨error, dspace⟩, hinit, hr⟩ := bind_eq_ok_iff.1 h
        obtain rfl := Except.ok.inj hr
        exact hok.contentInit hinit

/-- The pages that are marked are those whose waiters are replied to. -/
theorem WaitersOk.provides (hok : WaitersOk s.dspace) {offsets : List Nat} {t : ContentState}
    (h : Provides offsets s t) : WaitersOk t.dspace := by
  intro w hw
  obtain ⟨hbefore, hnot⟩ := (h.waiting w).1 hw
  obtain ⟨hreply, hpage, hclear⟩ := hok w hbefore
  refine ⟨hreply, h.npages ▸ hpage, ?_⟩
  rw [Bool.eq_false_iff, ne_eq, h.provided]
  rintro (hold | ⟨_, _, offset, hoffset, _, heq⟩)
  · rw [hclear] at hold
    cases hold
  · exact hnot ⟨hpage, offset, hoffset, heq⟩

theorem WaitersOk.provideData (hok : WaitersOk s.dspace) {paramBuffer : Option RamDspace}
    {frames : Nat → Bool} {offset contentSize : Nat} {r : Err × ContentState}
    (h : dataProvideDataHandler s paramBuffer frames offset contentSize = .ok r) :
    WaitersOk r.2.dspace := by
  rcases dataProvideDataHandler_spec h with ⟨bytes, _, _, hs⟩ | ⟨bytes, _, _, hprovides⟩
  · rw [hs]
    exact hok
  · exact WaitersOk.provides (s := { s with dspace := { s.dspace with bytes := bytes } }) hok
      hprovides

/-- The bits of the pages there are stay as they are. -/
theorem WaitersOk.expand {dataspace : RamDspace} (hok : WaitersOk dataspace) (size : Nat)
    (pages bitmask : Bool) : WaitersOk (ramDspaceExpand dataspace size pages bitmask).2 := by
  simp only [ramDspaceExpand]
  split_ifs with hless heq hpages hgrow hbitmask
  · exact hok
  · exact hok
  · exact hok
  · exact fun w hw => ⟨(hok w hw).1, (hok w hw).2.1, rfl⟩
  · intro w hw
    obtain ⟨hreply, hpage, hclear⟩ := hok w hw
    refine ⟨hreply, show w.pageidx < roundUpNpages size by omega, ?_⟩
    have hword : w.pageidx / 32 < dataspace.npages / 32 + 1 := by omega
    obtain ⟨old, hold⟩ := Option.isSome_iff_exists.1 hgrow.1
    simp only [RamDspace.provided, hold, Option.map_some, hword, if_true] at hclear ⊢
    exact hclear
  · intro w hw
    obtain ⟨hreply, hpage, hclear⟩ := hok w hw
    exact ⟨hreply, show w.pageidx < roundUpNpages size by omega, hclear⟩

theorem contentStep_waitersOk {t : ContentState} {e : ContentEvent} (hok : WaitersOk s.dspace)
    (h : contentStep s e = .ok t) : WaitersOk t.dspace := by
  cases e with
  | fault f =>
      obtain ⟨r, hcall, hreturn⟩ := bind_eq_ok_iff.1 h
      obtain rfl := Except.ok.inj hreturn
      exact hok.fault hcall
  | haveData faultNotifyEP pid memory =>
      obtain ⟨r, hcall, hreturn⟩ := bind_eq_ok_iff.1 h
      obtain rfl := Except.ok.inj hreturn
      exact hok.haveData hcall
  | unhaveData =>
      obtain ⟨r, hcall, hreturn⟩ := bind_eq_ok_iff.1 h
      obtain rfl := Except.ok.inj hreturn
      exact hok.haveData hcall
  | provideData paramBuffer frames offset contentSize =>
      obtain ⟨r, hcall, hreturn⟩ := bind_eq_ok_iff.1 h
      obtain rfl := Except.ok.inj hreturn
      exact hok.provideData hcall
  | expand size pages bitmask =>
      obtain rfl := Except.ok.inj h
      exact hok.expand size pages bitmask

end Steps

/-! ## Calls -/

/-- A dataspace on which the waiters of a page are replied to: some rounds of
`data_provide_data_from_parambuffer_handler` are over, and the page of this one may be marked. -/
def ReplyCall (s : ContentState) (dataspace : RamDspace) : Prop :=
  ∃ (bytes : Nat → UInt8) (rounds : List Nat) (t : ContentState) (offset : Nat),
    rounds.foldlM providePage { s with dspace := { s.dspace with bytes := bytes } } = .ok t ∧
    (dataspace = t.dspace ∨ ramDspaceSetContentInitProvided t.dspace offset = .ok dataspace)

theorem ReplyCall.listed {s : ContentState} {dataspace : RamDspace} (h : ReplyCall s dataspace)
    (hok : WaitersOk s.dspace) : Listed dataspace := by
  obtain ⟨bytes, rounds, t, offset, hrounds, hcall⟩ := h
  obtain ⟨t', ht', hprovides⟩ := providePages_spec rounds
    { s with dspace := { s.dspace with bytes := bytes } }
  obtain rfl := Except.ok.inj (ht'.symm.trans hrounds)
  have hlisted : Listed t'.dspace :=
    (WaitersOk.provides (s := { s with dspace := { s.dspace with bytes := bytes } }) hok
      hprovides).listed
  rcases hcall with rfl | hset
  · exact hlisted
  · obtain ⟨bitmask, hset', _⟩ := setContentInitProvided_spec t' offset
    obtain rfl := Except.ok.inj (hset'.symm.trans hset)
    exact hlisted

/-- **The waiting list.** In every run of faults and requests on a new dataspace, whatever its size:
while content initialisation is enabled, everybody waits for a page that exists and is not provided;
and a call of `ram_dspace_content_init_reply_waiters`, at any offset, ends, has replied once to
each waiter of the page, in their order, and leaves the others in their order. -/
theorem waiting_list (size : Nat) (paddr : Bool) {evs : List ContentEvent} {s : ContentState}
    (hrun : Run contentStep WordArgs (contentInit size paddr) evs s) :
    (s.dspace.contentInitEnabled = true → ∀ w ∈ s.dspace.contentInitWaitingList,
      w.pageidx < s.dspace.npages ∧ s.dspace.provided w.pageidx = false) ∧
    ∀ dataspace, ReplyCall s dataspace → ∀ offset fuel,
      dataspace.contentInitWaitingList.length < fuel →
        replyWaiters fuel dataspace offset = some (.ok
          (dataspace.contentInitWaitingList.filter (fun w => w.pageidx ≠ offset / pageSize),
            dataspace.contentInitWaitingList.filter (fun w => w.pageidx = offset / pageSize))) := by
  have hok : WaitersOk s.dspace :=
    hrun.invariant (I := fun s => WaitersOk s.dspace) (fun w hw => nomatch hw)
      fun t e u hI _ hu => contentStep_waitersOk hI hu
  exact ⟨fun _ w hw => (hok w hw).2, fun dataspace hcall offset fuel hfuel =>
    replyWaiters_eq (hcall.listed hok) offset hfuel⟩

/-- Two clients wait for a page and one for another; the page is provided. -/
theorem waiting_list_served :
    ∃ s, Run contentStep WordArgs (contentInit 8192 false)
        [.haveData (some 3) 5 true, .fault (pageFault 0 11), .fault (pageFault 1 12),
          .fault (pageFault 0 13)] s ∧
      (∀ w ∈ s.dspace.contentInitWaitingList,
        w.pageidx < s.dspace.npages ∧ s.dspace.provided w.pageidx = false) ∧
      replyWaiters 4 s.dspace 0 = some (.ok ([⟨1, 12⟩], [⟨0, 11⟩, ⟨0, 13⟩])) := by
  obtain ⟨s, hrun, henabled, hwaiting⟩ :
      ∃ s, Run contentStep WordArgs (contentInit 8192 false)
          [.haveData (some 3) 5 true, .fault (pageFault 0 11), .fault (pageFault 1 12),
            .fault (pageFault 0 13)] s ∧
        s.dspace.contentInitEnabled = true ∧
        s.dspace.contentInitWaitingList = [⟨0, 11⟩, ⟨1, 12⟩, ⟨0, 13⟩] := by
    apply Run.exists_of_exec
    decide +kernel
  obtain ⟨hwaiters, hreply⟩ := waiting_list 8192 false hrun
  refine ⟨s, hrun, hwaiters henabled, ?_⟩
  rw [hreply s.dspace ⟨s.dspace.bytes, [], s, 0, rfl, Or.inl rfl⟩ 0 4 (by rw [hwaiting]; decide),
    hwaiting]
  rfl

end PartitionSeL4.Refos
