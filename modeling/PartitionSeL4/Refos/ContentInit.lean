import PartitionSeL4.Lib.Run
import PartitionSeL4.Refos.Dataspace

/-!
# Content initialisation: who waits for a page

A dataspace may have a *content initialiser*, a process that provides its pages. A client that
faults on a page not provided yet is put on the waiting list, with its reply cap, and the content
initialiser is notified; `data_provide_data_from_parambuffer` writes the data, marks pages as
provided and replies to their waiters.

Three things lose a wakeup. Registering a content initialiser frees the waiters there are without a
reply. The pages that a call provides are counted from the size alone, from the page of the offset
on, so that data across a page boundary leaves the last page out. And where content initialisation
is off, the call succeeds and marks nothing. `content_init_iff` says that there is nothing else: the
steps of a run keep every waiter and provide every page of their data if and only if they meet
`WakesAll`, a condition on the requests and on the dataspace they meet.

The notification of the content initialiser is not part of the state here, nor is the vspace in
which a page that has been provided gets mapped.
-/

namespace PartitionSeL4.Refos

open Lib

/-! ## The dataspace -/

/-- A dataspace, and the waiters that `seL4_Send` has replied to. -/
structure ContentState where
  dspace : RamDspace
  replied : List Waiter

/-- Whether the bit of a page is set. -/
def RamDspace.provided (dataspace : RamDspace) (npage : Nat) : Bool :=
  match dataspace.contentInitBitmask with
  | some bitmask => bitmask npage
  | none => false

/-- `ram_dspace_content_init`; `memory` says whether the bitmask can be allocated. Without an
endpoint, the content initialiser is removed. -/
def ramDspaceContentInit (dataspace : RamDspace) (initEP initPID : Nat) (memory : Bool) :
    Except Failure (Err × RamDspace) :=
  if dataspace.physicalAddrEnabled then .ok (.invalid, dataspace)
  else if dataspace.contentInitEnabled ∧ dataspace.contentInitEP = 0 then .error .assertion
  else
    let dataspace :=
      { dataspace with
        contentInitBitmask := none
        contentInitEP := if dataspace.contentInitEnabled then 0 else dataspace.contentInitEP }
    if initEP = 0 then
      .ok (.success, { dataspace with contentInitEnabled := false, contentInitPID := 0 })
    else if !memory then .ok (.nomem, dataspace)
    else
      .ok (.success,
        { dataspace with
          contentInitBitmask := some fun _ => false
          contentInitWaitingList := []
          contentInitEP := initEP
          contentInitEnabled := true
          contentInitPID := initPID })

/-- `ram_dspace_need_content_init` -/
def ramDspaceNeedContentInit (dataspace : RamDspace) (offset : Nat) :
    Except Failure (Except Err Bool) :=
  match dataspace.contentInitEnabled, dataspace.contentInitBitmask with
  | true, some bitmask =>
      if ramDspaceGetSize dataspace < offset then .ok (.error .invalidParam)
      else
        let npage := offset / pageSize
        if dataspace.npages < npage then .error .assertion else .ok (.ok (!bitmask npage))
  | _, _ => .ok (.error .invalid)

/-- `ram_dspace_add_content_init_waiter` -/
def ramDspaceAddContentInitWaiter (dataspace : RamDspace) (offset reply : Nat) (memory : Bool) :
    Except Failure (Err × RamDspace) :=
  if reply = 0 then .ok (.invalidParam, dataspace)
  else if ramDspaceGetSize dataspace < offset then .ok (.invalidParam, dataspace)
  else if !dataspace.contentInitEnabled then .ok (.invalid, dataspace)
  else
    let npage := offset / pageSize
    if dataspace.npages ≤ npage then .error .assertion
    else if !memory then .ok (.nomem, dataspace)
    else
      .ok (.success,
        { dataspace with
          contentInitWaitingList :=
            dataspace.contentInitWaitingList ++ [{ pageidx := npage, reply := reply }] })

/-- `ram_dspace_content_init_reply_waiters` -/
def ramDspaceContentInitReplyWaiters (s : ContentState) (offset : Nat) : ContentState :=
  let npage := offset / pageSize
  if s.dspace.npages ≤ npage then s
  else
    let waiting := s.dspace.contentInitWaitingList
    { dspace :=
        { s.dspace with contentInitWaitingList := waiting.filter fun w => w.pageidx ≠ npage }
      replied := s.replied ++ waiting.filter fun w => w.pageidx = npage }

/-- `ram_dspace_set_content_init_provided` -/
def ramDspaceSetContentInitProvided (dataspace : RamDspace) (offset : Nat) :
    Except Failure RamDspace :=
  match dataspace.contentInitEnabled, dataspace.contentInitBitmask with
  | true, some bitmask =>
      if ramDspaceGetSize dataspace < offset then .ok dataspace
      else
        let npage := offset / pageSize
        if dataspace.npages < npage then .error .assertion
        else .ok { dataspace with contentInitBitmask := some (Function.update bitmask npage true) }
  | _, _ => .ok dataspace

/-- `ram_dspace_expand`; `pages` and `bitmask` say whether the two arrays can be reallocated. Where
the first cannot, the code loses it, and the model keeps its pages. -/
def ramDspaceExpand (dataspace : RamDspace) (size : Nat) (pages bitmask : Bool) :
    Err × RamDspace :=
  let npages := roundUpNpages size
  if npages < dataspace.npages then (.invalidParam, dataspace)
  else if npages = dataspace.npages then (.success, dataspace)
  else if !pages then (.nomem, dataspace)
  else
    let nbitmaskPrev := dataspace.npages / 32 + 1
    if dataspace.contentInitBitmask.isSome ∧ nbitmaskPrev < npages / 32 + 1 then
      if !bitmask then (.nomem, { dataspace with contentInitBitmask := none })
      else
        -- the words that the bitmask has grown by are cleared
        (.success,
          { dataspace with
            npages := npages
            contentInitBitmask := dataspace.contentInitBitmask.map fun old npage =>
              if npage / 32 < nbitmaskPrev then old npage else false })
    else (.success, { dataspace with npages := npages })

/-! ## Requests and faults -/

/-- `PROCSERV_SYSCALL_PARAM_SIZE_MAX` -/
def syscallParamSizeMax : Nat := pageSize * 8

/-- `dispatcher_read_param`: the static buffer, and the number of the next page access. -/
def dispatcherReadParam (frames : Nat → Bool) (paramBuffer : Option RamDspace) (readLen : Nat) :
    Except Failure (Option (List UInt8) × Nat) :=
  let tempBuffer (read : List UInt8) :=
    read ++ List.replicate (syscallParamSizeMax - read.length) 0
  if paramBuffer.isNone ∧ readLen ≠ 0 then .ok (none, 0)
  else if syscallParamSizeMax < readLen then .ok (none, 0)
  else
    match paramBuffer with
    | none => .ok (some (tempBuffer []), 0)
    | some param =>
        if readLen = 0 then .ok (some (tempBuffer []), 0)
        else
          match ramDspaceRead frames 0 readLen param 0 with
          | (.success, read, k) => .ok (some (tempBuffer read), k)
          | _ => .error .assertion

/-- `data_have_data_handler`. The endpoint is `none` where the client gives none
(`data_unhave_data_handler`), and `some 0` where its cap cannot be copied out. -/
def dataHaveDataHandler (s : ContentState) (faultNotifyEP : Option Nat) (pid : Nat)
    (memory : Bool) : Except Failure (Err × ContentState) :=
  match faultNotifyEP with
  | none => do
      let (error, dspace) ← ramDspaceContentInit s.dspace 0 0 memory
      return (error, { s with dspace := dspace })
  | some ep =>
      if ep = 0 then .ok (.invalidParam, s)
      else do
        let (error, dspace) ← ramDspaceContentInit s.dspace ep pid memory
        return (error, { s with dspace := dspace })

/-- One round of the loop of `data_provide_data_from_parambuffer_handler`. -/
def providePage (s : ContentState) (offset : Nat) : Except Failure ContentState := do
  let dspace ← ramDspaceSetContentInitProvided s.dspace offset
  return ramDspaceContentInitReplyWaiters { s with dspace := dspace } offset

/-- The offsets that the loop goes through. -/
def providedOffsets (offset contentSize : Nat) : List Nat :=
  (List.range (roundUpNpages contentSize)).map fun i => u32 (pageAlign offset + i * pageSize)

/-- The body of `data_provide_data_from_parambuffer_handler`, for what the parameter buffer holds
and for a function that writes to the dataspace. -/
def provideData (s : ContentState) (param : Except Failure (Option (List UInt8) × Nat))
    (write : Nat → List UInt8 → Err × RamDspace × Nat) (offset contentSize : Nat) :
    Except Failure (Err × ContentState) := do
  let (initContentBuffer, k) ← param
  match initContentBuffer with
  | none => return (.noParamBuffer, s)
  | some buf =>
      let (error, dspace, _) := write k (buf.take contentSize)
      if error ≠ .success then return (error, { s with dspace := dspace })
      else
        let s ← (providedOffsets offset contentSize).foldlM providePage { s with dspace := dspace }
        return (.success, s)

/-- `data_provide_data_from_parambuffer_handler` -/
def dataProvideDataHandler (s : ContentState) (paramBuffer : Option RamDspace)
    (frames : Nat → Bool) (offset contentSize : Nat) : Except Failure (Err × ContentState) :=
  provideData s (dispatcherReadParam frames paramBuffer contentSize)
    (fun k buf => ramDspaceWrite frames k buf s.dspace offset) offset contentSize

/-- A fault in a window on the dataspace: the address, the window, and how the calls outside end
that the handler makes. -/
structure DspaceFault where
  faultAddr : Nat
  /-- `window->ramDataspaceOffset` -/
  ramDataspaceOffset : Nat
  /-- `aw->offset` -/
  awOffset : Nat
  /-- `aw->size` -/
  awSize : Nat
  /-- Whether the content initialiser has a PCB. -/
  pager : Bool
  /-- The reply cap that `vka_cnode_saveCaller` gives, `none` where it fails. -/
  callerReply : Option Nat
  memory : Bool
  frame : Bool
  /-- What `vs_map` returns. -/
  mapped : Err

/-- `dspaceOffset` of `handle_vm_fault_dspace` -/
def DspaceFault.dspaceOffset (f : DspaceFault) : Nat :=
  u32 (f.faultAddr + f.ramDataspaceOffset + 2 ^ 32 - pageAlign f.awOffset)

/-- The end of `handle_vm_fault_dspace`: the page is mapped. -/
def mapDspacePage (s : ContentState) (f : DspaceFault) : Err × ContentState :=
  if pageAccess f.frame s.dspace f.dspaceOffset then (f.mapped, s) else (.nomem, s)

/-- The branch of `handle_vm_fault_dspace` for a page that is not provided yet. -/
def delegateContentInit (s : ContentState) (f : DspaceFault) :
    Except Failure (Err × ContentState) :=
  if u32 (f.awOffset + f.awSize) ≤ u32 (f.faultAddr + f.ramDataspaceOffset) then .ok (.invalid, s)
  else if s.dspace.contentInitPID = 0 then .error .assertion
  else if !f.pager then .ok (.invalid, s)
  else if s.dspace.contentInitEP = 0 then .ok (.invalid, s)
  else
    match f.callerReply with
    | none => .ok (.invalid, s)
    | some reply => do
        let (error, dspace) ←
          ramDspaceAddContentInitWaiter s.dspace f.dspaceOffset reply f.memory
        let s := { s with dspace := dspace }
        return (if error ≠ .success then .invalid else .delegated, s)

/-- `handle_vm_fault_dspace` -/
def handleVmFaultDspace (s : ContentState) (f : DspaceFault) :
    Except Failure (Err × ContentState) :=
  if !s.dspace.contentInitEnabled then .ok (mapDspacePage s f)
  else do
    match ← ramDspaceNeedContentInit s.dspace f.dspaceOffset with
    | .error _ => return (.invalid, s)
    | .ok false => return mapDspacePage s f
    | .ok true => delegateContentInit s f

/-! ## Runs -/

/-- What can happen to a dataspace. -/
inductive ContentEvent where
  | fault (f : DspaceFault)
  | haveData (faultNotifyEP : Option Nat) (pid : Nat) (memory : Bool)
  | unhaveData
  | provideData (paramBuffer : Option RamDspace) (frames : Nat → Bool) (offset contentSize : Nat)
  | expand (size : Nat) (pages bitmask : Bool)

/-- The state after an event. -/
def contentStep (s : ContentState) : ContentEvent → Except Failure ContentState
  | .fault f => do return (← handleVmFaultDspace s f).2
  | .haveData faultNotifyEP pid memory => do
      return (← dataHaveDataHandler s faultNotifyEP pid memory).2
  | .unhaveData => do return (← dataHaveDataHandler s none 0 true).2
  | .provideData paramBuffer frames offset contentSize => do
      return (← dataProvideDataHandler s paramBuffer frames offset contentSize).2
  | .expand size pages bitmask =>
      .ok { s with dspace := (ramDspaceExpand s.dspace size pages bitmask).2 }

/-- The offsets and sizes of requests are 32-bit words. -/
def WordArgs (_ : ContentState) : ContentEvent → Prop
  | .provideData _ _ offset contentSize => offset < 2 ^ 32 ∧ contentSize < 2 ^ 32
  | .expand size _ _ => size < 2 ^ 32
  | _ => True

/-- A new dataspace, for a device or not. -/
def contentInit (size : Nat) (paddr : Bool) : ContentState where
  dspace := { ramDspaceOatCreate size with physicalAddrEnabled := paddr }
  replied := []

/-! ## The property and the condition -/

/-- The page has a byte of the data. -/
def Meets (npage offset contentSize : Nat) : Prop :=
  ∃ b, offset ≤ b ∧ b < offset + contentSize ∧ b / pageSize = npage

/-- No waiter leaves the list without a reply. -/
def KeepsWaiters (s s' : ContentState) : Prop :=
  ∀ w, s.dspace.contentInitWaitingList.count w + s.replied.count w ≤
    s'.dspace.contentInitWaitingList.count w + s'.replied.count w

/-- A page is provided and nobody waits for it. -/
def Settled (s : ContentState) (npage : Nat) : Prop :=
  s.dspace.provided npage = true ∧ ∀ w ∈ s.dspace.contentInitWaitingList, w.pageidx ≠ npage

/-- No wakeup is lost in a step: waiters leave with a reply only, and when data has been provided,
all its pages are settled. -/
def NoLostWakeup (s : ContentState) (e : ContentEvent) (s' : ContentState) : Prop :=
  KeepsWaiters s s' ∧
    match e with
    | .provideData paramBuffer frames offset contentSize =>
        dataProvideDataHandler s paramBuffer frames offset contentSize = .ok (.success, s') →
          ∀ npage, npage < s'.dspace.npages → Meets npage offset contentSize → Settled s' npage
    | _ => True

/-- The page is one of the first pages from the offset's on, as many as the size fills. -/
def Counted (npage offset contentSize : Nat) : Prop :=
  npage < offset / pageSize + roundUpNpages contentSize

/-- Content initialisation is on, and covers the page. -/
def CanMark (dataspace : RamDspace) (npage : Nat) : Prop :=
  dataspace.contentInitEnabled = true ∧ dataspace.contentInitBitmask.isSome = true ∧
    npage * pageSize ≤ ramDspaceGetSize dataspace

/-- The parameter buffer can be read and the data written. -/
def DataWritten (dataspace : RamDspace) (paramBuffer : Option RamDspace) (frames : Nat → Bool)
    (offset contentSize : Nat) : Prop :=
  ∃ buf k dspace k', dispatcherReadParam frames paramBuffer contentSize = .ok (some buf, k) ∧
    ramDspaceWrite frames k (buf.take contentSize) dataspace offset = (.success, dspace, k')

/-- When a step loses no wakeup. A content initialiser is only registered while nobody waits (or
the registration is refused), and every page of the data that is written can be marked and is
counted, as far as it is not provided before and has waiters. -/
def WakesAll (s : ContentState) : ContentEvent → Prop
  | .haveData (some ep) _ memory =>
      ep ≠ 0 → memory = true → s.dspace.physicalAddrEnabled = false →
        s.dspace.contentInitWaitingList = []
  | .provideData paramBuffer frames offset contentSize =>
      DataWritten s.dspace paramBuffer frames offset contentSize →
        ∀ npage, npage < s.dspace.npages → Meets npage offset contentSize →
          (s.dspace.provided npage = true ∨
            CanMark s.dspace npage ∧ Counted npage offset contentSize) ∧
          ((∀ w ∈ s.dspace.contentInitWaitingList, w.pageidx ≠ npage) ∨
            Counted npage offset contentSize)
  | _ => True

/-! ## Providing pages -/

theorem writeChunks_frame {frames : Nat → Bool} {chunks : List (Nat × Nat)} {k k' : Nat}
    {buf : List UInt8} {dataspace dspace : RamDspace} {error : Err}
    (h : writeChunks frames chunks k buf dataspace = (error, dspace, k')) :
    ∃ bytes, dspace = { dataspace with bytes := bytes } := by
  induction chunks generalizing k buf dataspace with
  | nil =>
      obtain ⟨_, rfl, _⟩ := h
      exact ⟨_, rfl⟩
  | cons chunk chunks ih =>
      obtain ⟨start, n⟩ := chunk
      rw [writeChunks, ramDspaceWritePage] at h
      by_cases haccess : pageAccess (frames k) dataspace start
      · simp only [haccess, if_true] at h
        obtain ⟨bytes, rfl⟩ := ih h
        exact ⟨bytes, rfl⟩
      · simp only [haccess, if_false, Bool.false_eq_true] at h
        obtain ⟨_, rfl, _⟩ := h
        exact ⟨_, rfl⟩

theorem ramDspaceWrite_frame {frames : Nat → Bool} {k k' : Nat} {buf : List UInt8}
    {dataspace dspace : RamDspace} {offset : Nat} {error : Err}
    (h : ramDspaceWrite frames k buf dataspace offset = (error, dspace, k')) :
    ∃ bytes, dspace = { dataspace with bytes := bytes } := by
  rw [ramDspaceWrite] at h
  split_ifs at h
  · obtain ⟨_, rfl, _⟩ := h
    exact ⟨_, rfl⟩
  · exact writeChunks_frame h

/-- The waiters of a page and the others are all there are. -/
theorem count_filter_add (l : List Waiter) (npage : Nat) (w : Waiter) :
    (l.filter fun v => v.pageidx ≠ npage).count w + (l.filter fun v => v.pageidx = npage).count w =
      l.count w := by
  by_cases h : w.pageidx = npage
  · have hothers : (l.filter fun v => v.pageidx ≠ npage).count w = 0 :=
      List.count_eq_zero.2 (by simp [h])
    rw [hothers, List.count_filter (by simpa using h), Nat.zero_add]
  · have hpage : (l.filter fun v => v.pageidx = npage).count w = 0 :=
      List.count_eq_zero.2 (by simp [h])
    rw [hpage, List.count_filter (by simpa using h), Nat.add_zero]

/-- What the loop over some offsets does. -/
structure Provides (offsets : List Nat) (s s' : ContentState) : Prop where
  npages : s'.dspace.npages = s.dspace.npages
  enabled : s'.dspace.contentInitEnabled = s.dspace.contentInitEnabled
  bitmask : s'.dspace.contentInitBitmask.isSome = s.dspace.contentInitBitmask.isSome
  provided : ∀ npage, s'.dspace.provided npage = true ↔ s.dspace.provided npage = true ∨
    s.dspace.contentInitEnabled = true ∧ s.dspace.contentInitBitmask.isSome = true ∧
      ∃ offset ∈ offsets, offset ≤ ramDspaceGetSize s.dspace ∧ offset / pageSize = npage
  waiting : ∀ w, w ∈ s'.dspace.contentInitWaitingList ↔ w ∈ s.dspace.contentInitWaitingList ∧
    ¬(w.pageidx < s.dspace.npages ∧ ∃ offset ∈ offsets, offset / pageSize = w.pageidx)
  count : ∀ w, s'.dspace.contentInitWaitingList.count w + s'.replied.count w =
    s.dspace.contentInitWaitingList.count w + s.replied.count w

theorem Provides.refl (s : ContentState) : Provides [] s s where
  npages := rfl
  enabled := rfl
  bitmask := rfl
  provided _ := by simp
  waiting _ := by simp
  count _ := rfl

theorem Provides.trans {offsets offsets' : List Nat} {s t u : ContentState}
    (h : Provides offsets s t) (h' : Provides offsets' t u) :
    Provides (offsets ++ offsets') s u where
  npages := h'.npages.trans h.npages
  enabled := h'.enabled.trans h.enabled
  bitmask := h'.bitmask.trans h.bitmask
  provided npage := by
    rw [h'.provided, h.provided, h.enabled, h.bitmask, ramDspaceGetSize, ramDspaceGetSize, h.npages]
    simp only [List.mem_append, or_and_right, exists_or, and_or_left, or_assoc]
  waiting w := by
    rw [h'.waiting, h.waiting, h.npages]
    simp only [List.mem_append, or_and_right, exists_or, and_or_left, not_or, and_assoc]
  count w := (h'.count w).trans (h.count w)

/-- The check behind the assertion has been made before. -/
theorem page_le_npages {dataspace : RamDspace} {offset : Nat}
    (h : offset ≤ ramDspaceGetSize dataspace) : offset / pageSize ≤ dataspace.npages := by
  have hsize : ramDspaceGetSize dataspace ≤ dataspace.npages * pageSize := Nat.mod_le _ _
  exact Nat.div_le_of_le_mul (by rw [Nat.mul_comm]; omega)

theorem setContentInitProvided_spec (s : ContentState) (offset : Nat) :
    ∃ bitmask, ramDspaceSetContentInitProvided s.dspace offset =
        .ok { s.dspace with contentInitBitmask := bitmask } ∧
      bitmask.isSome = s.dspace.contentInitBitmask.isSome ∧
      ∀ npage, RamDspace.provided { s.dspace with contentInitBitmask := bitmask } npage = true ↔
        s.dspace.provided npage = true ∨
          s.dspace.contentInitEnabled = true ∧ s.dspace.contentInitBitmask.isSome = true ∧
            offset ≤ ramDspaceGetSize s.dspace ∧ offset / pageSize = npage := by
  unfold ramDspaceSetContentInitProvided
  split
  · rename_i bitmask henabled hbitmask
    by_cases hsize : ramDspaceGetSize s.dspace < offset
    · refine ⟨s.dspace.contentInitBitmask, ?_, rfl, ?_⟩
      · rw [if_pos hsize]
      · intro npage
        simp [Nat.not_le.2 hsize]
    · have hpage := page_le_npages (Nat.le_of_not_lt hsize)
      refine ⟨some (Function.update bitmask (offset / pageSize) true), ?_, ?_, ?_⟩
      · rw [if_neg hsize, if_neg (Nat.not_lt.2 hpage)]
      · rw [hbitmask]
        rfl
      · intro npage
        simp only [RamDspace.provided, hbitmask, henabled, Function.update_apply,
          Nat.le_of_not_lt hsize, Option.isSome_some, true_and]
        by_cases heq : npage = offset / pageSize
        · simp [heq]
        · simp [heq, Ne.symm heq]
  · rename_i hnot
    refine ⟨s.dspace.contentInitBitmask, rfl, rfl, ?_⟩
    intro npage
    cases henabled : s.dspace.contentInitEnabled with
    | false => simp
    | true =>
        cases hbitmask : s.dspace.contentInitBitmask with
        | none => simp [RamDspace.provided, hbitmask]
        | some bitmask => exact absurd hbitmask (hnot bitmask henabled)

theorem providePage_spec (s : ContentState) (offset : Nat) :
    ∃ s', providePage s offset = .ok s' ∧ Provides [offset] s s' := by
  obtain ⟨bitmask, hset, hsome, hprovided⟩ := setContentInitProvided_spec s offset
  rw [providePage, hset]
  refine ⟨_, rfl, ?_⟩
  simp only [ramDspaceContentInitReplyWaiters]
  by_cases hpage : s.dspace.npages ≤ offset / pageSize
  · rw [if_pos hpage]
    refine ⟨rfl, rfl, hsome, ?_, ?_, fun w => rfl⟩
    · intro npage
      simp only [List.mem_singleton, exists_eq_left]
      exact hprovided npage
    · intro w
      simp only [List.mem_singleton, exists_eq_left]
      constructor
      · intro hw
        exact ⟨hw, fun h => by omega⟩
      · exact And.left
  · rw [if_neg hpage]
    refine ⟨rfl, rfl, hsome, ?_, ?_, ?_⟩
    · intro npage
      simp only [List.mem_singleton, exists_eq_left]
      exact hprovided npage
    · intro w
      simp only [List.mem_filter, List.mem_singleton, exists_eq_left, decide_eq_true_eq]
      constructor
      · rintro ⟨hw, hne⟩
        exact ⟨hw, fun h => hne h.2.symm⟩
      · rintro ⟨hw, hne⟩
        exact ⟨hw, fun heq => hne ⟨by omega, heq.symm⟩⟩
    · intro w
      have hsplit := count_filter_add s.dspace.contentInitWaitingList (offset / pageSize) w
      simp only [List.count_append]
      omega

theorem providePages_spec (offsets : List Nat) (s : ContentState) :
    ∃ s', offsets.foldlM providePage s = .ok s' ∧ Provides offsets s s' := by
  induction offsets generalizing s with
  | nil => exact ⟨s, rfl, .refl s⟩
  | cons offset offsets ih =>
      obtain ⟨t, ht, hfirst⟩ := providePage_spec s offset
      obtain ⟨u, hu, hrest⟩ := ih t
      refine ⟨u, ?_, hfirst.trans hrest⟩
      rw [List.foldlM_cons, ht]
      exact hu

theorem roundUpNpages_le {size : Nat} (h : size < 2 ^ 32) : roundUpNpages size ≤ 2 ^ 20 := by
  rw [roundUpNpages]
  split_ifs with hmod <;> simp only [pageSize] at hmod ⊢ <;> omega

/-- The loop reaches a page of the data if and only if it is counted. A page of the data is not
behind the end of the 32 bits, so no offset that wraps around can reach it. -/
theorem mem_providedOffsets_iff {npage offset contentSize : Nat} (hpage : npage < 2 ^ 20)
    (hsize : contentSize < 2 ^ 32) (hmeets : Meets npage offset contentSize) :
    (∃ o ∈ providedOffsets offset contentSize, o / pageSize = npage) ↔
      Counted npage offset contentSize := by
  obtain ⟨b, hlo, hhi, hb⟩ := hmeets
  have hge : offset / pageSize ≤ npage := hb ▸ Nat.div_le_div_right hlo
  have hn := roundUpNpages_le hsize
  simp only [providedOffsets, List.mem_map, List.mem_range, exists_exists_and_eq_and, Counted]
  constructor
  · rintro ⟨i, hi, heq⟩
    simp only [u32, pageAlign, pageSize] at heq hge ⊢
    omega
  · intro hlt
    refine ⟨npage - offset / pageSize, by omega, ?_⟩
    simp only [u32, pageAlign, pageSize] at hge ⊢
    omega

theorem providedOffsets_aligned {o offset contentSize : Nat}
    (h : o ∈ providedOffsets offset contentSize) : o / pageSize * pageSize = o := by
  obtain ⟨i, _, rfl⟩ := List.mem_map.1 h
  simp only [u32, pageAlign, pageSize]
  omega

/-! ## Single steps -/

/-- What providing data does: the data is not written and nothing happens to the waiters, or it is,
and the loop goes through its offsets. -/
theorem provideData_spec {s : ContentState} {param : Except Failure (Option (List UInt8) × Nat)}
    {write : Nat → List UInt8 → Err × RamDspace × Nat} {offset contentSize : Nat}
    {r : Err × ContentState}
    (hwrite : ∀ k buf error dspace k', write k buf = (error, dspace, k') →
      ∃ bytes, dspace = { s.dspace with bytes := bytes })
    (h : provideData s param write offset contentSize = .ok r) :
    let written := ∃ buf k dspace k', param = .ok (some buf, k) ∧
      write k (buf.take contentSize) = (.success, dspace, k')
    (∃ bytes, r.1 ≠ .success ∧ ¬written ∧
      r.2 = { s with dspace := { s.dspace with bytes := bytes } }) ∨
    ∃ bytes, r.1 = .success ∧ written ∧
      Provides (providedOffsets offset contentSize)
        { s with dspace := { s.dspace with bytes := bytes } } r.2 := by
  rw [provideData] at h
  replace h := bind_eq_ok_iff.1 h
  obtain ⟨⟨buf, k⟩, rfl, h⟩ := h
  cases buf with
  | none =>
      obtain rfl := Except.ok.inj h
      exact Or.inl ⟨s.dspace.bytes, by simp, by simp, rfl⟩
  | some buf =>
      rcases hcall : write k (buf.take contentSize) with ⟨error, dspace, k'⟩
      obtain ⟨bytes, rfl⟩ := hwrite _ _ _ _ _ hcall
      by_cases herror : error = .success
      · obtain ⟨s', hs', hprovides⟩ := providePages_spec (providedOffsets offset contentSize)
          { s with dspace := { s.dspace with bytes := bytes } }
        simp only [hcall, herror, ne_eq, not_true_eq_false, if_false, hs'] at h
        obtain rfl := Except.ok.inj h
        exact Or.inr ⟨bytes, rfl, ⟨buf, k, _, k', rfl, by rw [hcall, herror]⟩, hprovides⟩
      · simp only [hcall, herror, ne_eq, not_false_eq_true, if_true] at h
        obtain rfl := Except.ok.inj h
        refine Or.inl ⟨bytes, herror, ?_, rfl⟩
        rintro ⟨buf', k₁, dspace, k₂, hparam, hok⟩
        cases hparam
        rw [hcall] at hok
        exact herror (congrArg Prod.fst hok)

theorem dataProvideDataHandler_spec {s : ContentState} {paramBuffer : Option RamDspace}
    {frames : Nat → Bool} {offset contentSize : Nat} {r : Err × ContentState}
    (h : dataProvideDataHandler s paramBuffer frames offset contentSize = .ok r) :
    (∃ bytes, r.1 ≠ .success ∧ ¬DataWritten s.dspace paramBuffer frames offset contentSize ∧
      r.2 = { s with dspace := { s.dspace with bytes := bytes } }) ∨
    ∃ bytes, r.1 = .success ∧ DataWritten s.dspace paramBuffer frames offset contentSize ∧
      Provides (providedOffsets offset contentSize)
        { s with dspace := { s.dspace with bytes := bytes } } r.2 := by
  rw [dataProvideDataHandler] at h
  exact provideData_spec (fun _ _ _ _ _ hwrite => ramDspaceWrite_frame hwrite) h

/-- The pages of the data that the loop settles. -/
theorem Provides.settled_iff {s s' : ContentState} {bytes : Nat → UInt8}
    {npage offset contentSize : Nat}
    (h : Provides (providedOffsets offset contentSize)
      { s with dspace := { s.dspace with bytes := bytes } } s')
    (hnpages : s.dspace.npages ≤ 2 ^ 20) (hsize : contentSize < 2 ^ 32)
    (hpage : npage < s.dspace.npages) (hmeets : Meets npage offset contentSize) :
    Settled s' npage ↔
      (s.dspace.provided npage = true ∨
        CanMark s.dspace npage ∧ Counted npage offset contentSize) ∧
      ((∀ w ∈ s.dspace.contentInitWaitingList, w.pageidx ≠ npage) ∨
        Counted npage offset contentSize) := by
  have hreach := mem_providedOffsets_iff (by omega) hsize hmeets
  refine and_congr ?_ ?_
  · rw [h.provided]
    refine or_congr Iff.rfl ?_
    constructor
    · rintro ⟨henabled, hbitmask, o, ho, hle, heq⟩
      refine ⟨⟨henabled, hbitmask, ?_⟩, hreach.1 ⟨o, ho, heq⟩⟩
      have hstart : npage * pageSize ≤ o := heq ▸ Nat.div_mul_le_self o pageSize
      exact Nat.le_trans hstart hle
    · rintro ⟨⟨henabled, hbitmask, hin⟩, hcounted⟩
      obtain ⟨o, ho, heq⟩ := hreach.2 hcounted
      refine ⟨henabled, hbitmask, o, ho, ?_, heq⟩
      rw [← providedOffsets_aligned ho, heq]
      exact hin
  · constructor
    · intro hgone
      by_cases hcounted : Counted npage offset contentSize
      · exact Or.inr hcounted
      · refine Or.inl fun w hw heq => hgone w ((h.waiting w).2 ⟨hw, ?_⟩) heq
        rintro ⟨_, hmem⟩
        rw [heq] at hmem
        exact hcounted (hreach.1 hmem)
    · intro hor w hw heq
      obtain ⟨hbefore, hnot⟩ := (h.waiting w).1 hw
      rcases hor with hnone | hcounted
      · exact hnone w hbefore heq
      · rw [heq] at hnot
        exact hnot ⟨hpage, hreach.2 hcounted⟩

/-- Providing data loses no wakeup if and only if the pages of the data can be marked and are
counted. -/
theorem provideData_noLostWakeup_iff {s s' : ContentState} {paramBuffer : Option RamDspace}
    {frames : Nat → Bool} {offset contentSize : Nat} (hnpages : s.dspace.npages ≤ 2 ^ 20)
    (hsize : contentSize < 2 ^ 32)
    (h : contentStep s (.provideData paramBuffer frames offset contentSize) = .ok s') :
    NoLostWakeup s (.provideData paramBuffer frames offset contentSize) s' ↔
      WakesAll s (.provideData paramBuffer frames offset contentSize) := by
  rw [contentStep] at h
  obtain ⟨⟨error, s₁⟩, hcall, hreturn⟩ := bind_eq_ok_iff.1 h
  obtain rfl : s₁ = s' := Except.ok.inj hreturn
  rw [NoLostWakeup, WakesAll, hcall]
  rcases dataProvideDataHandler_spec hcall with
    ⟨bytes, herror, hnot, hs⟩ | ⟨bytes, herror, hwritten, hprovides⟩
  · constructor
    · exact fun _ hwritten => absurd hwritten hnot
    · refine fun _ => ⟨fun w => ?_, fun hok => ?_⟩
      · exact Nat.le_of_eq (by rw [show s₁ = _ from hs])
      · exact absurd (congrArg Prod.fst (Except.ok.inj hok)) herror
  · obtain rfl : error = .success := herror
    have hkeeps : KeepsWaiters s s₁ := fun w => Nat.le_of_eq (hprovides.count w).symm
    have hnpages' : s₁.dspace.npages = s.dspace.npages := hprovides.npages
    constructor
    · rintro ⟨_, hsettled⟩ _ npage hpage hmeets
      exact (hprovides.settled_iff hnpages hsize hpage hmeets).1
        (hsettled rfl npage (by rwa [hnpages']) hmeets)
    · refine fun hcond => ⟨hkeeps, fun _ npage hpage hmeets => ?_⟩
      rw [hnpages'] at hpage
      exact (hprovides.settled_iff hnpages hsize hpage hmeets).2 (hcond hwritten npage hpage hmeets)

theorem dataHaveDataHandler_spec {s : ContentState} {faultNotifyEP : Option Nat} {pid : Nat}
    {memory : Bool} {r : Err × ContentState}
    (h : dataHaveDataHandler s faultNotifyEP pid memory = .ok r) :
    r.2.dspace.npages = s.dspace.npages ∧
      (KeepsWaiters s r.2 ↔ WakesAll s (.haveData faultNotifyEP pid memory)) := by
  cases faultNotifyEP with
  | none =>
      obtain ⟨⟨error, dspace⟩, hinit, hr⟩ := bind_eq_ok_iff.1 h
      obtain rfl := Except.ok.inj hr
      simp only [ramDspaceContentInit, if_true] at hinit
      split_ifs at hinit <;> obtain ⟨rfl, rfl⟩ := hinit <;>
        exact ⟨rfl, fun _ => trivial, fun _ w => Nat.le_refl _⟩
  | some ep =>
      simp only [dataHaveDataHandler] at h
      split_ifs at h with hep
      · obtain rfl := Except.ok.inj h
        exact ⟨rfl, fun _ hne => absurd hep hne, fun _ w => Nat.le_refl _⟩
      · obtain ⟨⟨error, dspace⟩, hinit, hr⟩ := bind_eq_ok_iff.1 h
        obtain rfl := Except.ok.inj hr
        simp only [ramDspaceContentInit, hep, if_false] at hinit
        by_cases hpaddr : s.dspace.physicalAddrEnabled = true
        · rw [if_pos hpaddr] at hinit
          obtain ⟨rfl, rfl⟩ := hinit
          refine ⟨rfl, fun _ _ _ hnot => ?_, fun _ w => Nat.le_refl _⟩
          rw [hpaddr] at hnot
          cases hnot
        rw [if_neg hpaddr] at hinit
        by_cases hassert : s.dspace.contentInitEnabled = true ∧ s.dspace.contentInitEP = 0
        · rw [if_pos hassert] at hinit
          cases hinit
        rw [if_neg hassert] at hinit
        cases memory with
        | false =>
            obtain ⟨rfl, rfl⟩ := hinit
            refine ⟨rfl, fun _ _ hyes => ?_, fun _ w => Nat.le_refl _⟩
            cases hyes
        | true =>
            -- the waiting list is cleared
            obtain ⟨rfl, rfl⟩ := hinit
            refine ⟨rfl, fun hkeeps _ _ _ => ?_, fun hnone w => ?_⟩
            · refine List.eq_nil_iff_forall_not_mem.2 fun w hw => ?_
              have hcount := hkeeps w
              have hpos := List.count_pos_iff.2 hw
              simp only [List.count_nil] at hcount
              omega
            · exact Nat.le_of_eq (by rw [hnone hep rfl (by simpa using hpaddr)])

theorem ramDspaceAddContentInitWaiter_spec {dataspace : RamDspace} {offset reply : Nat}
    {memory : Bool} {r : Err × RamDspace}
    (h : ramDspaceAddContentInitWaiter dataspace offset reply memory = .ok r) :
    ∃ added, r.2 = { dataspace with
      contentInitWaitingList := dataspace.contentInitWaitingList ++ added } := by
  simp only [ramDspaceAddContentInitWaiter] at h
  split_ifs at h <;> obtain rfl := Except.ok.inj h
  · exact ⟨[], by simp⟩
  · exact ⟨[], by simp⟩
  · exact ⟨[], by simp⟩
  · exact ⟨[], by simp⟩
  · exact ⟨_, rfl⟩

/-- What a fault may do: put waiters on the list. -/
def AddsWaiters (s s' : ContentState) : Prop :=
  ∃ added, s' = { s with dspace := { s.dspace with
    contentInitWaitingList := s.dspace.contentInitWaitingList ++ added } }

theorem AddsWaiters.refl (s : ContentState) : AddsWaiters s s := ⟨[], by simp⟩

theorem delegateContentInit_spec {s : ContentState} {f : DspaceFault} {r : Err × ContentState}
    (h : delegateContentInit s f = .ok r) : AddsWaiters s r.2 := by
  rw [delegateContentInit] at h
  split_ifs at h
  · obtain rfl := Except.ok.inj h
    exact .refl s
  · obtain rfl := Except.ok.inj h
    exact .refl s
  · obtain rfl := Except.ok.inj h
    exact .refl s
  · cases hreply : f.callerReply with
    | none =>
        rw [hreply] at h
        obtain rfl := Except.ok.inj h
        exact .refl s
    | some reply =>
        rw [hreply] at h
        obtain ⟨⟨error, dspace⟩, hadd, h⟩ := bind_eq_ok_iff.1 h
        obtain ⟨added, rfl⟩ : ∃ added, dspace = _ := ramDspaceAddContentInitWaiter_spec hadd
        obtain rfl := Except.ok.inj h
        exact ⟨added, rfl⟩

theorem handleVmFaultDspace_spec {s : ContentState} {f : DspaceFault} {r : Err × ContentState}
    (h : handleVmFaultDspace s f = .ok r) : AddsWaiters s r.2 := by
  have hmap : (mapDspacePage s f).2 = s := by
    rw [mapDspacePage]
    split_ifs <;> rfl
  rw [handleVmFaultDspace] at h
  split_ifs at h with henabled
  · obtain rfl := Except.ok.inj h
    rw [hmap]
    exact .refl s
  · obtain ⟨need, _, h⟩ := bind_eq_ok_iff.1 h
    rcases need with _ | need
    · obtain rfl := Except.ok.inj h
      exact .refl s
    · cases need with
      | false =>
          obtain rfl := Except.ok.inj h
          rw [hmap]
          exact .refl s
      | true => exact delegateContentInit_spec h

theorem ramDspaceExpand_spec (s : ContentState) {size : Nat} (hsize : size < 2 ^ 32)
    (hnpages : s.dspace.npages ≤ 2 ^ 20) (pages bitmask : Bool) :
    (ramDspaceExpand s.dspace size pages bitmask).2.npages ≤ 2 ^ 20 ∧
      (ramDspaceExpand s.dspace size pages bitmask).2.contentInitWaitingList =
        s.dspace.contentInitWaitingList := by
  have hround := roundUpNpages_le hsize
  simp only [ramDspaceExpand]
  split_ifs <;> exact ⟨by first | exact hnpages | exact hround, rfl⟩

/-! ## Whole runs -/

/-- A step loses no wakeup if and only if it meets the condition; the number of pages stays in 20
bits. -/
theorem contentStep_spec {s s' : ContentState} {e : ContentEvent}
    (hnpages : s.dspace.npages ≤ 2 ^ 20) (hargs : WordArgs s e) (h : contentStep s e = .ok s') :
    s'.dspace.npages ≤ 2 ^ 20 ∧ (NoLostWakeup s e s' ↔ WakesAll s e) := by
  cases e with
  | fault f =>
      obtain ⟨⟨error, s₁⟩, hcall, hreturn⟩ := bind_eq_ok_iff.1 h
      obtain rfl : s₁ = s' := Except.ok.inj hreturn
      obtain ⟨added, rfl⟩ : AddsWaiters s s₁ := handleVmFaultDspace_spec hcall
      refine ⟨hnpages, fun _ => trivial, fun _ => ⟨fun w => ?_, trivial⟩⟩
      simp only [List.count_append]
      omega
  | haveData faultNotifyEP pid memory =>
      obtain ⟨⟨error, s₁⟩, hcall, hreturn⟩ := bind_eq_ok_iff.1 h
      obtain rfl : s₁ = s' := Except.ok.inj hreturn
      obtain ⟨hpages, hiff⟩ := dataHaveDataHandler_spec hcall
      refine ⟨Nat.le_trans (Nat.le_of_eq hpages) hnpages, ?_⟩
      rw [← hiff]
      exact and_iff_left trivial
  | unhaveData =>
      obtain ⟨⟨error, s₁⟩, hcall, hreturn⟩ := bind_eq_ok_iff.1 h
      obtain rfl : s₁ = s' := Except.ok.inj hreturn
      obtain ⟨hpages, hiff⟩ := dataHaveDataHandler_spec hcall
      exact ⟨Nat.le_trans (Nat.le_of_eq hpages) hnpages, fun _ => trivial,
        fun _ => ⟨hiff.2 trivial, trivial⟩⟩
  | provideData paramBuffer frames offset contentSize =>
      refine ⟨?_, provideData_noLostWakeup_iff hnpages hargs.2 h⟩
      rw [contentStep] at h
      obtain ⟨⟨error, s₁⟩, hcall, hreturn⟩ := bind_eq_ok_iff.1 h
      obtain rfl : s₁ = s' := Except.ok.inj hreturn
      rcases dataProvideDataHandler_spec hcall with ⟨bytes, _, _, hs⟩ | ⟨bytes, _, _, hprovides⟩
      · rw [show s₁ = _ from hs]
        exact hnpages
      · exact Nat.le_trans (Nat.le_of_eq hprovides.npages) hnpages
  | expand size pages bitmask =>
      obtain rfl := Except.ok.inj h
      obtain ⟨hpages, hwaiting⟩ := ramDspaceExpand_spec s hargs hnpages pages bitmask
      refine ⟨hpages, fun _ => trivial, fun _ => ⟨fun w => ?_, trivial⟩⟩
      simp only [hwaiting]
      exact Nat.le_refl _

/-- **No lost wakeup.** In every run of faults and requests on a new dataspace, whatever its size,
every step keeps the waiters it does not reply to and settles the pages of the data it provides if
and only if every step meets the condition. -/
theorem content_init_iff {size : Nat} (hsize : size < 2 ^ 32) (paddr : Bool)
    {evs : List ContentEvent} {s : ContentState}
    (hrun : Run contentStep WordArgs (contentInit size paddr) evs s) :
    Steps contentStep NoLostWakeup evs (contentInit size paddr) ↔
      Steps contentStep (fun s e _ => WakesAll s e) evs (contentInit size paddr) := by
  refine hrun.steps_congr (I := fun s => s.dspace.npages ≤ 2 ^ 20) (roundUpNpages_le hsize) ?_ ?_
  · exact fun t e u hI hargs hu _ => (contentStep_spec hI hargs hu).1
  · exact fun t e u hI hargs hu => (contentStep_spec hI hargs hu).2

/-- A simple case of the condition: data is provided from the start of a page on, while content
initialisation is on. -/
def ProvidesFromPage (s : ContentState) : ContentEvent → Prop
  | .haveData _ _ _ => s.dspace.contentInitWaitingList = []
  | .provideData _ _ offset _ =>
      s.dspace.contentInitEnabled = true ∧ s.dspace.contentInitBitmask.isSome = true ∧
        s.dspace.npages < 2 ^ 20 ∧ offset % pageSize = 0
  | _ => True

theorem wakesAll_of_providesFromPage {s : ContentState} {e : ContentEvent}
    (h : ProvidesFromPage s e) : WakesAll s e := by
  cases e with
  | haveData faultNotifyEP pid memory =>
      cases faultNotifyEP with
      | none => trivial
      | some ep => exact fun _ _ _ => h
  | provideData paramBuffer frames offset contentSize =>
      obtain ⟨henabled, hbitmask, hnpages, hstart⟩ := h
      rintro _ npage hpage ⟨b, hlo, hhi, hb⟩
      have hcounted : Counted npage offset contentSize := by
        simp only [Counted, roundUpNpages]
        split_ifs with hmod <;> simp only [pageSize] at * <;> omega
      have hsize : ramDspaceGetSize s.dspace = s.dspace.npages * pageSize :=
        u32_of_lt (by simp only [pageSize]; omega)
      refine ⟨Or.inr ⟨⟨henabled, hbitmask, ?_⟩, hcounted⟩, Or.inr hcounted⟩
      rw [hsize]
      exact Nat.mul_le_mul_right pageSize (Nat.le_of_lt hpage)
  | fault f => trivial
  | unhaveData => trivial
  | expand size pages bitmask => trivial

instance (s : ContentState) (e : ContentEvent) : Decidable (WordArgs s e) :=
  match e with
  | .provideData _ _ offset contentSize =>
      inferInstanceAs (Decidable (offset < 2 ^ 32 ∧ contentSize < 2 ^ 32))
  | .expand size _ _ => inferInstanceAs (Decidable (size < 2 ^ 32))
  | .fault _ => isTrue trivial
  | .haveData _ _ _ => isTrue trivial
  | .unhaveData => isTrue trivial

instance (s : ContentState) (e : ContentEvent) : Decidable (ProvidesFromPage s e) :=
  match e with
  | .haveData _ _ _ => inferInstanceAs (Decidable (s.dspace.contentInitWaitingList = []))
  | .provideData _ _ offset _ =>
      inferInstanceAs (Decidable (s.dspace.contentInitEnabled = true ∧
        s.dspace.contentInitBitmask.isSome = true ∧ s.dspace.npages < 2 ^ 20 ∧
        offset % pageSize = 0))
  | .fault _ => isTrue trivial
  | .unhaveData => isTrue trivial
  | .expand _ _ _ => isTrue trivial

/-- A fault on a page of a window over two pages at address 0, with reply cap `reply`. -/
def pageFault (npage reply : Nat) : DspaceFault where
  faultAddr := npage * pageSize
  ramDataspaceOffset := 0
  awOffset := 0
  awSize := 2 * pageSize
  pager := true
  callerReply := some reply
  memory := true
  frame := true
  mapped := .success

/-- A request to provide data from a parameter buffer of one page. -/
def provideRequest (offset contentSize : Nat) : ContentEvent :=
  .provideData (some (ramDspaceOatCreate pageSize)) (fun _ => true) offset contentSize

/-- Process 5 is the content initialiser of two pages. A client waits for each of them; the data for
the second page is provided, then the data for the first. -/
def servedRun : List ContentEvent :=
  [.haveData (some 3) 5 true, .fault (pageFault 0 11), .fault (pageFault 1 12),
    provideRequest 4096 4096, provideRequest 0 100]

theorem content_init_iff_served :
    ∃ s, Run contentStep WordArgs (contentInit 8192 false) servedRun s ∧
      s.dspace.contentInitWaitingList = [] ∧ s.replied = [⟨1, 12⟩, ⟨0, 11⟩] ∧
      Steps contentStep NoLostWakeup servedRun (contentInit 8192 false) := by
  obtain ⟨s, hrun, hwaiting, hreplied⟩ :
      ∃ s, Run contentStep (fun s e => WordArgs s e ∧ ProvidesFromPage s e)
          (contentInit 8192 false) servedRun s ∧
        s.dspace.contentInitWaitingList = [] ∧ s.replied = [⟨1, 12⟩, ⟨0, 11⟩] := by
    apply Run.exists_of_exec
    decide +kernel
  have hargs : Run contentStep WordArgs (contentInit 8192 false) servedRun s :=
    hrun.mono fun _ _ h => h.1
  refine ⟨s, hargs, hwaiting, hreplied, (content_init_iff (by decide) false hargs).2 ?_⟩
  exact hrun.steps fun _ _ _ h _ => wakesAll_of_providesFromPage h.2

/-- A client waits for the first page of a dataspace and another content initialiser is registered:
nobody waits any more, and nobody has been replied to. And data across the boundary of two pages is
provided, and the client that waits for the second page goes on waiting. -/
theorem wakeup_lost :
    ¬Steps contentStep NoLostWakeup
        [.haveData (some 3) 5 true, .fault (pageFault 0 11), .haveData (some 4) 6 true]
        (contentInit 8192 false) ∧
    ¬Steps contentStep NoLostWakeup
        [.haveData (some 3) 5 true, .fault (pageFault 1 12), provideRequest 4095 2]
        (contentInit 8192 false) := by
  constructor
  · intro hsteps
    obtain ⟨t, hrun, hbefore, hany⟩ :
        ∃ t, Run contentStep WordArgs (contentInit 8192 false)
            [.haveData (some 3) 5 true, .fault (pageFault 0 11)] t ∧
          ⟨0, 11⟩ ∈ t.dspace.contentInitWaitingList ∧
          ((contentStep t (.haveData (some 4) 6 true)).toOption.any fun u =>
            u.dspace.contentInitWaitingList ++ u.replied = []) = true := by
      apply Run.exists_of_exec
      decide +kernel
    obtain ⟨u, hu, hafter⟩ := (Option.any_eq_true _ _).1 hany
    have hstep := eq_ok_of_toOption hu
    have hkeeps := (hrun.last_step hsteps hstep).1 ⟨0, 11⟩
    obtain ⟨hwaiting, hreplied⟩ := List.append_eq_nil_iff.1 (of_decide_eq_true hafter)
    rw [hwaiting, hreplied, List.count_nil] at hkeeps
    have hpos := List.count_pos_iff.2 hbefore
    omega
  · intro hsteps
    obtain ⟨t, hrun, hany⟩ :
        ∃ t, Run contentStep WordArgs (contentInit 8192 false)
            [.haveData (some 3) 5 true, .fault (pageFault 1 12)] t ∧
          ((dataProvideDataHandler t (some (ramDspaceOatCreate pageSize)) (fun _ => true) 4095
              2).toOption.any fun r =>
            r.1 = .success ∧ r.2.dspace.npages = 2 ∧ r.2.dspace.provided 1 = false) = true := by
      apply Run.exists_of_exec
      decide +kernel
    obtain ⟨⟨error, u⟩, hu, hafter⟩ := (Option.any_eq_true _ _).1 hany
    obtain ⟨herror, hnpages, hnot⟩ := of_decide_eq_true hafter
    obtain rfl : error = .success := herror
    have hcall := eq_ok_of_toOption hu
    have hstep : contentStep t (provideRequest 4095 2) = .ok u := by
      rw [provideRequest, contentStep, hcall]
      rfl
    have hsettled := (hrun.last_step hsteps hstep).2 hcall 1 (by rw [hnpages]; decide)
      ⟨4096, by decide, by decide, by decide⟩
    exact Bool.false_ne_true (hnot.symm.trans hsettled.1)

end PartitionSeL4.Refos
