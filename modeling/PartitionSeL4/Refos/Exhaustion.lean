import PartitionSeL4.Refos.MemServ

/-!
# What happens when a table of the process server is full

`coat_alloc` reports a failure with `COAT_INVALID_ID`, which is -1. `ram_dspace_create` and
`w_create_window` compare its result with constants of their own, which are 0, so they go on to the
assertion that the object is not null. The branches of `data_open` and `vs_create_window` that
answer `ENOMEM` and give the reservation back are never reached.

`exhaustion_not_reported` says this of every state in which `coat_alloc` fails, for want of an id or
because the object cannot be created. The same test is right in `dspace_alloc` of the file server
and in `client_alloc`, which look at the object.
-/

namespace PartitionSeL4.Refos

/-- `coat_alloc` fails, whatever the object. -/
def Coat.Fails {α : Type} (t : Coat α) (memory : Bool) : Prop :=
  ∀ obj, (t.alloc fun _ => if memory then some obj else none).1 = none

/-! ## What is to be reported -/

/-- `ram_dspace_create` returns null, with both tables as they were. -/
def MemServ.CreateReported (s : MemServ) (size : Nat) (memory : Bool) : Prop :=
  ∃ s', s.ramDspaceCreate size memory = .ok (none, s') ∧
    s'.dspaceList.table = s.dspaceList.table ∧ s'.windowList = s.windowList

/-- `data_open` is answered, with both tables as they were. -/
def MemServ.OpenReported (s : MemServ) (size : Nat) (memory : Bool) (device : Option Bool) : Prop :=
  ∃ s', s.dataOpenHandler size memory device = .ok s' ∧
    s'.dspaceList.table = s.dspaceList.table ∧ s'.windowList = s.windowList

/-- `w_create_window` returns null, with the table as it was. -/
def WindowReported (windowList : Coat Window) (window : Window) (memory : Bool) : Prop :=
  ∃ t, wCreateWindow windowList window memory = .ok (none, t) ∧ t.table = windowList.table

/-- `vs_create_window` answers `ENOMEM`, with the table and the association list as they were. -/
def VspaceState.CreateReported (s : VspaceState) (vs : Vspace) (vaddr size permissions : Nat)
    (cacheable : Bool) (start : Nat) (memory : Bool) : Prop :=
  ∃ s', vsCreateWindow s vs vaddr size permissions cacheable (some start) memory =
      .ok (.nomem, s') ∧
    s'.windowList.table = s.windowList.table ∧
      s'.vspaces = (s.setVspace vs.pid vs.lookedUp).vspaces

/-! ## What is done -/

theorem ramDspaceCreate_of_fails {s : MemServ} {memory : Bool} (h : s.dspaceList.Fails memory)
    (size : Nat) : s.ramDspaceCreate size memory = .error .assertion := by
  rw [MemServ.ramDspaceCreate, ramDataspaceInvalidID, Coat.create_of_alloc_none (by decide) (h _)]
  rfl

theorem dataOpenHandler_of_fails {s : MemServ} {memory : Bool} (h : s.dspaceList.Fails memory)
    {size : Nat} (hsize : size ≠ 0) (device : Option Bool) :
    s.dataOpenHandler size memory device = .error .assertion := by
  rw [MemServ.dataOpenHandler, if_neg hsize, ramDspaceCreate_of_fails h]
  rfl

theorem wCreateWindow_of_fails {windowList : Coat Window} {memory : Bool}
    (h : windowList.Fails memory) (window : Window) :
    wCreateWindow windowList window memory = .error .assertion := by
  rw [wCreateWindow, wInvalidWinid, Coat.create_of_alloc_none (by decide) (h _)]
  rfl

theorem vsCreateWindow_of_fails {s : VspaceState} {vs : Vspace} {memory : Bool}
    (h : s.windowList.Fails memory) {vaddr size : Nat}
    (hcheck : wAssociateCheck vs.windows vaddr size = true) (permissions : Nat) (cacheable : Bool)
    (start : Nat) :
    vsCreateWindow s vs vaddr size permissions cacheable (some start) memory =
      .error .assertion := by
  rw [vsCreateWindow, if_neg (by simp [hcheck])]
  simp only [wCreateWindow_of_fails h]

/-- **Exhaustion is not reported.** Wherever `coat_alloc` fails, `ram_dspace_create`, `data_open`,
`w_create_window` and `vs_create_window` do not report it: an assertion fails. -/
theorem exhaustion_not_reported (s : MemServ) (t : VspaceState) (memory : Bool) :
    (s.dspaceList.Fails memory → ∀ size, ¬s.CreateReported size memory ∧
      s.ramDspaceCreate size memory = .error .assertion ∧
      (size ≠ 0 → ∀ device, ¬s.OpenReported size memory device ∧
        s.dataOpenHandler size memory device = .error .assertion)) ∧
    (t.windowList.Fails memory → (∀ window, ¬WindowReported t.windowList window memory ∧
        wCreateWindow t.windowList window memory = .error .assertion) ∧
      ∀ vs vaddr size permissions cacheable start, wAssociateCheck vs.windows vaddr size = true →
        ¬t.CreateReported vs vaddr size permissions cacheable start memory ∧
          vsCreateWindow t vs vaddr size permissions cacheable (some start) memory =
            .error .assertion) := by
  refine ⟨fun h size => ?_, fun h => ⟨fun window => ?_, ?_⟩⟩
  · have hcreate := ramDspaceCreate_of_fails h size
    refine ⟨?_, hcreate, fun hsize device => ?_⟩
    · rintro ⟨s', hs', _⟩
      rw [hcreate] at hs'
      cases hs'
    · have hopen := dataOpenHandler_of_fails h hsize device
      refine ⟨?_, hopen⟩
      rintro ⟨s', hs', _⟩
      rw [hopen] at hs'
      cases hs'
  · have hcreate := wCreateWindow_of_fails h window
    refine ⟨?_, hcreate⟩
    rintro ⟨t', ht', _⟩
    rw [hcreate] at ht'
    cases ht'
  · intro vs vaddr size permissions cacheable start hcheck
    have hcreate := vsCreateWindow_of_fails h hcheck permissions cacheable start
    refine ⟨?_, hcreate⟩
    rintro ⟨s', hs', _⟩
    rw [hcreate] at hs'
    cases hs'

/-- The dataspace table once all ids have been given out. -/
def fullDspaceList : Coat LiveDspace where
  pool := { start := 1, stop := ramDataspaceMaxNumDataspace, mx := ramDataspaceMaxNumDataspace + 1,
            freelist := [] }
  table ID := if 1 ≤ ID ∧ ID ≤ ramDataspaceMaxNumDataspace then
      some ⟨ramDspaceOatCreate 4096, ID - 1⟩ else none

/-- With the table full, or without memory for a window. -/
theorem exhaustion_not_reported_full :
    { memServInit 4 with dspaceList := fullDspaceList }.dataOpenHandler 4096 true none =
        .error .assertion ∧
      vsCreateWindow (vspaceInit fun pid => pid = 1) (vsInitialise 1) 0x10000 0x1000 3 true
        (some 0x10000) false = .error .assertion := by
  have hfull : fullDspaceList.Fails true := fun _ => rfl
  have hmemory : (vspaceInit fun pid => pid = 1).windowList.Fails false := fun _ => rfl
  constructor
  · exact (((exhaustion_not_reported { memServInit 4 with dspaceList := fullDspaceList }
      (vspaceInit fun pid => pid = 1) true).1 hfull 4096).2.2 (by decide) none).2
  · exact (((exhaustion_not_reported (memServInit 4) (vspaceInit fun pid => pid = 1) false).2
      hmemory).2 (vsInitialise 1) 0x10000 0x1000 3 true 0x10000 (by decide)).2

/-- The first dataspace and the first window, where their capabilities cannot be minted. -/
theorem exhaustion_ends_server :
    (memServInit 4).dspaceList.Fails false ∧ ¬(memServInit 4).CreateReported 4096 false ∧
      ¬(memServInit 4).OpenReported 4096 false none ∧
      (vspaceInit fun pid => pid = 1).windowList.Fails false ∧
      ¬WindowReported (vspaceInit fun pid => pid = 1).windowList
        { clientOwnerPID := 1, size := 0x1000, permissions := 3, cacheable := true, mode := .empty,
          reservation := 0x10000 } false ∧
      ¬(vspaceInit fun pid => pid = 1).CreateReported (vsInitialise 1) 0x10000 0x1000 3 true 0x10000
        false := by
  refine ⟨fun _ => rfl, ?_, ?_, fun _ => rfl, ?_, ?_⟩
  all_goals
    rintro ⟨_, hreturns, _⟩
    cases hreturns

end PartitionSeL4.Refos
