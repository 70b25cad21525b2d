import Rp2350Tee.TrapHandler

/-!
`main` up to the `mret`. Whatever the machine held before, the self-test takes
exactly one trap, recovers, and hands U-mode a machine that is ready for it; the
memory it hands over is `dropMemory`.
-/

namespace Rp2350Tee.PmpDrop

open ByteMemory PmpUnit PmpProgram PmpSetup TrapHandler

variable (layout : Layout) (platform : Platform)

theorem prot_mailbox (memory : Memory 32) (index : Nat) (value address : Word) (small : index < 16)
    (inside : Within layout.gProt 64 address) :
    store32 memory (layout.mailbox index) value address = memory address :=
  store32_outside _ _ _ _ fun word =>
    prot_not_mb layout address inside (mailbox_word layout index small address word)

theorem prot_stage (memory : Memory 32) (value address : Word)
    (inside : Within layout.gProt 64 address) :
    store32 memory layout.gStage value address = memory address :=
  store32_outside _ _ _ _ (prot_not_stage layout address inside)

theorem prot_test (memory : Memory 32) (value address : Word)
    (inside : Within layout.gProt 64 address) :
    store32 memory layout.mainT value address = memory address :=
  store32_outside _ _ _ _ (prot_not_test layout address inside)

theorem secret_in_prot (address : Word) (inside : Within layout.secret 4 address) :
    Within layout.gProt 64 address :=
  Nat.lt_trans inside (by decide)

theorem counter_in_prot (address : Word) (inside : Within layout.counter 4 address) :
    Within layout.gProt 64 address :=
  within_of_part layout.gProt address 4 4 64 (by decide) inside

theorem key_in_prot (index : Fin 16) : Within layout.gProt 64 (byteAt layout.key index.val) := by
  rw [Placement.key, byteAt_byteAt]
  exact within_byteAt _ 64 _ (by omega) (by omega)

theorem secret_touches (index : Nat) (below : index < 4) :
    protBlock layout (byteAt layout.secret index) = true := by
  rw [protBlock, decide_eq_true_eq]
  exact within_byteAt layout.gProt 64 index (by omega) (by omega)

theorem secret_granted (machine : Machine) (isolated : Isolated layout machine.pmp)
    (lifted : machine.pmp.pmpcfgm0 = 0) :
    machine.canAccess platform .machine .read layout.secret 4 = true := by
  have granted := isolated.pair.machine_grants .read layout.secret 4 (by decide)
    (by rw [lifted]; rfl) (fun _ => secret_touches layout)
  have answered (index : Nat) (below : index < 4) :
      platform.responds .read (byteAt layout.secret index) = true :=
    prot_responds layout platform .read _ (within_byteAt layout.gProt 64 index (by omega) (by omega))
  simpa [Machine.canAccess, granted] using answered

/-- `PMPCFGM0` bit 0 turns the closing entry on M-mode itself. -/
theorem secret_denied (machine : Machine) (isolated : Isolated layout machine.pmp)
    (applied : machine.pmp.pmpcfgm0 = 1) :
    machine.canAccess platform .machine .read layout.secret 4 = false := by
  have touched : touches (protBlock layout) layout.secret 4 = true :=
    (touches_iff _ _).mpr ⟨0, by decide, secret_touches layout 0 (by decide)⟩
  have refused := isolated.pair.machine_restricted .read layout.secret 4 (by decide)
    (by rw [applied]; rfl)
  rw [Machine.canAccess, refused, touched]
  rfl

theorem read_secret_granted (stored : Word) (machine : Machine)
    (isolated : Isolated layout machine.pmp) (lifted : machine.pmp.pmpcfgm0 = 0) :
    readSecret layout platform stored machine = (machine, load32 machine.mem layout.secret) := by
  rw [readSecret, secret_granted layout platform machine isolated lifted]
  rfl

/-- The self-test and the drop, on the memory that `mainInit` leaves. -/
def dropMemory (stored : Word) (memory : Memory 32) : Memory 32 :=
  let memory := store32 memory (layout.mailbox mbXh3Before) stored
  let memory := store32 memory layout.gStage stageXh3
  let memory := savedMemory layout memory (platform.selfTestRegs stored)
  let memory := store32 memory (layout.mailbox mbXh3Mcause) 5
  let memory := store32 memory layout.gStage stageU
  let memory := store32 memory layout.mainT (platform.selfTestStale stored)
  let memory := store32 memory (layout.mailbox mbXh3After) stored
  let memory := store32 memory layout.gStage stageU
  store32 memory (layout.mailbox mbStage) 0x00000A11

theorem drop_prot (stored : Word) (memory : Memory 32) (address : Word)
    (inside : Within layout.gProt 64 address) :
    dropMemory layout platform stored memory address = memory address := by
  simp only [dropMemory]
  rw [prot_mailbox layout _ _ _ _ (by decide) inside, prot_stage layout _ _ _ inside,
    prot_mailbox layout _ _ _ _ (by decide) inside, prot_test layout _ _ _ inside,
    prot_stage layout _ _ _ inside, prot_mailbox layout _ _ _ _ (by decide) inside,
    saved_prot layout _ _ _ inside, prot_stage layout _ _ _ inside,
    prot_mailbox layout _ _ _ _ (by decide) inside]

theorem counter_not_secret (address : Word) (inside : Within layout.secret 4 address) :
    ¬ Within layout.counter 4 address := by
  rw [← byteAt_zero layout.secret] at inside
  exact parts_apart layout.gProt address 0 4 4 4 (by decide) (by decide) inside

theorem key_not_secret (address : Word) (inside : Within layout.secret 4 address) :
    ¬ Within layout.key 16 address := by
  rw [← byteAt_zero layout.secret] at inside
  exact parts_apart layout.gProt address 0 4 8 16 (by decide) (by decide) inside

theorem init_secret (stored : Word) (key : Fin 16 → Byte) (machine : Machine) :
    load32 (mainInit layout stored key machine).mem layout.secret = stored := by
  have kept : load32 (mainInit layout stored key machine).mem layout.secret =
      load32 (store32 (store32 (storeWords machine.mem layout.gMb (List.replicate mbN 0))
        (layout.mailbox mbMagic) 0x504D5002) layout.secret stored) layout.secret := by
    apply load32_congr
    intro address inside
    have beyondKey : ¬ Within layout.key (List.ofFn key).length address := by
      rw [List.length_ofFn]
      exact key_not_secret layout address inside
    simp only [mainInit]
    rw [storeBytes_outside _ _ _ _ beyondKey,
      store32_outside _ _ _ _ (counter_not_secret layout address inside)]
  rw [kept, load32_store32 _ _ _ (by decide)]

/-- What U-mode is handed by the `mret` of `main`. -/
structure AtDrop (stored : Word) (memory : Memory 32) (machine : Machine) : Prop where
  running : machine.halted = false
  ready : Ready layout machine
  traps : machine.traps = [⟨.machine, layout.trapStackTop⟩]
  mem : machine.mem = dropMemory layout platform stored memory

/-- The machine after the self-test's fault, as far as the rest of `main` depends on it. -/
structure Recovered (stored : Word) (before after : Machine) : Prop where
  running : after.halted = false
  mscratch : after.mscratch = layout.trapStackTop
  isolated : Isolated layout after.pmp
  lifted : after.pmp.pmpcfgm0 = 0
  traps : after.traps = before.traps ++ [⟨before.mode, layout.trapStackTop⟩]
  mem : after.mem =
    recoveredMemory layout (savedMemory layout before.mem (platform.selfTestRegs stored)) 5

/-- The second read of the self-test faults, and the handler lifts the restriction again. -/
theorem self_test_fault (stored : Word) (machine : Machine) (running : machine.halted = false)
    (mscratch : machine.mscratch = layout.trapStackTop) (isolated : Isolated layout machine.pmp)
    (applied : machine.pmp.pmpcfgm0 = 1) (stage : load32 machine.mem layout.gStage = stageXh3) :
    Recovered layout platform stored machine (readSecret layout platform stored machine).1 ∧
      (readSecret layout platform stored machine).2 = platform.selfTestStale stored := by
  have safe : SafeSp layout machine.mscratch := by
    rw [mscratch]
    exact top_safe layout
  have denied := secret_denied layout platform machine isolated applied
  rw [readSecret, denied]
  refine ⟨?_, rfl⟩
  change Recovered layout platform stored machine
    (machineFault layout platform machine 5 layout.secret platform.selfTestPc
      (platform.selfTestRegs stored))
  rw [machine_fault_plain layout platform machine 5 layout.secret platform.selfTestPc
    (platform.selfTestRegs stored) running isolated safe]
  generalize reached : ((machine.atFault platform.selfTestPc (platform.selfTestRegs stored)).takeTrap 5
    (platform.mtvalOf layout.secret)).switchStack.saveRegs = handler
  have saved : handler.mem = savedMemory layout machine.mem (platform.selfTestRegs stored) := by
    subst reached
    simp only [Machine.saveRegs, Machine.switchStack, Machine.takeTrap, Machine.atFault, savedMemory,
      trapFrame, mscratch]
  have handlerStage : load32 handler.mem layout.gStage = stageXh3 := by
    rw [saved, saved_stage]
    exact stage
  obtain ⟨pc, left⟩ := access_fault_recovers layout handler (by subst reached; exact running)
    handlerStage
  rw [left, ← reached]
  rw [← reached] at saved
  refine ⟨running, ?_, ⟨isolated.addr0, isolated.addr1, isolated.cfg0⟩, rfl, ?_, ?_⟩
  · change machine.mscratch - 64 + 64 = _
    rw [BitVec.sub_add_cancel, mscratch]
  · change machine.traps ++ [⟨machine.mode, machine.mscratch⟩] = _
    rw [mscratch]
  · exact congrArg (fun memory => recoveredMemory layout memory 5) saved

theorem load_secret_congr (left right : Memory 32)
    (same : ∀ address, Within layout.gProt 64 address → left address = right address) :
    load32 left layout.secret = load32 right layout.secret :=
  load32_congr left right layout.secret fun address inside =>
    same address (secret_in_prot layout address inside)

def testMemory (stored : Word) (memory : Memory 32) : Memory 32 :=
  store32 (store32 memory (layout.mailbox mbXh3Before) stored) layout.gStage stageXh3

def testedMemory (stored : Word) (memory : Memory 32) : Memory 32 :=
  store32 (recoveredMemory layout
    (savedMemory layout (testMemory layout stored memory) (platform.selfTestRegs stored)) 5)
    layout.mainT (platform.selfTestStale stored)

theorem tested_secret (stored : Word) (memory : Memory 32) :
    load32 (testedMemory layout platform stored memory) layout.secret =
      load32 memory layout.secret := by
  apply load_secret_congr layout
  intro address inside
  simp only [testedMemory, recoveredMemory, testMemory]
  rw [prot_test layout _ _ _ inside, prot_stage layout _ _ _ inside,
    prot_mailbox layout _ _ _ _ (by decide) inside, saved_prot layout _ _ _ inside,
    prot_stage layout _ _ _ inside, prot_mailbox layout _ _ _ _ (by decide) inside]

/-- M-mode with the closing entry turned on itself, after its first read of the secret. -/
def restricted (stored : Word) (machine : Machine) : Machine :=
  let machine := machine.write (layout.mailbox mbXh3Before) stored
  let machine := machine.write layout.gStage stageXh3
  { machine with pmp := { machine.pmp with pmpcfgm0 := 1 } }

theorem self_test_first (stored : Word) (machine : Machine) (isolated : Isolated layout machine.pmp)
    (lifted : machine.pmp.pmpcfgm0 = 0) (secret : load32 machine.mem layout.secret = stored) :
    mainSelfTest layout platform stored machine =
      let tested := readSecret layout platform stored (restricted layout stored machine)
      if tested.1.halted then tested.1 else
      let after := readSecret layout platform stored (tested.1.write layout.mainT tested.2)
      after.1.write (layout.mailbox mbXh3After) after.2 := by
  rw [mainSelfTest, read_secret_granted layout platform stored machine isolated lifted, secret]
  rfl

theorem self_test_spec (stored : Word) (machine : Machine) (running : machine.halted = false)
    (mscratch : machine.mscratch = layout.trapStackTop) (isolated : Isolated layout machine.pmp)
    (lifted : machine.pmp.pmpcfgm0 = 0) (secret : load32 machine.mem layout.secret = stored) :
    let tested := mainSelfTest layout platform stored machine
    tested.halted = false ∧ tested.mscratch = layout.trapStackTop ∧ Isolated layout tested.pmp ∧
      tested.pmp.pmpcfgm0 = 0 ∧
      tested.traps = machine.traps ++ [⟨machine.mode, layout.trapStackTop⟩] ∧
      tested.mem = store32 (testedMemory layout platform stored machine.mem)
        (layout.mailbox mbXh3After) stored := by
  have stage : load32 (restricted layout stored machine).mem layout.gStage = stageXh3 :=
    load32_store32 _ _ _ (by decide)
  obtain ⟨recovered, value⟩ := self_test_fault layout platform stored (restricted layout stored machine)
    running mscratch ⟨isolated.addr0, isolated.addr1, isolated.cfg0⟩ rfl stage
  rw [self_test_first layout platform stored machine isolated lifted secret]
  generalize readSecret layout platform stored (restricted layout stored machine) = tested
    at recovered value
  have tests : (tested.1.write layout.mainT tested.2).mem =
      testedMemory layout platform stored machine.mem := by
    rw [value]
    exact congrArg (fun memory => store32 memory layout.mainT (platform.selfTestStale stored))
      recovered.mem
  have again := read_secret_granted layout platform stored (tested.1.write layout.mainT tested.2)
    recovered.isolated recovered.lifted
  rw [tests, tested_secret, secret] at again
  simp only [recovered.running, again]
  exact ⟨recovered.running, recovered.mscratch, recovered.isolated, recovered.lifted, recovered.traps,
    congrArg (fun memory => store32 memory (layout.mailbox mbXh3After) stored) tests⟩

theorem main_at_drop (stored : Word) (key : Fin 16 → Byte) (machine : Machine) :
    AtDrop layout platform stored (mainInit layout stored key machine).mem
      (main layout platform stored key machine) := by
  have isolated := isolate_isolated layout (mainInit layout stored key machine)
  obtain ⟨running, mscratch, stillIsolated, lifted, traps, mem⟩ := self_test_spec layout platform stored
    (pmpIsolateSecret layout (mainInit layout stored key machine)) rfl rfl isolated rfl
    (init_secret layout stored key machine)
  rw [main, running]
  exact ⟨running, ⟨mscratch, stillIsolated, lifted, rfl⟩, traps,
    congrArg (fun memory => store32 (store32 memory layout.gStage stageU)
      (layout.mailbox mbStage) 0x00000A11) mem⟩

theorem main_key (stored : Word) (key : Fin 16 → Byte) (machine : Machine) :
    keyBytes (main layout platform stored key machine).mem layout.toPlacement = key := by
  funext index
  have written := storeBytes_inside (store32 (store32 (store32 (storeWords machine.mem layout.gMb
    (List.replicate mbN 0)) (layout.mailbox mbMagic) 0x504D5002) layout.secret stored) layout.counter 0)
    layout.key (List.ofFn key) (by simp) index.val (by simp)
  rw [List.getElem_ofFn] at written
  rw [keyBytes, (main_at_drop layout platform stored key machine).mem,
    drop_prot layout platform stored _ _ (key_in_prot layout index)]
  exact written

theorem main_counter (stored : Word) (key : Fin 16 → Byte) (machine : Machine) :
    load32 (main layout platform stored key machine).mem layout.counter = 0 := by
  have kept : load32 (main layout platform stored key machine).mem layout.counter =
      load32 (store32 (store32 (store32 (storeWords machine.mem layout.gMb
        (List.replicate mbN 0)) (layout.mailbox mbMagic) 0x504D5002) layout.secret stored)
        layout.counter 0) layout.counter := by
    apply load32_congr
    intro address inside
    have beyondKey : ¬ Within layout.key (List.ofFn key).length address := by
      rw [List.length_ofFn]
      exact parts_apart layout.gProt address 4 4 8 16 (by decide) (by decide) inside
    rw [(main_at_drop layout platform stored key machine).mem,
      drop_prot layout platform stored _ _ (counter_in_prot layout address inside)]
    simp only [mainInit]
    rw [storeBytes_outside _ _ _ _ beyondKey]
  rw [kept, load32_store32 _ _ _ (by decide)]

end Rp2350Tee.PmpDrop
