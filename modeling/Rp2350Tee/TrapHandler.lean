import Rp2350Tee.PmpSetup

/-!
The trampoline and the services where no access of M-mode faults: the sixteen
saves are one block of stores on the trap stack, `svc_sign` is a keyed transform
of its buffer, and an environment call comes down to what it does to memory.
-/

namespace Rp2350Tee.TrapHandler

open ByteMemory PmpUnit PmpProgram PmpSetup

variable (layout : Layout) (platform : Platform)

theorem sram_responds (access : Access) (base address : Word) (count : Nat)
    (range : sramStart ≤ base.toNat ∧ base.toNat + count ≤ sramEnd)
    (inside : Within base count address) : platform.responds access address = true := by
  have interval := (within_iff_interval base address count
    (Nat.le_trans range.2 (by decide))).mp inside
  exact platform.sramResponds access address (by omega) (by omega)

theorem stack_responds (access : Access) (address : Word)
    (inside : Within layout.gMTrapStack 512 address) : platform.responds access address = true :=
  sram_responds platform access layout.gMTrapStack address 512 (stack_range layout) inside

theorem prot_responds (access : Access) (address : Word)
    (inside : Within layout.gProt 64 address) : platform.responds access address = true :=
  sram_responds platform access layout.gProt address 64 (prot_range layout) inside

theorem stack_access (machine : Machine) (isolated : Isolated layout machine.pmp)
    (mode : Mode) (access : Access) (base : Word) (count : Nat) (positive : 0 < count)
    (inside : ∀ index < count, Within layout.gMTrapStack 512 (byteAt base index)) :
    machine.canAccess platform mode access base count = true := by
  rw [Machine.canAccess, isolated.pair.grants_outside mode access base count positive]
  · simpa using fun index below => stack_responds layout platform access _ (inside index below)
  · rw [touches_false]
    intro index below
    rw [protBlock, decide_eq_false_iff_not]
    exact fun block => prot_not_stack layout _ block (inside index below)

theorem byte_access (machine : Machine) (isolated : Isolated layout machine.pmp)
    (lifted : machine.pmp.pmpcfgm0 = 0) (access : Access) (address : Word) :
    machine.canAccess platform .machine access address 1 = platform.responds access address := by
  have granted : machine.pmp.grants .machine access address 1 = true :=
    isolated.pair.machine_grants access address 1 (by decide) (by rw [lifted]; rfl)
      (by intro touched; simpa [touches] using touched)
  simp [Machine.canAccess, granted]

def withMem (machine : Machine) (memory : Memory 32) : Machine := { machine with mem := memory }

def SafeSp (sp : Word) : Prop :=
  ∀ index < 64, Within layout.gMTrapStack 512 (byteAt (sp - 64) index)

instance (sp : Word) : Decidable (SafeSp layout sp) :=
  inferInstanceAs (Decidable (∀ index < 64, _))

theorem top_safe : SafeSp layout layout.trapStackTop := by
  intro index below
  apply frame_in_stack layout
  exact within_byteAt _ 64 index below (by omega)

theorem save_words_plain (machine : Machine) (address : Word) (words : List Word)
    (running : machine.halted = false) (isolated : Isolated layout machine.pmp)
    (room : ∀ index < 4 * words.length, Within layout.gMTrapStack 512 (byteAt address index)) :
    saveWords layout platform machine address words =
      withMem machine (storeWords machine.mem address words) := by
  induction words generalizing machine address with
  | nil => rfl
  | cons word rest ih =>
      rw [List.length_cons] at room
      have head : saveWord layout platform machine address word =
          withMem machine (store32 machine.mem address word) := by
        have writable := stack_access layout platform machine isolated .machine .write address 4
          (by decide) (fun index below => room index (by omega))
        simp [saveWord, running, writable, withMem]
      rw [saveWords, head, ih _ (byteAt address 4)]
      · rfl
      · exact running
      · exact isolated
      · intro index below
        rw [byteAt_byteAt]
        exact room (4 + index) (by omega)

theorem enter_trap_plain (machine : Machine) (running : machine.halted = false)
    (isolated : Isolated layout machine.pmp) (safe : SafeSp layout machine.mscratch) :
    enterTrap layout platform machine = machine.switchStack.saveRegs := by
  apply save_words_plain layout platform machine.switchStack _ _ running isolated
  intro index below
  rw [List.length_ofFn] at below
  exact safe index below

theorem machine_fault_plain (machine : Machine) (cause address pc : Word) (regs : Regs)
    (running : machine.halted = false) (isolated : Isolated layout machine.pmp)
    (safe : SafeSp layout machine.mscratch) :
    machineFault layout platform machine cause address pc regs =
      (accessFault layout ((machine.atFault pc regs).takeTrap cause
        (platform.mtvalOf address)).switchStack.saveRegs).leaveTrap := by
  have entered := enter_trap_plain layout platform
    ((machine.atFault pc regs).takeTrap cause (platform.mtvalOf address)) running isolated safe
  have stillRunning : ((machine.atFault pc regs).takeTrap cause
      (platform.mtvalOf address)).switchStack.saveRegs.halted = false := running
  rw [machineFault, entered]
  simp [stillRunning]

theorem saved_register (memory : Memory 32) (frame : Word) (regs : Regs) (register : Fin 16) :
    load32 (storeWords memory frame (List.ofFn regs)) (frameSlot frame register) = regs register := by
  have read := load32_storeWords memory frame (List.ofFn regs) (by simp) register.val (by simp)
  rwa [List.getElem_ofFn] at read

theorem save_regs_outside (memory : Memory 32) (frame address : Word) (regs : Regs)
    (outside : ¬ Within frame 64 address) :
    storeWords memory frame (List.ofFn regs) address = memory address :=
  storeWords_outside memory frame address _ (by simpa using outside)

theorem save_regs_congr (left right : Memory 32) (frame address : Word) (regs : Regs)
    (agree : ¬ Within frame 64 address → left address = right address) :
    storeWords left frame (List.ofFn regs) address =
      storeWords right frame (List.ofFn regs) address :=
  storeWords_congr left right frame address _ (by simp) (by simpa using agree)

def recoveredMemory (memory : Memory 32) (cause : Word) : Memory 32 :=
  store32 (store32 memory (layout.mailbox mbXh3Mcause) cause) layout.gStage stageU

def recordedMemory (memory : Memory 32) (cause tval : Word) : Memory 32 :=
  store32 (store32 (store32 memory (layout.mailbox mbMcause) cause) (layout.mailbox mbMtval) tval)
    (layout.mailbox mbStage) 0x0000600D

/-- With the stage flag of the self-test set, the handler lifts `PMPCFGM0` and resumes. -/
theorem access_fault_recovers (machine : Machine) (running : machine.halted = false)
    (stage : load32 machine.mem layout.gStage = stageXh3) :
    ∃ pc, (accessFault layout machine).leaveTrap =
      Machine.restore { machine with
        mem := recoveredMemory layout machine.mem machine.mcause
        pmp := { machine.pmp with pmpcfgm0 := 0 }
        mepc := pc } := by
  unfold accessFault Machine.leaveTrap
  rw [if_pos stage]
  exact ⟨_, if_neg (by simp [running])⟩

/-- With any other stage the fault is recorded and the handler never returns. -/
theorem access_fault_halts (machine : Machine)
    (stage : load32 machine.mem layout.gStage ≠ stageXh3) :
    (accessFault layout machine).leaveTrap = { machine with
      mem := recordedMemory layout machine.mem machine.mcause machine.mtval
      halted := true } := by
  unfold accessFault Machine.leaveTrap
  rw [if_neg stage]
  rfl

/-- The length and overlap guards of `svc_sign` let the buffer through. -/
def Accepted (buf len : Word) : Prop :=
  ¬ len > 64 ∧ ¬ (buf + len > layout.gProt ∧ buf < layout.gProt + 64)

instance (buf len : Word) : Decidable (Accepted layout buf len) :=
  inferInstanceAs (Decidable (_ ∧ _))

theorem accepted_short (buf len : Word) (accepted : Accepted layout buf len) : len.toNat ≤ 64 := by
  have short := accepted.1
  rw [gt_iff_lt, BitVec.lt_def] at short
  exact Nat.le_of_not_lt short

/-- An accepted buffer has no byte in the protected block, also where it wraps around. -/
theorem accepted_outside (buf len : Word) (accepted : Accepted layout buf len)
    (index : Nat) (below : index < len.toNat) : ¬ Within layout.gProt 64 (byteAt buf index) := by
  have short := accepted_short layout buf len accepted
  have range := prot_range layout
  have apart := accepted.2
  have blockSize : (64 : Word).toNat = 64 := rfl
  have bufBound := buf.isLt
  unfold sramStart sramEnd at range
  rw [gt_iff_lt, BitVec.lt_def, BitVec.lt_def, BitVec.toNat_add, BitVec.toNat_add, blockSize]
    at apart
  rw [within_iff_interval _ _ _ (by omega), byteAt, BitVec.toNat_add, BitVec.toNat_ofNat]
  omega

/-- The first `count` bytes from `buf` on, each combined with its byte of the key. -/
def signedMemory (key : Fin 16 → Byte) (buf : Word) (count : Nat) (memory : Memory 32) : Memory 32 :=
  fun address => if Within buf count address then
    memory address ^^^ key ⟨(address - buf).toNat % 16, Nat.mod_lt _ (by decide)⟩
  else memory address

theorem signed_zero (key : Fin 16 → Byte) (buf : Word) (memory : Memory 32) :
    signedMemory key buf 0 memory = memory := by
  funext address
  simp [signedMemory, Within]

theorem signed_outside (key : Fin 16 → Byte) (buf address : Word) (count : Nat) (memory : Memory 32)
    (outside : ¬ Within buf count address) : signedMemory key buf count memory address = memory address :=
  if_neg outside

theorem signed_succ (key : Fin 16 → Byte) (buf : Word) (count : Nat) (memory : Memory 32)
    (bounded : count < 2 ^ 32) :
    signedMemory key buf (count + 1) memory =
      Function.update (signedMemory key buf count memory) (byteAt buf count)
        (memory (byteAt buf count) ^^^ key ⟨count % 16, Nat.mod_lt _ (by decide)⟩) := by
  funext address
  by_cases here : address = byteAt buf count
  · subst here
    have offset := offset_byteAt buf count bounded
    simp [signedMemory, Within, offset]
  · have offset : (address - buf).toNat ≠ count := by
      intro same
      exact here (by rw [← same, byteAt_offset])
    have same : Within buf (count + 1) address ↔ Within buf count address := by
      unfold Within
      omega
    simp [signedMemory, same, here]

theorem signed_key (key : Fin 16 → Byte) (buf : Word) (count : Nat) (memory : Memory 32)
    (apart : ∀ index < count, ¬ Within layout.gProt 64 (byteAt buf index)) :
    keyBytes (signedMemory key buf count memory) layout.toPlacement =
      keyBytes memory layout.toPlacement := by
  funext index
  apply signed_outside
  rw [within_iff_index]
  rintro ⟨position, below, same⟩
  apply apart position below
  rw [← same, Placement.key, byteAt_byteAt]
  exact within_byteAt _ 64 _ (by omega) (by omega)

/-- What `svc_sign` needs of the machine to read the key and to reach its buffer freely. -/
structure Serving (machine : Machine) : Prop where
  running : machine.halted = false
  isolated : Isolated layout machine.pmp
  lifted : machine.pmp.pmpcfgm0 = 0

theorem Serving.with_mem {machine : Machine} (serving : Serving layout machine)
    (memory : Memory 32) : Serving layout (withMem machine memory) :=
  ⟨serving.running, serving.isolated, serving.lifted⟩

/-- The bus answers a read and a write of every byte of the buffer. -/
def Responsive (buf : Word) (count : Nat) : Prop :=
  ∀ index < count, platform.responds .read (byteAt buf index) = true ∧
    platform.responds .write (byteAt buf index) = true

instance (buf : Word) (count : Nat) : Decidable (Responsive platform buf count) :=
  inferInstanceAs (Decidable (∀ index < count, _))

theorem sign_byte_plain (buf : Word) (index : Nat) (machine : Machine)
    (serving : Serving layout machine)
    (readable : platform.responds .read (byteAt buf index) = true)
    (writable : platform.responds .write (byteAt buf index) = true) :
    svcSignByte layout platform buf index machine =
      withMem machine (Function.update machine.mem (byteAt buf index)
        (machine.mem (byteAt buf index) ^^^
          keyBytes machine.mem layout.toPlacement ⟨index % 16, Nat.mod_lt _ (by decide)⟩)) := by
  have access (access : Access) := byte_access layout platform machine serving.isolated
    serving.lifted access (byteAt buf index)
  have loaded : signLoad layout platform (byteAt buf index) index machine =
      (machine, machine.mem (byteAt buf index)) :=
    if_pos ((access .read).trans readable)
  have stored : machine.canAccess platform .machine .write (byteAt buf index) 1 = true :=
    (access .write).trans writable
  rw [svcSignByte, loaded, if_neg (by rw [serving.running]; decide),
    if_neg (by rw [serving.running]; decide)]
  exact if_pos stored

theorem sign_loop_plain (buf : Word) (machine : Machine) (count : Nat) (short : count ≤ 64)
    (serving : Serving layout machine) (responsive : Responsive platform buf count)
    (apart : ∀ index < count, ¬ Within layout.gProt 64 (byteAt buf index)) :
    svcSignLoop layout platform buf machine count =
      withMem machine
        (signedMemory (keyBytes machine.mem layout.toPlacement) buf count machine.mem) := by
  induction count with
  | zero =>
      rw [svcSignLoop, signed_zero]
      rfl
  | succ count ih =>
      have shorter (index : Nat) (below : index < count) : index < count + 1 := by omega
      have prior := ih (by omega) (fun index below => responsive index (shorter index below))
        (fun index below => apart index (shorter index below))
      have here := responsive count (Nat.lt_succ_self count)
      have fresh : ¬ Within buf count (byteAt buf count) := by
        rw [Within, offset_byteAt _ _ (by omega)]
        exact Nat.lt_irrefl count
      rw [svcSignLoop, prior, sign_byte_plain layout platform buf count _
        (serving.with_mem layout _) here.1 here.2, signed_succ _ _ _ _ (by omega)]
      simp only [withMem]
      rw [signed_key layout _ _ _ _ (fun index below => apart index (shorter index below)),
        signed_outside _ _ _ _ _ fresh]

theorem svc_sign_plain (buf len : Word) (machine : Machine) (serving : Serving layout machine)
    (responsive : Accepted layout buf len → Responsive platform buf len.toNat) :
    svcSign layout platform buf len machine =
      withMem machine (if Accepted layout buf len then
        signedMemory (keyBytes machine.mem layout.toPlacement) buf len.toNat machine.mem
      else machine.mem) := by
  by_cases accepted : Accepted layout buf len
  · rw [if_pos accepted, svcSign, if_neg accepted.1, if_neg accepted.2]
    exact sign_loop_plain layout platform buf machine len.toNat (accepted_short layout buf len accepted)
      serving (responsive accepted) (accepted_outside layout buf len accepted)
  · rw [if_neg accepted, svcSign]
    by_cases long : len > 64
    · rw [if_pos long]
      rfl
    · have overlaps : buf + len > layout.gProt ∧ buf < layout.gProt + 64 := by
        by_contra clear
        exact accepted ⟨long, clear⟩
      rw [if_neg long, if_pos overlaps]
      rfl

/-- What every step of U-mode finds in the trap registers and the PMP. -/
structure Ready (machine : Machine) : Prop where
  mscratch : machine.mscratch = layout.trapStackTop
  isolated : Isolated layout machine.pmp
  lifted : machine.pmp.pmpcfgm0 = 0
  mode : machine.mode = .user

theorem Ready.at_step {machine : Machine} (ready : Ready layout machine) (step : UStep) :
    Ready layout (machine.atStep step) :=
  ⟨ready.mscratch, ready.isolated, ready.lifted, ready.mode⟩

def trapped (machine : Machine) (cause tval : Word) : Machine :=
  (machine.takeTrap cause tval).switchStack.saveRegs

theorem user_trap_plain (machine : Machine) (cause tval : Word) (running : machine.halted = false)
    (ready : Ready layout machine) :
    userTrap layout platform machine cause tval =
      (trapDispatch layout platform (trapFrame layout) (trapped machine cause tval)).leaveTrap := by
  have safe : SafeSp layout (machine.takeTrap cause tval).mscratch := by
    change SafeSp layout machine.mscratch
    rw [ready.mscratch]
    exact top_safe layout
  have frame : (trapped machine cause tval).sp = trapFrame layout :=
    congrArg (fun top : Word => top - 64) ready.mscratch
  have stillRunning : (trapped machine cause tval).halted = false := running
  have entered : enterTrap layout platform (machine.takeTrap cause tval) =
      trapped machine cause tval :=
    enter_trap_plain layout platform _ running ready.isolated safe
  rw [userTrap, trapEntry, entered, frame, stillRunning]
  rfl

theorem trapped_serving (machine : Machine) (cause tval : Word) (running : machine.halted = false)
    (ready : Ready layout machine) : Serving layout (trapped machine cause tval) :=
  ⟨running, ready.isolated, ready.lifted⟩

def savedMemory (memory : Memory 32) (regs : Regs) : Memory 32 :=
  storeWords memory (trapFrame layout) (List.ofFn regs)

theorem trapped_memory (machine : Machine) (cause tval : Word) (ready : Ready layout machine) :
    (trapped machine cause tval).mem = savedMemory layout machine.mem machine.regs := by
  simp only [trapped, Machine.saveRegs, Machine.switchStack, Machine.takeTrap, savedMemory,
    trapFrame, ready.mscratch]

theorem trapped_register (machine : Machine) (cause tval : Word) (ready : Ready layout machine)
    (register : Fin 16) :
    load32 (trapped machine cause tval).mem (frameSlot (trapFrame layout) register) =
      machine.regs register := by
  rw [trapped_memory layout machine cause tval ready]
  exact saved_register machine.mem _ machine.regs register

theorem serve_get_counter (machine : Machine) (tval : Word) (ready : Ready layout machine)
    (number : machine.regs a7 = svcGetCounter) :
    serveCall layout platform (trapFrame layout) (trapped machine 8 tval) =
      let value := load32 (trapped machine 8 tval).mem layout.counter + 1
      withMem (trapped machine 8 tval)
        (store32 (store32 (trapped machine 8 tval).mem layout.counter value)
          (frameSlot (trapFrame layout) a0) value) := by
  rw [← trapped_register layout machine 8 tval ready a7] at number
  exact if_pos number

theorem serve_sign (machine : Machine) (tval : Word) (ready : Ready layout machine)
    (number : machine.regs a7 = svcSignNumber) :
    serveCall layout platform (trapFrame layout) (trapped machine 8 tval) =
      let signed := svcSign layout platform (machine.regs a0) (machine.regs a1)
        (trapped machine 8 tval)
      if signed.halted then signed
      else withMem signed (store32 signed.mem (frameSlot (trapFrame layout) a0) 0) := by
  rw [← trapped_register layout machine 8 tval ready a7] at number
  rw [← trapped_register layout machine 8 tval ready a0,
    ← trapped_register layout machine 8 tval ready a1]
  have notCounter : load32 (trapped machine 8 tval).mem (frameSlot (trapFrame layout) a7) ≠
      svcGetCounter := by
    rw [number]
    decide
  exact (if_neg notCounter).trans (if_pos number)

theorem serve_sign_plain (machine : Machine) (tval : Word) (running : machine.halted = false)
    (ready : Ready layout machine) (number : machine.regs a7 = svcSignNumber)
    (responsive : Accepted layout (machine.regs a0) (machine.regs a1) →
      Responsive platform (machine.regs a0) (machine.regs a1).toNat) :
    serveCall layout platform (trapFrame layout) (trapped machine 8 tval) =
      withMem (trapped machine 8 tval)
        (store32 (if Accepted layout (machine.regs a0) (machine.regs a1) then
            signedMemory (keyBytes (trapped machine 8 tval).mem layout.toPlacement) (machine.regs a0)
              (machine.regs a1).toNat (trapped machine 8 tval).mem
          else (trapped machine 8 tval).mem) (frameSlot (trapFrame layout) a0) 0) := by
  have serving := trapped_serving layout machine 8 tval running ready
  rw [serve_sign layout platform machine tval ready number,
    svc_sign_plain layout platform _ _ _ serving responsive]
  exact if_neg (by rw [(serving.with_mem layout _).running]; decide)

theorem serve_unknown (machine : Machine) (tval : Word) (ready : Ready layout machine)
    (notCounter : machine.regs a7 ≠ svcGetCounter) (notSign : machine.regs a7 ≠ svcSignNumber) :
    serveCall layout platform (trapFrame layout) (trapped machine 8 tval) =
      withMem (trapped machine 8 tval)
        (store32 (trapped machine 8 tval).mem (frameSlot (trapFrame layout) a0) 0xFFFFFFFF) := by
  rw [← trapped_register layout machine 8 tval ready a7] at notCounter notSign
  exact (if_neg notCounter).trans (if_neg notSign)

theorem saved_outside_frame (memory : Memory 32) (regs : Regs) (address : Word)
    (outside : ¬ Within (trapFrame layout) 64 address) :
    savedMemory layout memory regs address = memory address :=
  save_regs_outside memory (trapFrame layout) address regs outside

theorem saved_in_frame (left right : Memory 32) (regs : Regs) (address : Word)
    (inside : Within (trapFrame layout) 64 address) :
    savedMemory layout left regs address = savedMemory layout right regs address :=
  save_regs_congr left right (trapFrame layout) address regs fun outside => absurd inside outside

theorem saved_outside_stack (memory : Memory 32) (regs : Regs) (address : Word)
    (outside : ¬ Within layout.gMTrapStack 512 address) :
    savedMemory layout memory regs address = memory address :=
  saved_outside_frame layout memory regs address fun inside =>
    outside (frame_in_stack layout _ inside)

theorem saved_prot (memory : Memory 32) (regs : Regs) (address : Word)
    (inside : Within layout.gProt 64 address) :
    savedMemory layout memory regs address = memory address :=
  saved_outside_stack layout memory regs address (prot_not_stack layout address inside)

theorem saved_stage (memory : Memory 32) (regs : Regs) :
    load32 (savedMemory layout memory regs) layout.gStage = load32 memory layout.gStage :=
  load32_congr _ _ _ fun address inside =>
    saved_outside_stack layout memory regs address (stage_not_stack layout address inside)

theorem user_fault_plain (machine : Machine) (cause tval : Word) (running : machine.halted = false)
    (ready : Ready layout machine) (access : cause = 5 ∨ cause = 7) :
    userTrap layout platform machine cause tval =
      (accessFault layout (trapped machine cause tval)).leaveTrap := by
  rw [user_trap_plain layout platform machine cause tval running ready]
  have notCall : (trapped machine cause tval).mcause ≠ 8 := by
    change cause ≠ 8
    rcases access with rfl | rfl <;> decide
  have accessTrapped : (trapped machine cause tval).mcause = 5 ∨
      (trapped machine cause tval).mcause = 7 := access
  rw [trapDispatch, if_neg notCall, if_pos accessTrapped]

theorem trapped_stage (machine : Machine) (cause tval : Word) (ready : Ready layout machine) :
    load32 (trapped machine cause tval).mem layout.gStage = load32 machine.mem layout.gStage := by
  rw [trapped_memory layout machine cause tval ready, saved_stage]

theorem user_fault_caught (machine : Machine) (cause tval : Word) (running : machine.halted = false)
    (ready : Ready layout machine) (access : cause = 5 ∨ cause = 7)
    (stage : load32 machine.mem layout.gStage ≠ stageXh3) :
    (userTrap layout platform machine cause tval).halted = true ∧
      (userTrap layout platform machine cause tval).mem =
        recordedMemory layout (savedMemory layout machine.mem machine.regs) cause tval := by
  rw [user_fault_plain layout platform machine cause tval running ready access,
    access_fault_halts layout _ (by rwa [trapped_stage layout machine cause tval ready]),
    ← trapped_memory layout machine cause tval ready]
  exact ⟨rfl, rfl⟩

theorem user_fault_resumes (machine : Machine) (cause tval : Word) (running : machine.halted = false)
    (ready : Ready layout machine) (access : cause = 5 ∨ cause = 7)
    (stage : load32 machine.mem layout.gStage = stageXh3) :
    (userTrap layout platform machine cause tval).halted = false ∧
      (userTrap layout platform machine cause tval).mem =
        recoveredMemory layout (savedMemory layout machine.mem machine.regs) cause := by
  obtain ⟨pc, recovered⟩ := access_fault_recovers layout (trapped machine cause tval) running
    (by rwa [trapped_stage layout machine cause tval ready])
  rw [user_fault_plain layout platform machine cause tval running ready access, recovered,
    ← trapped_memory layout machine cause tval ready]
  exact ⟨running, rfl⟩

end Rp2350Tee.TrapHandler
