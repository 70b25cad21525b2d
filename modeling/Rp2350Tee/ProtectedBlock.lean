import Rp2350Tee.UserView

/-!
The protected block over whole runs of U-mode. Every write of a step is either a
U-mode store, which the PMP keeps off the block, or a write of the handler to the
trap frame, the mailbox, the stage flag, the counter or a buffer `svc_sign` has
accepted, of which only the counter lies in the block.
-/

namespace Rp2350Tee.ProtectedBlock

open ByteMemory PmpUnit PmpProgram PmpSetup TrapHandler PmpDrop TrapStack UserView Runs

variable (layout : Layout) (platform : Platform)

def CounterCall (regs : Regs) (op : UOp) : Prop := op = .ecall ∧ regs a7 = svcGetCounter

instance (regs : Regs) (op : UOp) : Decidable (CounterCall regs op) :=
  inferInstanceAs (Decidable (_ ∧ _))

theorem fault_prot (memory : Memory 32) (regs : Regs) (cause tval address : Word)
    (inside : Within layout.gProt 64 address) :
    (faultView layout memory regs cause tval).mem address = memory address := by
  unfold faultView
  split
  · simp only [recoveredMemory]
    rw [prot_stage layout _ _ _ inside, prot_mailbox layout _ _ _ _ (by decide) inside,
      saved_prot layout _ _ _ inside]
  · simp only [recordedMemory]
    rw [prot_mailbox layout _ _ _ _ (by decide) inside, prot_mailbox layout _ _ _ _ (by decide) inside,
      prot_mailbox layout _ _ _ _ (by decide) inside, saved_prot layout _ _ _ inside]

theorem slot_in_stack (address : Word)
    (inside : Within (frameSlot (trapFrame layout) a0) 4 address) :
    Within layout.gMTrapStack 512 address :=
  frame_in_stack layout address (within_of_part (trapFrame layout) address 0 4 64 (by decide) inside)

theorem prot_slot (memory : Memory 32) (value address : Word)
    (inside : Within layout.gProt 64 address) :
    store32 memory (frameSlot (trapFrame layout) a0) value address = memory address :=
  store32_outside _ _ _ _ fun slot =>
    prot_not_stack layout address inside (slot_in_stack layout address slot)

theorem call_prot (memory : Memory 32) (regs : Regs) (address : Word)
    (inside : Within layout.gProt 64 address)
    (notCounted : regs a7 = svcGetCounter → ¬ Within layout.counter 4 address) :
    callMemory layout memory regs address = memory address := by
  rw [callMemory, prot_slot layout _ _ _ inside]
  unfold servedMemory
  split
  · rename_i counted
    rw [store32_outside _ _ _ _ (notCounted counted), saved_prot layout _ _ _ inside]
  split
  · rename_i signed
    have apart : ¬ Within (regs a0) (regs a1).toNat address := by
      rw [within_iff_index]
      rintro ⟨index, below, rfl⟩
      exact accepted_outside layout _ _ signed.2 index below inside
    rw [signed_outside _ _ _ _ _ apart, saved_prot layout _ _ _ inside]
  · exact saved_prot layout _ _ _ inside

theorem granted_outside (access : Access) (base : Word) (count : Nat) (address : Word)
    (granted : userCan layout platform access base count = true)
    (inside : Within layout.gProt 64 address) : ¬ Within base count address := by
  rw [userCan, Bool.and_eq_true, Bool.not_eq_true', touches_false] at granted
  rw [within_iff_index]
  rintro ⟨index, below, rfl⟩
  have clear := granted.1 index below
  rw [protBlock, decide_eq_false_iff_not] at clear
  exact clear inside

/-- An operation of U-mode leaves every byte of the block as it is, but for the counter
when the operation is a counter call. -/
theorem op_prot (memory : Memory 32) (regs : Regs) (op : UOp) (address : Word)
    (inside : Within layout.gProt 64 address)
    (notCounted : CounterCall regs op → ¬ Within layout.counter 4 address) :
    (viewOp layout platform memory regs op).1.mem address = memory address := by
  cases op with
  | load width base =>
      rw [viewOp]
      split
      · rfl
      · exact fault_prot layout memory regs 5 _ address inside
  | store width base value =>
      rw [viewOp]
      split
      · rename_i granted
        apply storeBytes_outside
        rw [storeValue_length]
        exact granted_outside layout platform .write base _ address granted inside
      · exact fault_prot layout memory regs 7 _ address inside
  | ecall => exact call_prot layout memory regs address inside fun counted => notCounted ⟨rfl, counted⟩
  | exception cause =>
      exact (prot_mailbox layout _ _ _ _ (by decide) inside).trans (saved_prot layout _ _ _ inside)

theorem op_counter (memory : Memory 32) (regs : Regs) (op : UOp) :
    load32 (viewOp layout platform memory regs op).1.mem layout.counter =
      load32 memory layout.counter + if CounterCall regs op then 1 else 0 := by
  by_cases counted : CounterCall regs op
  · rw [if_pos counted, counted.1]
    have value : load32 (callMemory layout memory regs) layout.counter =
        load32 (servedMemory layout memory regs) layout.counter :=
      load32_congr _ _ _ fun address inside =>
        prot_slot layout _ _ address (counter_in_prot layout address inside)
    rw [viewOp, value, servedMemory, if_pos counted.2, load32_store32 _ _ _ (by decide)]
  · rw [if_neg counted, add_zero]
    exact load32_congr _ _ _ fun address inside =>
      op_prot layout platform memory regs op address (counter_in_prot layout address inside)
        fun called => absurd called counted

def Counts (machine : Machine) (step : UStep) : Prop :=
  machine.halted = false ∧ CounterCall step.regs step.op

instance (machine : Machine) (step : UStep) : Decidable (Counts machine step) :=
  inferInstanceAs (Decidable (_ ∧ _))

theorem step_memory (machine : Machine) (step : UStep) (runsReady : RunsReady layout machine)
    (quiet : Quiet layout platform machine step) (running : machine.halted = false) :
    (userStep layout platform machine step).1.mem =
      (viewOp layout platform machine.mem step.regs step.op).1.mem := by
  have simulated := congrArg (fun outcome => outcome.1.mem)
    (view_step layout platform machine step runsReady quiet)
  have still : (viewOf machine).halted = false := running
  rw [viewStep, if_neg (Bool.eq_false_iff.mp still)] at simulated
  exact simulated.symm

theorem step_prot (machine : Machine) (step : UStep) (runsReady : RunsReady layout machine)
    (quiet : Quiet layout platform machine step) (address : Word)
    (inside : Within layout.gProt 64 address) (notCounter : ¬ Within layout.counter 4 address) :
    (userStep layout platform machine step).1.mem address = machine.mem address := by
  cases halted : machine.halted with
  | true => rw [userStep, if_pos halted]
  | false =>
      rw [step_memory layout platform machine step runsReady quiet halted]
      exact op_prot layout platform _ _ _ address inside fun _ => notCounter

theorem step_counter (machine : Machine) (step : UStep) (runsReady : RunsReady layout machine)
    (quiet : Quiet layout platform machine step) :
    load32 (userStep layout platform machine step).1.mem layout.counter =
      load32 machine.mem layout.counter + if Counts machine step then 1 else 0 := by
  cases halted : machine.halted with
  | true =>
      have idle : ¬ Counts machine step := fun counts =>
        absurd (counts.1.symm.trans halted) (by decide)
      rw [userStep, if_pos halted, if_neg idle, add_zero]
  | false =>
      rw [step_memory layout platform machine step runsReady quiet halted, op_counter]
      simp only [Counts, halted, true_and]

def counterCalls (machine : Machine) : List UStep → Nat
  | [] => 0
  | step :: rest => (if Counts machine step then 1 else 0) +
      counterCalls (userStep layout platform machine step).1 rest

theorem run_prot (machine : Machine) (steps : List UStep) (runsReady : RunsReady layout machine)
    (quiet : Meets (userStep layout platform) (Quiet layout platform) machine steps) (address : Word)
    (inside : Within layout.gProt 64 address) (notCounter : ¬ Within layout.counter 4 address) :
    (finish (userStep layout platform) machine steps).mem address = machine.mem address := by
  induction steps generalizing machine with
  | nil => rfl
  | cons step rest ih =>
      have tail := ih (userStep layout platform machine step).1
        (user_step_ready layout platform machine step runsReady) quiet.2
      rw [finish, tail]
      exact step_prot layout platform machine step runsReady quiet.1 address inside notCounter

theorem run_counter (machine : Machine) (steps : List UStep) (runsReady : RunsReady layout machine)
    (quiet : Meets (userStep layout platform) (Quiet layout platform) machine steps) :
    load32 (finish (userStep layout platform) machine steps).mem layout.counter =
      load32 machine.mem layout.counter +
        BitVec.ofNat 32 (counterCalls layout platform machine steps) := by
  induction steps generalizing machine with
  | nil => simp [finish, counterCalls]
  | cons step rest ih =>
      have tail := ih (userStep layout platform machine step).1
        (user_step_ready layout platform machine step runsReady) quiet.2
      rw [finish, tail, step_counter layout platform machine step runsReady quiet.1, counterCalls,
        BitVec.ofNat_add, BitVec.add_assoc]
      split <;> rfl

/-- The buffer of an `SVC_SIGN` call that passes the guard answers on the bus and keeps off
the trap stack, where the C code of the handler has its frames. -/
def BufferAllowed (step : UStep) : Prop :=
  step.op = .ecall → step.regs a7 = svcSignNumber → Accepted layout (step.regs a0) (step.regs a1) →
    Responsive platform (step.regs a0) (step.regs a1).toNat ∧
      ∀ index < (step.regs a1).toNat, ¬ Within layout.gMTrapStack 512 (byteAt (step.regs a0) index)

theorem allowed_quiet (machine : Machine) (steps : List UStep)
    (allowed : ∀ step ∈ steps, BufferAllowed layout platform step) :
    Meets (userStep layout platform) (Quiet layout platform) machine steps := by
  induction steps generalizing machine with
  | nil => trivial
  | cons step rest ih =>
      refine ⟨?_, ih _ fun later member => allowed later (List.mem_cons_of_mem step member)⟩
      rintro _ ⟨called, sign, accepted, silent⟩
      exact silent (allowed step List.mem_cons_self called sign accepted).1

/-- After any run of U-mode from the drop the block is as it was, but for the counter, which
has gone up by one for every counter call performed. -/
theorem protected_block_integrity (stored : Word) (key : Fin 16 → Byte) (machine : Machine)
    (steps : List UStep) (allowed : ∀ step ∈ steps, BufferAllowed layout platform step) :
    let drop := main layout platform stored key machine
    let reached := finish (userStep layout platform) drop steps
    (∀ address, Within layout.gProt 64 address → ¬ Within layout.counter 4 address →
      reached.mem address = drop.mem address) ∧
    load32 reached.mem layout.counter = load32 drop.mem layout.counter +
      BitVec.ofNat 32 (counterCalls layout platform drop steps) := by
  have ready := drop_runs_ready layout platform stored key machine
  have quiet := allowed_quiet layout platform (main layout platform stored key machine) steps allowed
  exact ⟨fun address => run_prot layout platform _ steps ready quiet address,
    run_counter layout platform _ steps ready quiet⟩

def counterThenSign : List UStep :=
  [{ regs := Function.update (fun _ => 0) a7 svcGetCounter, sp := 0x20080000, pc := 0x20001300,
     op := .ecall },
   { regs := Function.update (Function.update (Function.update (fun _ => 0) a7 svcSignNumber)
       a0 0x20002000) a1 16, sp := 0x20080000, pc := 0x20001304, op := .ecall }]

theorem integrity_of_counter_then_sign :
    let drop := main sampleLayout sramBoard secretValue keyValue resetMachine
    let reached := finish (userStep sampleLayout sramBoard) drop counterThenSign
    (∀ address, Within sampleLayout.gProt 64 address → ¬ Within sampleLayout.counter 4 address →
      reached.mem address = drop.mem address) ∧
    load32 reached.mem sampleLayout.counter = load32 drop.mem sampleLayout.counter +
      BitVec.ofNat 32 (counterCalls sampleLayout sramBoard drop counterThenSign) := by
  apply protected_block_integrity
  intro step member
  rcases List.mem_cons.mp member with rfl | member
  · intro _ wrong
    exact absurd wrong (by decide)
  · rw [List.mem_singleton] at member
    subst member
    intro _ _ _
    constructor
    · change Responsive sramBoard 0x20002000 16
      decide
    · change ∀ index < 16, ¬ Within sampleLayout.gMTrapStack 512 (byteAt 0x20002000 index)
      decide

end Rp2350Tee.ProtectedBlock
