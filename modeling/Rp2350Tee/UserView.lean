import Rp2350Tee.TrapStack

/-!
The machine as U-mode can tell: a memory and whether anything still runs.
`viewStep` says what every operation does to them, with no trap register, PMP
entry or stack pointer left; as long as the bus answers for the buffers that
`svc_sign` accepts, the machine does exactly that.
-/

namespace Rp2350Tee.UserView

open ByteMemory PmpUnit PmpProgram PmpSetup TrapHandler PmpDrop TrapStack Runs

variable (layout : Layout) (platform : Platform)

structure View where
  mem : Memory 32
  halted : Bool

def viewOf (machine : Machine) : View := ⟨machine.mem, machine.halted⟩

/-- U-mode may reach everything but the protected block, where the bus answers. -/
def userCan (access : Access) (base : Word) (count : Nat) : Bool :=
  !touches (protBlock layout) base count &&
    (List.range count).all fun index => platform.responds access (byteAt base index)

def faultView (memory : Memory 32) (regs : Regs) (cause tval : Word) : View :=
  if load32 memory layout.gStage = stageXh3 then
    ⟨recoveredMemory layout (savedMemory layout memory regs) cause, false⟩
  else ⟨recordedMemory layout (savedMemory layout memory regs) cause tval, true⟩

def servedMemory (memory : Memory 32) (regs : Regs) : Memory 32 :=
  let saved := savedMemory layout memory regs
  if regs a7 = svcGetCounter then
    store32 saved layout.counter (load32 memory layout.counter + 1)
  else if regs a7 = svcSignNumber ∧ Accepted layout (regs a0) (regs a1) then
    signedMemory (keyBytes memory layout.toPlacement) (regs a0) (regs a1).toNat saved
  else saved

def callResult (memory : Memory 32) (regs : Regs) : Word :=
  if regs a7 = svcGetCounter then load32 memory layout.counter + 1
  else if regs a7 = svcSignNumber then 0
  else 0xFFFFFFFF

def callMemory (memory : Memory 32) (regs : Regs) : Memory 32 :=
  store32 (servedMemory layout memory regs) (frameSlot (trapFrame layout) a0)
    (callResult layout memory regs)

def viewOp (memory : Memory 32) (regs : Regs) : UOp → View × Observation
  | .load width address =>
      if userCan layout platform .read address width.bytes then
        (⟨memory, false⟩, .loaded (loadBytes memory address width.bytes))
      else (faultView layout memory regs 5 (platform.mtvalOf address), .faulted)
  | .store width address value =>
      if userCan layout platform .write address width.bytes then
        (⟨storeBytes memory address (storeValue width value), false⟩, .stored)
      else (faultView layout memory regs 7 (platform.mtvalOf address), .faulted)
  | .ecall =>
      (⟨callMemory layout memory regs, false⟩,
        .returned (loadFrame (callMemory layout memory regs) (trapFrame layout)))
  | .exception _ =>
      (⟨store32 (savedMemory layout memory regs) (layout.mailbox mbStage) 0x0000DEAD, true⟩, .faulted)

theorem load_granted (memory : Memory 32) (regs : Regs) (width : Width) (address : Word)
    (granted : userCan layout platform .read address width.bytes = true) :
    viewOp layout platform memory regs (.load width address) =
      (⟨memory, false⟩, .loaded (loadBytes memory address width.bytes)) :=
  if_pos granted

def viewStep (view : View) (step : UStep) : View × Observation :=
  if view.halted then (view, .stopped) else viewOp layout platform view.mem step.regs step.op

theorem ready_access (machine : Machine) (ready : Ready layout machine) (access : Access)
    (base : Word) (count : Nat) (positive : 0 < count) :
    machine.canAccess platform machine.mode access base count =
      userCan layout platform access base count := by
  rw [Machine.canAccess, ready.mode, ready.isolated.pair.user_grants access base count positive,
    userCan]

theorem saved_key (memory : Memory 32) (regs : Regs) :
    keyBytes (savedMemory layout memory regs) layout.toPlacement = keyBytes memory layout.toPlacement :=
  funext fun index => saved_prot layout memory regs _ (key_in_prot layout index)

theorem saved_counter (memory : Memory 32) (regs : Regs) :
    load32 (savedMemory layout memory regs) layout.counter = load32 memory layout.counter :=
  load32_congr _ _ _ fun address inside =>
    saved_prot layout memory regs address (counter_in_prot layout address inside)

theorem fault_view (machine : Machine) (cause tval : Word) (running : machine.halted = false)
    (ready : Ready layout machine) (access : cause = 5 ∨ cause = 7) :
    viewOf (userTrap layout platform machine cause tval) =
      faultView layout machine.mem machine.regs cause tval := by
  rw [faultView, viewOf]
  split
  · rename_i stage
    obtain ⟨halted, memory⟩ :=
      user_fault_resumes layout platform machine cause tval running ready access stage
    rw [halted, memory]
  · rename_i stage
    obtain ⟨halted, memory⟩ :=
      user_fault_caught layout platform machine cause tval running ready access stage
    rw [halted, memory]

theorem serve_call_plain (machine : Machine) (running : machine.halted = false)
    (ready : Ready layout machine)
    (quiet : machine.regs a7 = svcSignNumber → Accepted layout (machine.regs a0) (machine.regs a1) →
      Responsive platform (machine.regs a0) (machine.regs a1).toNat) :
    serveCall layout platform (trapFrame layout) (trapped machine 8 0) =
      withMem (trapped machine 8 0) (callMemory layout machine.mem machine.regs) := by
  have memory := trapped_memory layout machine 8 0 ready
  rw [callMemory, callResult, servedMemory]
  by_cases counter : machine.regs a7 = svcGetCounter
  · rw [serve_get_counter layout platform machine 0 ready counter, memory, saved_counter]
    simp only [counter, if_true]
  by_cases sign : machine.regs a7 = svcSignNumber
  · have notCounter : ¬ svcSignNumber = svcGetCounter := by decide
    rw [serve_sign_plain layout platform machine 0 running ready sign (quiet sign), memory, saved_key]
    simp only [sign, if_neg notCounter, true_and, if_true]
  · rw [serve_unknown layout platform machine 0 ready counter sign, memory]
    simp only [if_neg counter, sign, false_and, if_false]

theorem restore_regs (machine : Machine) :
    machine.restore.regs = loadFrame machine.mem machine.sp := rfl

theorem call_plain (machine : Machine) (running : machine.halted = false)
    (ready : Ready layout machine)
    (quiet : machine.regs a7 = svcSignNumber → Accepted layout (machine.regs a0) (machine.regs a1) →
      Responsive platform (machine.regs a0) (machine.regs a1).toNat) :
    userTrap layout platform machine 8 0 =
      Machine.restore { trapped machine 8 0 with
        mem := callMemory layout machine.mem machine.regs
        mepc := machine.pc + 4 } := by
  have served : (withMem (trapped machine 8 0) (callMemory layout machine.mem machine.regs)).halted =
      false := running
  rw [user_trap_plain layout platform machine 8 0 running ready, trapDispatch,
    if_pos (show (trapped machine 8 0).mcause = 8 from rfl),
    serve_call_plain layout platform machine running ready quiet, Machine.skipCall,
    if_neg (Bool.eq_false_iff.mp served)]
  exact if_neg (Bool.eq_false_iff.mp served)

theorem call_view (machine : Machine) (running : machine.halted = false)
    (ready : Ready layout machine)
    (quiet : machine.regs a7 = svcSignNumber → Accepted layout (machine.regs a0) (machine.regs a1) →
      Responsive platform (machine.regs a0) (machine.regs a1).toNat) :
    viewOf (userTrap layout platform machine 8 0) =
        ⟨callMemory layout machine.mem machine.regs, false⟩ ∧
      (userTrap layout platform machine 8 0).regs =
        loadFrame (callMemory layout machine.mem machine.regs) (trapFrame layout) := by
  have frame : (trapped machine 8 0).sp = trapFrame layout :=
    congrArg (fun top : Word => top - 64) ready.mscratch
  have left := call_plain layout platform machine running ready quiet
  have returned : (userTrap layout platform machine 8 0).halted = false := by
    rw [left]
    exact running
  refine ⟨?_, ?_⟩
  · rw [viewOf, returned, left]
    rfl
  · rw [left, restore_regs]
    exact congrArg (loadFrame (callMemory layout machine.mem machine.regs)) frame

theorem exception_view (machine : Machine) (cause : OtherException) (running : machine.halted = false)
    (ready : Ready layout machine) :
    viewOf (userTrap layout platform machine cause.code 0) =
      ⟨store32 (savedMemory layout machine.mem machine.regs) (layout.mailbox mbStage) 0x0000DEAD,
        true⟩ := by
  have notCall : (trapped machine cause.code 0).mcause ≠ 8 := by
    change cause.code ≠ 8
    cases cause <;> decide
  have notAccess : ¬ ((trapped machine cause.code 0).mcause = 5 ∨
      (trapped machine cause.code 0).mcause = 7) := by
    change ¬ (cause.code = 5 ∨ cause.code = 7)
    cases cause <;> decide
  rw [user_trap_plain layout platform machine cause.code 0 running ready, trapDispatch,
    if_neg notCall, if_neg notAccess, ← trapped_memory layout machine cause.code 0 ready]
  rfl

theorem view_op (machine : Machine) (op : UOp) (running : machine.halted = false)
    (ready : Ready layout machine)
    (quiet : op = .ecall → machine.regs a7 = svcSignNumber →
      Accepted layout (machine.regs a0) (machine.regs a1) →
      Responsive platform (machine.regs a0) (machine.regs a1).toNat) :
    viewOp layout platform machine.mem machine.regs op =
      (viewOf (userOp layout platform machine op).1, (userOp layout platform machine op).2) := by
  cases op with
  | load width address =>
      rw [viewOp, userOp,
        ready_access layout platform machine ready .read address width.bytes (width_positive width)]
      split
      · rw [viewOf, running]
      · rw [fault_view layout platform machine 5 _ running ready (Or.inl rfl)]
  | store width address value =>
      rw [viewOp, userOp,
        ready_access layout platform machine ready .write address width.bytes (width_positive width)]
      split
      · rw [viewOf, running]
      · rw [fault_view layout platform machine 7 _ running ready (Or.inr rfl)]
  | ecall =>
      obtain ⟨view, regs⟩ := call_view layout platform machine running ready (quiet rfl)
      have halted : (userTrap layout platform machine 8 0).halted = false := congrArg View.halted view
      rw [viewOp, userOp, view, ← regs, if_neg (Bool.eq_false_iff.mp halted)]
  | exception cause => rw [viewOp, userOp, exception_view layout platform machine cause running ready]

/-- No service call of a running machine meets a buffer that `svc_sign` accepts and the bus
does not answer for. -/
def Quiet (machine : Machine) (step : UStep) : Prop :=
  machine.halted = false → ¬ BusFault layout platform step

theorem flat_quiet (flat : ∀ access address, platform.responds access address = true)
    (machine : Machine) (step : UStep) : Quiet layout platform machine step :=
  fun _ fault => fault.2.2.2 fun _ _ => ⟨flat .read _, flat .write _⟩

theorem view_step (machine : Machine) (step : UStep) (runsReady : RunsReady layout machine)
    (quiet : Quiet layout platform machine step) :
    viewStep layout platform (viewOf machine) step =
      (viewOf (userStep layout platform machine step).1,
        (userStep layout platform machine step).2) := by
  cases halted : machine.halted with
  | true =>
      have still : (viewOf machine).halted = true := halted
      rw [viewStep, if_pos still, userStep, if_pos halted]
  | false =>
      have ready := (runsReady halted).at_step layout step
      have running : (viewOf machine).halted = false := halted
      rw [viewStep, if_neg (Bool.eq_false_iff.mp running), userStep,
        if_neg (Bool.eq_false_iff.mp halted)]
      apply view_op layout platform (machine.atStep step) step.op halted ready
      intro called sign accepted
      by_contra silent
      exact quiet halted ⟨called, sign, accepted, silent⟩

theorem running_step (machine : Machine) (step : UStep) (runsReady : RunsReady layout machine)
    (running : machine.halted = false) (quiet : Quiet layout platform machine step) :
    viewOp layout platform machine.mem step.regs step.op =
      (viewOf (userStep layout platform machine step).1,
        (userStep layout platform machine step).2) := by
  have simulated := view_step layout platform machine step runsReady quiet
  have still : (viewOf machine).halted = false := running
  rwa [viewStep, if_neg (Bool.eq_false_iff.mp still)] at simulated

end Rp2350Tee.UserView
