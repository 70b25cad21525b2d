import Rp2350Tee.TrapStack

/-!
What becomes of an access fault of U-mode, whether the PMP denies the access or
the bus does not answer it. `trap_dispatch` decides by `g_stage` alone, a word
U-mode may write: it stops the machine unless U-mode has put the value of M-mode's
self-test there.
-/

namespace Rp2350Tee.IsolationFault

open ByteMemory PmpUnit PmpProgram PmpSetup TrapHandler PmpDrop TrapStack Runs

variable (layout : Layout) (platform : Platform)

/-- A load or store of U-mode that the PMP denies or that nothing on the bus answers. -/
def AccessFault (machine : Machine) : UOp → Prop
  | .load width address => machine.canAccess platform .user .read address width.bytes = false
  | .store width address _ => machine.canAccess platform .user .write address width.bytes = false
  | _ => False

/-- In particular every access that the PMP denies. -/
theorem denied_faults (machine : Machine) (width : Width) (address value : Word) :
    (machine.pmp.grants .user .read address width.bytes = false →
      AccessFault platform machine (.load width address)) ∧
    (machine.pmp.grants .user .write address width.bytes = false →
      AccessFault platform machine (.store width address value)) :=
  ⟨fun denied => Bool.and_eq_false_iff.mpr (Or.inl denied),
    fun denied => Bool.and_eq_false_iff.mpr (Or.inl denied)⟩

def faultCause : UOp → Word
  | .store _ _ _ => 7
  | _ => 5

/-- The fault is recorded in the mailbox and the machine has stopped, which the recovery branch
never does. -/
structure Caught (op : UOp) (machine : Machine) : Prop where
  halted : machine.halted = true
  cause : load32 machine.mem (layout.mailbox mbMcause) = faultCause op
  stage : load32 machine.mem (layout.mailbox mbStage) = 0x0000600D

/-- If this step is an access fault it is caught, and no later step of U-mode happens. -/
def FaultStops (machine : Machine) (step : UStep) : Prop :=
  machine.halted = false → AccessFault platform machine step.op →
    Caught layout step.op (userStep layout platform machine step).1 ∧
      ∀ later, ∀ observation ∈
        trace (userStep layout platform) (userStep layout platform machine step).1 later,
        observation = .stopped

/-- If this step is an access fault, the stage flag does not read `STAGE_XH3`. -/
def StageKept (machine : Machine) (step : UStep) : Prop :=
  machine.halted = false → AccessFault platform machine step.op →
    load32 machine.mem layout.gStage ≠ stageXh3

theorem mailbox_apart (first second : Nat) (ordered : first < second) (small : second < 16)
    (memory : Memory 32) (value address : Word) (inside : Within (layout.mailbox first) 4 address) :
    store32 memory (layout.mailbox second) value address = memory address :=
  store32_outside _ _ _ _
    (parts_apart layout.gMb address (4 * first) 4 (4 * second) 4 (by omega) (by omega) inside)

theorem recorded_cause (memory : Memory 32) (cause tval : Word) :
    load32 (recordedMemory layout memory cause tval) (layout.mailbox mbMcause) = cause := by
  have kept : load32 (recordedMemory layout memory cause tval) (layout.mailbox mbMcause) =
      load32 (store32 memory (layout.mailbox mbMcause) cause) (layout.mailbox mbMcause) := by
    apply load32_congr
    intro address inside
    rw [recordedMemory, mailbox_apart layout mbMcause mbStage (by decide) (by decide) _ _ _ inside,
      mailbox_apart layout mbMcause mbMtval (by decide) (by decide) _ _ _ inside]
  rw [kept, load32_store32 _ _ _ (by decide)]

theorem recorded_stage (memory : Memory 32) (cause tval : Word) :
    load32 (recordedMemory layout memory cause tval) (layout.mailbox mbStage) = 0x0000600D :=
  load32_store32 _ _ _ (by decide)

theorem fault_traps (machine : Machine) (op : UOp) (ready : Ready layout machine)
    (fault : AccessFault platform machine op) :
    ∃ tval, (userOp layout platform machine op).1 =
        userTrap layout platform machine (faultCause op) tval ∧
      (faultCause op = 5 ∨ faultCause op = 7) := by
  cases op with
  | load width address =>
      rw [userOp, ready.mode, show machine.canAccess platform .user _ _ _ = false from fault]
      exact ⟨_, rfl, Or.inl rfl⟩
  | store width address value =>
      rw [userOp, ready.mode, show machine.canAccess platform .user _ _ _ = false from fault]
      exact ⟨_, rfl, Or.inr rfl⟩
  | ecall => exact fault.elim
  | exception cause => exact fault.elim

theorem halted_trace (machine : Machine) (steps : List UStep) (halted : machine.halted = true) :
    ∀ observation ∈ trace (userStep layout platform) machine steps, observation = .stopped := by
  induction steps with
  | nil => simp [trace]
  | cons step rest ih =>
      have still : userStep layout platform machine step = (machine, .stopped) := if_pos halted
      rw [trace, still]
      simpa using ih

theorem step_stops_iff (machine : Machine) (step : UStep) (runsReady : RunsReady layout machine) :
    FaultStops layout platform machine step ↔ StageKept layout platform machine step := by
  refine forall_congr' fun running => forall_congr' fun fault => ?_
  have ready := (runsReady running).at_step layout step
  obtain ⟨tval, trap, access⟩ := fault_traps layout platform (machine.atStep step) step.op ready fault
  have outcome : (userStep layout platform machine step).1 =
      userTrap layout platform (machine.atStep step) (faultCause step.op) tval := by
    rw [userStep, if_neg (by rw [running]; decide), trap]
  rw [outcome]
  constructor
  · rintro ⟨caught, _⟩ stage
    have resumed := user_fault_resumes layout platform (machine.atStep step) _ tval running ready
      access stage
    exact absurd (caught.halted.symm.trans resumed.1) (by decide)
  · intro stage
    obtain ⟨halted, memory⟩ := user_fault_caught layout platform (machine.atStep step) _ tval running
      ready access stage
    refine ⟨⟨halted, ?_, ?_⟩, fun later => halted_trace layout platform _ later halted⟩
    · rw [memory, recorded_cause]
    · rw [memory, recorded_stage]

/-- In a run from reset every access fault of U-mode is recorded and stops the machine for good,
and none takes the recovery branch, if and only if at each of them the stage flag holds something
other than `STAGE_XH3`. -/
theorem access_faults_stop_iff (stored : Word) (key : Fin 16 → Byte) (machine : Machine)
    (steps : List UStep) :
    Meets (userStep layout platform) (FaultStops layout platform)
        (main layout platform stored key machine) steps ↔
      Meets (userStep layout platform) (StageKept layout platform)
        (main layout platform stored key machine) steps :=
  meets_iff (userStep layout platform) _ _ (RunsReady layout) (step_stops_iff layout platform)
    (fun machine step runsReady _ => user_step_ready layout platform machine step runsReady) _ steps
    (drop_runs_ready layout platform stored key machine)

def setStage : UStep where
  regs _ := 0
  sp := 0x20080000
  pc := 0x20001300
  op := .store .word 0x20000080 stageXh3

def readProtected : UStep where
  regs _ := 0
  sp := 0x20080000
  pc := 0x20001304
  op := .load .word 0x20000000

theorem set_stage_stores (machine : Machine) (running : machine.halted = false)
    (ready : Ready sampleLayout machine) :
    (userStep sampleLayout flatBoard machine setStage).1 =
      withMem (machine.atStep setStage) (store32 machine.mem sampleLayout.gStage stageXh3) := by
  have outside : touches (protBlock sampleLayout) 0x20000080 4 = false := by decide
  have granted : machine.pmp.grants .user .write 0x20000080 4 = true := by
    rw [ready.isolated.pair.user_grants .write _ 4 (by decide), outside]
    rfl
  have allowed : (machine.atStep setStage).canAccess flatBoard (machine.atStep setStage).mode .write
      0x20000080 4 = true := by
    rw [Machine.canAccess, (ready.at_step _ setStage).mode]
    exact (congrArg (· && _) granted).trans (by decide)
  rw [userStep, if_neg (by rw [running]; decide)]
  exact congrArg Prod.fst (if_pos allowed)

/-- After that store the read of the secret by U-mode is resumed from. -/
theorem flag_write_defeats_halt :
    ¬ Meets (userStep sampleLayout flatBoard) (FaultStops sampleLayout flatBoard)
      (main sampleLayout flatBoard secretValue keyValue resetMachine) [setStage, readProtected] := by
  have drop := main_at_drop sampleLayout flatBoard secretValue keyValue resetMachine
  generalize main sampleLayout flatBoard secretValue keyValue resetMachine = dropped at drop
  have stored := set_stage_stores dropped drop.running drop.ready
  rintro ⟨_, stops, _⟩
  have kept := (step_stops_iff sampleLayout flatBoard _ readProtected
    (user_step_ready sampleLayout flatBoard dropped setStage fun _ => drop.ready)).mp stops
  rw [stored] at kept
  have fault : AccessFault flatBoard (withMem (dropped.atStep setStage)
      (store32 dropped.mem sampleLayout.gStage stageXh3)) readProtected.op := by
    have inside : touches (protBlock sampleLayout) 0x20000000 4 = true := by decide
    apply (denied_faults flatBoard _ .word 0x20000000 0).1
    change dropped.pmp.grants .user .read 0x20000000 4 = false
    rw [drop.ready.isolated.pair.user_grants .read _ 4 (by decide), inside]
    rfl
  exact kept drop.running fault (load32_store32 _ _ _ (by decide))

end Rp2350Tee.IsolationFault
