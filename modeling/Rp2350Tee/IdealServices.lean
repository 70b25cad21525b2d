import Rp2350Tee.MemoryDiff
import Rp2350Tee.ProtectedBlock

/-!
What the services of M-mode are for: a counter that only moves up, and a transform under
a key that nobody holds. The ideal machine keeps the two beside a memory that has no
protected block any more; what the bytes of the block hold in it is never read. As long
as the bus answers for the buffers that `svc_sign` accepts, U-mode cannot tell the
program from the ideal machine.
-/

namespace Rp2350Tee.IdealServices

open ByteMemory PmpUnit PmpProgram PmpSetup TrapHandler PmpDrop TrapStack UserView ProtectedBlock
open MemoryDiff Runs

variable (layout : Layout) (platform : Platform)

structure Ideal where
  mem : Memory 32
  counter : Word
  key : Fin 16 → Byte
  halted : Bool

/-- A service on the ideal machine, and the result it gives. -/
def idealServe (ideal : Ideal) (regs : Regs) : Ideal × Word :=
  if regs a7 = svcGetCounter then
    ({ ideal with counter := ideal.counter + 1 }, ideal.counter + 1)
  else if regs a7 = svcSignNumber then
    (if Accepted layout (regs a0) (regs a1) then
      { ideal with mem := signedMemory ideal.key (regs a0) (regs a1).toNat ideal.mem }
    else ideal, 0)
  else (ideal, 0xFFFFFFFF)

/-- The trap frame stays: U-mode can read the trap stack. -/
def idealCall (ideal : Ideal) (regs : Regs) : Ideal :=
  let served := idealServe layout { ideal with mem := savedMemory layout ideal.mem regs } regs
  { served.1 with mem := store32 served.1.mem (frameSlot (trapFrame layout) a0) served.2 }

def Ideal.show (ideal : Ideal) (view : View) : Ideal :=
  { ideal with mem := view.mem, halted := view.halted }

def idealOp (ideal : Ideal) (regs : Regs) : UOp → Ideal × Observation
  | .load width address =>
      if userCan layout platform .read address width.bytes then
        (ideal, .loaded (loadBytes ideal.mem address width.bytes))
      else (ideal.show (faultView layout ideal.mem regs 5 (platform.mtvalOf address)), .faulted)
  | .store width address value =>
      if userCan layout platform .write address width.bytes then
        ({ ideal with mem := storeBytes ideal.mem address (storeValue width value) }, .stored)
      else (ideal.show (faultView layout ideal.mem regs 7 (platform.mtvalOf address)), .faulted)
  | .ecall =>
      (idealCall layout ideal regs,
        .returned (loadFrame (idealCall layout ideal regs).mem (trapFrame layout)))
  | .exception _ =>
      (ideal.show ⟨store32 (savedMemory layout ideal.mem regs) (layout.mailbox mbStage) 0x0000DEAD,
        true⟩, .faulted)

def idealStep (ideal : Ideal) (step : UStep) : Ideal × Observation :=
  if ideal.halted then (ideal, .stopped) else idealOp layout platform ideal step.regs step.op

def Alike (left right : Memory 32) : Prop :=
  DifferOn (Within layout.gProt 64) (fun _ => False) left right

variable {left right : Memory 32}

theorem alike_refl (memory : Memory 32) : Alike layout memory memory :=
  fun _ _ => ⟨fun _ => id, fun _ => rfl⟩

theorem Alike.eq {layout : Layout} (alike : Alike layout left right) (address : Word)
    (outside : ¬ Within layout.gProt 64 address) : left address = right address :=
  (alike address outside).mpr id

theorem Alike.store32 {layout : Layout} (alike : Alike layout left right) (base value : Word) :
    Alike layout (store32 left base value) (store32 right base value) :=
  DifferOn.store32_kept alike base value (by decide) fun _ _ => id

theorem Alike.saved {layout : Layout} (alike : Alike layout left right) (regs : Regs) :
    Alike layout (savedMemory layout left regs) (savedMemory layout right regs) := by
  have stored := DifferOn.storeWords alike (trapFrame layout) (List.ofFn regs) (by simp)
  rwa [cleared_false] at stored

theorem Alike.signed {layout : Layout} (alike : Alike layout left right) (key : Fin 16 → Byte)
    (buf : Word) (count : Nat) :
    Alike layout (signedMemory key buf count left) (signedMemory key buf count right) := by
  intro address outside
  rw [signedMemory, signedMemory, alike.eq address outside]
  exact ⟨fun _ => id, fun _ => rfl⟩

theorem Alike.counted {layout : Layout} (alike : Alike layout left right) (value : Word) :
    Alike layout (ByteMemory.store32 left layout.counter value) right := by
  intro address outside
  rw [store32_outside _ _ _ _ fun inside => outside (counter_in_prot layout address inside)]
  exact alike address outside

theorem Alike.stage {layout : Layout} (alike : Alike layout left right) :
    load32 left layout.gStage = load32 right layout.gStage :=
  DifferOn.load32_eq alike layout.gStage
    (fun address inside block => prot_not_stage layout address block inside) fun _ _ => id

theorem Alike.frame {layout : Layout} (alike : Alike layout left right) :
    loadFrame left (trapFrame layout) = loadFrame right (trapFrame layout) := by
  funext register
  apply DifferOn.load32_eq alike _ _ fun _ _ => id
  intro address slot block
  have inFrame : Within (trapFrame layout) 64 address :=
    within_of_part (trapFrame layout) address (4 * register.val) 4 64 (by omega) slot
  exact prot_not_stack layout address block (frame_in_stack layout address inFrame)

theorem Alike.fault {layout : Layout} (alike : Alike layout left right) (regs : Regs)
    (cause tval : Word) :
    Alike layout (faultView layout left regs cause tval).mem
        (faultView layout right regs cause tval).mem ∧
      (faultView layout left regs cause tval).halted =
        (faultView layout right regs cause tval).halted := by
  have saved := alike.saved regs
  rw [faultView, faultView, alike.stage]
  split
  · exact ⟨(saved.store32 _ _).store32 _ _, rfl⟩
  · exact ⟨((saved.store32 _ _).store32 _ _).store32 _ _, rfl⟩

structure Represents (view : View) (ideal : Ideal) : Prop where
  mem : Alike layout view.mem ideal.mem
  counter : load32 view.mem layout.counter = ideal.counter
  key : keyBytes view.mem layout.toPlacement = ideal.key
  halted : view.halted = ideal.halted

variable {view : View} {ideal : Ideal}

theorem load_granted_alike (alike : Alike layout left right) (base : Word) (count : Nat)
    (granted : userCan layout platform .read base count = true) :
    loadBytes left base count = loadBytes right base count := by
  rw [DifferOn.loadBytes_iff alike base count]
  · exact fun _ _ => id
  · intro index below block
    rw [userCan, Bool.and_eq_true, Bool.not_eq_true', touches_false] at granted
    have clear := granted.1 index below
    rw [protBlock, decide_eq_false_iff_not] at clear
    exact clear block

theorem represents_call (represents : Represents layout view ideal) (regs : Regs) :
    Alike layout (callMemory layout view.mem regs) (idealCall layout ideal regs).mem := by
  have saved := represents.mem.saved regs
  rw [callMemory, servedMemory, callResult, idealCall, idealServe, represents.counter, represents.key]
  by_cases counted : regs a7 = svcGetCounter
  · simp only [counted, if_true]
    exact (saved.counted _).store32 _ _
  by_cases sign : regs a7 = svcSignNumber
  · by_cases accepted : Accepted layout (regs a0) (regs a1)
    · simp only [sign, accepted, if_true, and_self]
      exact (saved.signed _ _ _).store32 _ _
    · simp only [sign, accepted, if_true, if_false, and_false]
      exact saved.store32 _ _
  · simp only [counted, sign, if_false, false_and]
    exact saved.store32 _ _

theorem ideal_serve_keeps (ideal : Ideal) (regs : Regs) :
    (idealServe layout ideal regs).1.key = ideal.key ∧
      (idealServe layout ideal regs).1.halted = ideal.halted ∧
      (idealServe layout ideal regs).1.counter =
        ideal.counter + if regs a7 = svcGetCounter then 1 else 0 := by
  rw [idealServe]
  by_cases counted : regs a7 = svcGetCounter
  · simp only [counted, if_true, and_self]
  · simp only [counted, if_false, add_zero]
    split
    · split <;> exact ⟨rfl, rfl, rfl⟩
    · exact ⟨rfl, rfl, rfl⟩

theorem ideal_op_services (ideal : Ideal) (regs : Regs) (op : UOp) :
    (idealOp layout platform ideal regs op).1.key = ideal.key ∧
      (idealOp layout platform ideal regs op).1.counter =
        ideal.counter + if CounterCall regs op then 1 else 0 := by
  have idle (other : op ≠ .ecall) : ¬ CounterCall regs op := fun called => other called.1
  cases op with
  | load width address =>
      rw [if_neg (idle (by simp)), add_zero, idealOp]
      split <;> exact ⟨rfl, rfl⟩
  | store width address value =>
      rw [if_neg (idle (by simp)), add_zero, idealOp]
      split <;> exact ⟨rfl, rfl⟩
  | ecall =>
      obtain ⟨key, _, counter⟩ := ideal_serve_keeps layout
        { ideal with mem := savedMemory layout ideal.mem regs } regs
      refine ⟨key, counter.trans (congrArg (ideal.counter + ·) ?_)⟩
      exact if_congr ⟨fun counted => ⟨rfl, counted⟩, And.right⟩ rfl rfl
  | exception cause =>
      rw [if_neg (idle (by simp)), add_zero]
      exact ⟨rfl, rfl⟩

theorem key_not_counter (index : Fin 16) (inside : Within layout.counter 4 (byteAt layout.key index.val)) :
    False :=
  parts_apart layout.gProt _ 4 4 8 16 (by decide) (by decide) inside
    (within_byteAt _ 16 _ index.isLt (by omega))

theorem represents_op (represents : Represents layout view ideal) (regs : Regs) (op : UOp)
    (running : view.halted = false) :
    (viewOp layout platform view.mem regs op).2 = (idealOp layout platform ideal regs op).2 ∧
      Represents layout (viewOp layout platform view.mem regs op).1
        (idealOp layout platform ideal regs op).1 := by
  have services := ideal_op_services layout platform ideal regs op
  have counter := op_counter layout platform view.mem regs op
  have key : keyBytes (viewOp layout platform view.mem regs op).1.mem layout.toPlacement =
      keyBytes view.mem layout.toPlacement :=
    funext fun index => op_prot layout platform view.mem regs op _ (key_in_prot layout index)
      fun _ => key_not_counter layout index
  rw [represents.counter, ← services.2] at counter
  rw [represents.key, ← services.1] at key
  have stopped : ideal.halted = false := represents.halted.symm.trans running
  suffices shown : (viewOp layout platform view.mem regs op).2 =
        (idealOp layout platform ideal regs op).2 ∧
      Alike layout (viewOp layout platform view.mem regs op).1.mem
        (idealOp layout platform ideal regs op).1.mem ∧
      (viewOp layout platform view.mem regs op).1.halted =
        (idealOp layout platform ideal regs op).1.halted from
    ⟨shown.1, shown.2.1, counter, key, shown.2.2⟩
  cases op with
  | load width address =>
      rw [viewOp, idealOp]
      split
      · rename_i granted
        exact ⟨congrArg _ (load_granted_alike layout platform represents.mem address _ granted),
          represents.mem, stopped.symm⟩
      · exact ⟨rfl, represents.mem.fault regs 5 _⟩
  | store width address value =>
      rw [viewOp, idealOp]
      split
      · have stored := DifferOn.storeBytes represents.mem address (storeValue width value)
          (by rw [storeValue_length]; cases width <;> decide)
        rw [cleared_false] at stored
        exact ⟨rfl, stored, stopped.symm⟩
      · exact ⟨rfl, represents.mem.fault regs 7 _⟩
  | ecall =>
      have called := represents_call layout represents regs
      have kept := (ideal_serve_keeps layout
        { ideal with mem := savedMemory layout ideal.mem regs } regs).2.1
      exact ⟨congrArg _ called.frame, called, stopped.symm.trans kept.symm⟩
  | exception cause =>
      exact ⟨rfl, (represents.mem.saved regs).store32 _ _, rfl⟩

theorem represents_step (represents : Represents layout view ideal) (step : UStep) :
    (viewStep layout platform view step).2 = (idealStep layout platform ideal step).2 ∧
      Represents layout (viewStep layout platform view step).1
        (idealStep layout platform ideal step).1 := by
  rw [viewStep, idealStep, ← represents.halted]
  split
  · exact ⟨rfl, represents⟩
  · rename_i running
    exact represents_op layout platform represents step.regs step.op (Bool.eq_false_iff.mpr running)

structure Realises (machine : Machine) (ideal : Ideal) : Prop where
  ready : RunsReady layout machine
  represents : Represents layout (viewOf machine) ideal

theorem realises_step {machine : Machine} (realises : Realises layout machine ideal) (step : UStep)
    (quiet : Quiet layout platform machine step) :
    (userStep layout platform machine step).2 = (idealStep layout platform ideal step).2 ∧
      Realises layout (userStep layout platform machine step).1
        (idealStep layout platform ideal step).1 := by
  have simulated := view_step layout platform machine step realises.ready quiet
  have related := represents_step layout platform realises.represents step
  rw [simulated] at related
  exact ⟨related.1, user_step_ready layout platform machine step realises.ready, related.2⟩

theorem main_realises (stored : Word) (key : Fin 16 → Byte) (machine : Machine) (shared : Memory 32)
    (alike : Alike layout (main layout platform stored key machine).mem shared) :
    Realises layout (main layout platform stored key machine) ⟨shared, 0, key, false⟩ :=
  ⟨drop_runs_ready layout platform stored key machine, alike,
    main_counter layout platform stored key machine, main_key layout platform stored key machine,
    (main_at_drop layout platform stored key machine).running⟩

/-- Over every run of U-mode whose accepted buffers the bus answers for, the program with its
PMP, trap trampoline and dispatcher shows U-mode what the ideal machine shows it, and
holds the ideal counter and key in the block. -/
theorem program_realises_ideal (stored : Word) (key : Fin 16 → Byte) (machine : Machine)
    (shared : Memory 32) (alike : Alike layout (main layout platform stored key machine).mem shared)
    (steps : List UStep)
    (quiet : Meets (userStep layout platform) (Quiet layout platform)
      (main layout platform stored key machine) steps) :
    let start : Ideal := ⟨shared, 0, key, false⟩
    let final := finish (userStep layout platform) (main layout platform stored key machine) steps
    trace (userStep layout platform) (main layout platform stored key machine) steps =
        trace (idealStep layout platform) start steps ∧
      Represents layout (viewOf final) (finish (idealStep layout platform) start steps) := by
  obtain ⟨same, realises⟩ := related_run (userStep layout platform) (idealStep layout platform)
    (Realises layout) (Quiet layout platform)
    (fun _ _ step realises quiet => realises_step layout platform realises step quiet) _ _ steps
    (main_realises layout platform stored key machine shared alike) quiet
  exact ⟨same, realises.represents⟩

def blanked (memory : Memory 32) : Memory 32 :=
  fun address => if Within layout.gProt 64 address then 0 else memory address

theorem blanked_alike (memory : Memory 32) : Alike layout memory (blanked layout memory) := by
  intro address outside
  rw [blanked, if_neg outside]
  exact ⟨fun _ => id, fun _ => rfl⟩

def callThenRead : List UStep :=
  [⟨fun _ => 0, 0x20081000, 0x20001400, .ecall⟩,
    ⟨fun _ => 0, 0x20081000, 0x20001404, .load .word 0x20000000⟩]

theorem call_then_read_ideal :
    let machine := main sampleLayout flatBoard secretValue keyValue resetMachine
    let start : Ideal := ⟨blanked sampleLayout machine.mem, 0, keyValue, false⟩
    let final := finish (userStep sampleLayout flatBoard) machine callThenRead
    trace (userStep sampleLayout flatBoard) machine callThenRead =
        trace (idealStep sampleLayout flatBoard) start callThenRead ∧
      Represents sampleLayout (viewOf final)
        (finish (idealStep sampleLayout flatBoard) start callThenRead) :=
  program_realises_ideal sampleLayout flatBoard secretValue keyValue resetMachine
    (blanked sampleLayout (main sampleLayout flatBoard secretValue keyValue resetMachine).mem)
    (blanked_alike sampleLayout _) callThenRead
    (meets_of_forall _ _ (flat_quiet sampleLayout flatBoard fun _ _ => rfl) _ _)

end Rp2350Tee.IdealServices
