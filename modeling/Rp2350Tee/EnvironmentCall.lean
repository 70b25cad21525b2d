import Rp2350Tee.ProtectedBlock

/-!
What U-mode finds after an `ecall`. `trap_entry` keeps the registers of U-mode in
the frame on `g_m_trap_stack` while the service runs, and the trap stack is
memory like any other to the PMP and to the guard of `svc_sign`; and the status
of `SVC_SIGN` is written whether or not `svc_sign` has done anything.
-/

namespace Rp2350Tee.EnvironmentCall

open ByteMemory PmpUnit PmpProgram PmpSetup TrapHandler PmpDrop TrapStack UserView

variable (layout : Layout) (platform : Platform)

/-- The request passes the guard of `svc_sign`. -/
def SignRequest (regs : Regs) : Prop :=
  regs a7 = svcSignNumber ∧ Accepted layout (regs a0) (regs a1)

instance (regs : Regs) : Decidable (SignRequest layout regs) :=
  inferInstanceAs (Decidable (_ ∧ _))

/-- The bus answers for a buffer that is going to be signed. -/
def BufferAnswers (regs : Regs) : Prop :=
  SignRequest layout regs → Responsive platform (regs a0) (regs a1).toNat

instance (regs : Regs) : Decidable (BufferAnswers layout platform regs) :=
  inferInstanceAs (Decidable (_ → _))

theorem key_index (index : Nat) : index % 16 < 16 := Nat.mod_lt index (by decide)

def keyFor (memory : Memory 32) (index : Nat) : Byte :=
  keyBytes memory layout.toPlacement ⟨index % 16, key_index index⟩

def calledMachine (machine : Machine) (step : UStep) : Machine :=
  Machine.restore { trapped (machine.atStep step) 8 0 with
    mem := callMemory layout machine.mem step.regs
    mepc := step.pc + 4 }

theorem call_step (machine : Machine) (step : UStep) (running : machine.halted = false)
    (ready : Ready layout machine) (called : step.op = .ecall)
    (answers : BufferAnswers layout platform step.regs) :
    (userStep layout platform machine step).1 = calledMachine layout machine step := by
  rw [userStep, if_neg (Bool.eq_false_iff.mp running), called]
  exact call_plain layout platform (machine.atStep step) running (ready.at_step layout step)
    fun sign accepted => answers ⟨sign, accepted⟩

theorem called_regs (machine : Machine) (step : UStep) (ready : Ready layout machine) :
    (calledMachine layout machine step).regs =
      loadFrame (callMemory layout machine.mem step.regs) (trapFrame layout) := by
  have frame : (trapped (machine.atStep step) 8 0).sp = trapFrame layout :=
    congrArg (fun top : Word => top - 64) ready.mscratch
  rw [calledMachine, restore_regs]
  exact congrArg (loadFrame (callMemory layout machine.mem step.regs)) frame

theorem called_memory (machine : Machine) (step : UStep) :
    (calledMachine layout machine step).mem = callMemory layout machine.mem step.regs := rfl

theorem called_mscratch (machine : Machine) (step : UStep) (ready : Ready layout machine) :
    (calledMachine layout machine step).mscratch = layout.trapStackTop := by
  change machine.mscratch - 64 + 64 = _
  rw [BitVec.sub_add_cancel, ready.mscratch]

theorem served_counter (memory : Memory 32) (regs : Regs) (counted : regs a7 = svcGetCounter) :
    servedMemory layout memory regs = store32 (savedMemory layout memory regs) layout.counter
      (load32 memory layout.counter + 1) :=
  if_pos counted

theorem served_signed (memory : Memory 32) (regs : Regs) (request : SignRequest layout regs) :
    servedMemory layout memory regs = signedMemory (keyBytes memory layout.toPlacement) (regs a0)
      (regs a1).toNat (savedMemory layout memory regs) := by
  have notCounter : regs a7 ≠ svcGetCounter := by
    rw [request.1]
    decide
  rw [servedMemory, if_neg notCounter]
  exact if_pos request

theorem served_idle (memory : Memory 32) (regs : Regs) (notCounter : regs a7 ≠ svcGetCounter)
    (refused : ¬ SignRequest layout regs) :
    servedMemory layout memory regs = savedMemory layout memory regs := by
  rw [servedMemory, if_neg notCounter]
  exact if_neg refused

/-- The instruction behind the `ecall` finds the registers of the caller, but for `a0`. -/
structure Transparent (step : UStep) (after : Machine) : Prop where
  running : after.halted = false
  regs : ∀ register, register ≠ a0 → after.regs register = step.regs register
  sp : after.sp = step.sp
  mscratch : after.mscratch = layout.trapStackTop
  pc : after.pc = step.pc + 4
  mode : after.mode = .user

/-- Signing leaves the saved registers alone: each byte of the buffer that lies in the frame
above the place of `a0` meets a zero byte of the key. -/
def FrameKept (memory : Memory 32) (regs : Regs) : Prop :=
  SignRequest layout regs → ∀ index < (regs a1).toNat,
    Within (byteAt (trapFrame layout) 4) 60 (byteAt (regs a0) index) → keyFor layout memory index = 0

instance (memory : Memory 32) (regs : Regs) : Decidable (FrameKept layout memory regs) :=
  inferInstanceAs (Decidable (_ → ∀ index < _, _))

theorem combined_same_iff (byte key : Byte) : byte ^^^ key = byte ↔ key = 0 := by
  constructor
  · intro same
    exact (BitVec.xor_right_inj byte).mp (same.trans BitVec.xor_zero.symm)
  · rintro rfl
    exact BitVec.xor_zero

/-- A word of memory survives the signing of a buffer exactly when the bytes it shares with
the buffer meet zero bytes of the key. -/
theorem signed_word_iff (key : Fin 16 → Byte) (buf base : Word) (count : Nat) (memory : Memory 32)
    (bounded : count ≤ 2 ^ 32) :
    load32 (signedMemory key buf count memory) base = load32 memory base ↔
      ∀ index < count, Within base 4 (byteAt buf index) →
        key ⟨index % 16, key_index index⟩ = 0 := by
  rw [load32_eq_iff]
  constructor
  · intro same index below inside
    have byte := same _ inside
    have offset := offset_byteAt buf index (by omega)
    simp only [signedMemory, Within, offset, below, if_true] at byte
    exact (combined_same_iff _ _).mp byte
  · intro zero address inside
    by_cases signed : Within buf count address
    · obtain ⟨index, below, rfl⟩ := (within_iff_index _ _ _).mp signed
      have offset := offset_byteAt buf index (by omega)
      simp only [signedMemory, Within, offset, below, if_true]
      exact (combined_same_iff _ _).mpr (zero index below inside)
    · exact signed_outside key buf address count memory signed

theorem slot_not_status (register : Fin 16) (other : register ≠ a0) (address : Word)
    (inside : Within (frameSlot (trapFrame layout) register) 4 address) :
    ¬ Within (frameSlot (trapFrame layout) a0) 4 address := by
  intro status
  have positive : 0 < register.val := Nat.pos_of_ne_zero fun zero => other (Fin.ext zero)
  exact parts_apart (trapFrame layout) address 0 4 (4 * register.val) 4 (by omega) (by omega) status
    inside

theorem slot_in_frame (register : Fin 16) (address : Word)
    (inside : Within (frameSlot (trapFrame layout) register) 4 address) :
    Within (trapFrame layout) 64 address :=
  within_of_part (trapFrame layout) address (4 * register.val) 4 64 (by omega) inside

theorem saved_part_iff (address : Word) :
    Within (byteAt (trapFrame layout) 4) 60 address ↔
      ∃ register, register ≠ a0 ∧ Within (frameSlot (trapFrame layout) register) 4 address := by
  constructor
  · intro inside
    obtain ⟨index, below, rfl⟩ := (within_iff_index _ _ _).mp inside
    have place : 4 + index = 4 * (index / 4 + 1) + index % 4 := by omega
    refine ⟨⟨index / 4 + 1, by omega⟩, fun same => ?_, ?_⟩
    · exact Nat.succ_ne_zero _ (congrArg Fin.val same)
    · rw [within_iff_index]
      refine ⟨index % 4, Nat.mod_lt _ (by decide), ?_⟩
      rw [frameSlot, byteAt_byteAt, byteAt_byteAt, place]
  · rintro ⟨register, other, inside⟩
    have positive : 0 < register.val := Nat.pos_of_ne_zero fun zero => other (Fin.ext zero)
    obtain ⟨index, below, rfl⟩ := (within_iff_index _ _ _).mp inside
    rw [within_iff_index]
    refine ⟨4 * (register.val - 1) + index, by omega, ?_⟩
    rw [frameSlot, byteAt_byteAt, byteAt_byteAt]
    congr 1
    omega

theorem restored_register_iff (memory : Memory 32) (regs : Regs) (register : Fin 16)
    (other : register ≠ a0) :
    loadFrame (callMemory layout memory regs) (trapFrame layout) register = regs register ↔
      (SignRequest layout regs → ∀ index < (regs a1).toNat,
        Within (frameSlot (trapFrame layout) register) 4 (byteAt (regs a0) index) →
          keyFor layout memory index = 0) := by
  have saved : load32 (savedMemory layout memory regs) (frameSlot (trapFrame layout) register) =
      regs register := saved_register memory (trapFrame layout) regs register
  have status : load32 (callMemory layout memory regs) (frameSlot (trapFrame layout) register) =
      load32 (servedMemory layout memory regs) (frameSlot (trapFrame layout) register) :=
    load32_congr _ _ _ fun address inside =>
      store32_outside _ _ _ _ (slot_not_status layout register other address inside)
  rw [loadFrame, status]
  by_cases counted : regs a7 = svcGetCounter
  · have notSign : ¬ SignRequest layout regs := by
      rintro ⟨sign, _⟩
      exact absurd (counted.symm.trans sign) (by decide)
    rw [served_counter layout memory regs counted]
    refine iff_of_true ?_ fun request => absurd request notSign
    rw [← saved]
    refine load32_congr _ _ _ fun address inside => store32_outside _ _ _ _ fun counter => ?_
    exact prot_not_stack layout address (counter_in_prot layout address counter)
      (frame_in_stack layout address (slot_in_frame layout register address inside))
  by_cases request : SignRequest layout regs
  · have bounded : (regs a1).toNat ≤ 2 ^ 32 := (regs a1).isLt.le
    rw [served_signed layout memory regs request, ← saved, signed_word_iff _ _ _ _ _ bounded]
    exact ⟨fun kept _ => kept, fun kept => kept request⟩
  · rw [served_idle layout memory regs counted request]
    exact iff_of_true saved fun wrong => absurd wrong request

theorem registers_kept_iff (memory : Memory 32) (regs : Regs) :
    (∀ register, register ≠ a0 →
      loadFrame (callMemory layout memory regs) (trapFrame layout) register = regs register) ↔
        FrameKept layout memory regs := by
  constructor
  · intro kept request index below inside
    obtain ⟨register, other, slot⟩ := (saved_part_iff layout _).mp inside
    exact (restored_register_iff layout memory regs register other).mp (kept register other) request
      index below slot
  · intro kept register other
    apply (restored_register_iff layout memory regs register other).mpr
    intro request index below slot
    exact kept request index below ((saved_part_iff layout _).mpr ⟨register, other, slot⟩)

/-- The buffer of a request keeps off the trap stack below the frame, where the compiled
dispatcher and services have their own frames. -/
def HandlerFramesClear (regs : Regs) : Prop :=
  SignRequest layout regs → ∀ index < (regs a1).toNat,
    ¬ Within layout.gMTrapStack 448 (byteAt (regs a0) index)

instance (regs : Regs) : Decidable (HandlerFramesClear layout regs) :=
  inferInstanceAs (Decidable (_ → ∀ index < _, _))

theorem handler_frames_kept (memory : Memory 32) (regs : Regs) (clear : HandlerFramesClear layout regs)
    (address : Word) (inside : Within layout.gMTrapStack 448 address) :
    callMemory layout memory regs address = memory address := by
  have inStack : Within layout.gMTrapStack 512 address := Nat.lt_trans inside (by decide)
  have belowFrame : ¬ Within (trapFrame layout) 64 address := by
    rw [trapFrame_eq]
    apply parts_apart layout.gMTrapStack address 0 448 448 64 (by decide) (by decide)
    rwa [byteAt_zero]
  have saved := saved_outside_frame layout memory regs address belowFrame
  have notStatus : ¬ Within (frameSlot (trapFrame layout) a0) 4 address :=
    fun slot => belowFrame (slot_in_frame layout a0 address slot)
  rw [callMemory, store32_outside _ _ _ _ notStatus]
  by_cases counted : regs a7 = svcGetCounter
  · rw [served_counter layout memory regs counted, store32_outside _ _ _ _ fun counter =>
      prot_not_stack layout address (counter_in_prot layout address counter) inStack, saved]
  by_cases request : SignRequest layout regs
  · have unsigned : ¬ Within (regs a0) (regs a1).toNat address := by
      intro signed
      obtain ⟨index, below, rfl⟩ := (within_iff_index _ _ _).mp signed
      exact clear request index below inside
    rw [served_signed layout memory regs request, signed_outside _ _ _ _ _ unsigned, saved]
  · rw [served_idle layout memory regs counted request, saved]

/-- An environment call that keeps off the frames of the handler itself is transparent exactly
when it does not sign the saved registers. -/
theorem ecall_transparent_iff (machine : Machine) (step : UStep) (running : machine.halted = false)
    (ready : Ready layout machine) (called : step.op = .ecall)
    (answers : BufferAnswers layout platform step.regs)
    (clear : HandlerFramesClear layout step.regs) :
    let after := (userStep layout platform machine step).1
    (∀ address, Within layout.gMTrapStack 448 address → after.mem address = machine.mem address) ∧
      (Transparent layout step after ↔ FrameKept layout machine.mem step.regs) := by
  intro after
  have reached : after = calledMachine layout machine step :=
    call_step layout platform machine step running ready called answers
  rw [reached]
  constructor
  · exact handler_frames_kept layout machine.mem step.regs clear
  · rw [← registers_kept_iff layout machine.mem step.regs, ← called_regs layout machine step ready]
    constructor
    · intro transparent
      exact transparent.regs
    · intro kept
      exact ⟨running, kept, rfl, called_mscratch layout machine step ready, rfl, ready.mode⟩

def signStep (buf len : Word) : UStep where
  regs := Function.update (Function.update (Function.update (fun _ => 0) a7 svcSignNumber) a0 buf) a1 len
  sp := 0x20080000
  pc := 0x20001300
  op := .ecall

/-- A byte of ordinary memory. -/
theorem sign_one_transparent :
    let dropped := main sampleLayout sramBoard secretValue keyValue resetMachine
    let after := (userStep sampleLayout sramBoard dropped (signStep 0x20002000 1)).1
    (∀ address, Within sampleLayout.gMTrapStack 448 address →
        after.mem address = dropped.mem address) ∧
      (Transparent sampleLayout (signStep 0x20002000 1) after ↔
        FrameKept sampleLayout dropped.mem (signStep 0x20002000 1).regs) := by
  have drop := main_at_drop sampleLayout sramBoard secretValue keyValue resetMachine
  refine ecall_transparent_iff sampleLayout sramBoard _ (signStep 0x20002000 1) drop.running drop.ready
    rfl ?_ ?_
  · decide
  · decide

/-- The byte at the place of `a1` in the frame: the caller gets its length back combined with
the first byte of the key. -/
theorem sign_one_over_a1 :
    let dropped := main sampleLayout sramBoard secretValue keyValue resetMachine
    BufferAnswers sampleLayout sramBoard (signStep 0x200002C4 1).regs ∧
      HandlerFramesClear sampleLayout (signStep 0x200002C4 1).regs ∧
      ¬ Transparent sampleLayout (signStep 0x200002C4 1)
        (userStep sampleLayout sramBoard dropped (signStep 0x200002C4 1)).1 := by
  have drop := main_at_drop sampleLayout sramBoard secretValue keyValue resetMachine
  have key := main_key sampleLayout sramBoard secretValue keyValue resetMachine
  have answers : BufferAnswers sampleLayout sramBoard (signStep 0x200002C4 1).regs := by decide
  have request : SignRequest sampleLayout (signStep 0x200002C4 1).regs := by decide
  have hit : Within (frameSlot (trapFrame sampleLayout) a1) 4
      (byteAt ((signStep 0x200002C4 1).regs a0) 0) := by decide
  refine ⟨answers, by decide, fun transparent => ?_⟩
  generalize main sampleLayout sramBoard secretValue keyValue resetMachine = dropped
    at drop key transparent
  have kept := transparent.regs a1 (by decide)
  rw [call_step sampleLayout sramBoard dropped _ drop.running drop.ready rfl answers,
    called_regs sampleLayout dropped _ drop.ready,
    restored_register_iff sampleLayout dropped.mem _ a1 (by decide)] at kept
  have zero := kept request 0 (by decide) hit
  rw [keyFor, key] at zero
  exact absurd zero (by decide)

/-- Every byte of the buffer is combined with its byte of the key, no other memory outside the
trap stack changes, and the call returns 0. -/
structure SignedWhole (before after : Machine) (buf : Word) (count : Nat) : Prop where
  buffer : ∀ index < count,
    after.mem (byteAt buf index) = before.mem (byteAt buf index) ^^^ keyFor layout before.mem index
  elsewhere : ∀ address, ¬ Within layout.gMTrapStack 512 address → ¬ Within buf count address →
    after.mem address = before.mem address
  status : after.regs a0 = 0

/-- No memory outside the trap stack changes, and the call returns something else. -/
structure RefusedWhole (before after : Machine) : Prop where
  memory : ∀ address, ¬ Within layout.gMTrapStack 512 address →
    after.mem address = before.mem address
  status : after.regs a0 ≠ 0

theorem call_status (memory : Memory 32) (regs : Regs) :
    loadFrame (callMemory layout memory regs) (trapFrame layout) a0 = callResult layout memory regs :=
  load32_store32 (servedMemory layout memory regs) (frameSlot (trapFrame layout) a0)
    (callResult layout memory regs) (by decide)

/-- `f->a0 = 0u` whatever `svc_sign` did. -/
theorem sign_status (memory : Memory 32) (regs : Regs) (sign : regs a7 = svcSignNumber) :
    callResult layout memory regs = 0 := by
  have notCounter : regs a7 ≠ svcGetCounter := by
    rw [sign]
    decide
  rw [callResult, if_neg notCounter, if_pos sign]

theorem sign_call_memory (memory : Memory 32) (regs : Regs) (sign : regs a7 = svcSignNumber)
    (address : Word) (outside : ¬ Within layout.gMTrapStack 512 address) :
    callMemory layout memory regs address =
      if Accepted layout (regs a0) (regs a1) then
        signedMemory (keyBytes memory layout.toPlacement) (regs a0) (regs a1).toNat memory address
      else memory address := by
  have notStatus : ¬ Within (frameSlot (trapFrame layout) a0) 4 address := fun slot =>
    outside (frame_in_stack layout address (slot_in_frame layout a0 address slot))
  have notCounter : regs a7 ≠ svcGetCounter := by
    rw [sign]
    decide
  have saved := saved_outside_stack layout memory regs address outside
  rw [callMemory, store32_outside _ _ _ _ notStatus]
  split
  · rename_i accepted
    rw [served_signed layout memory regs ⟨sign, accepted⟩, signedMemory, signedMemory, saved]
  · rename_i refused
    rw [served_idle layout memory regs notCounter fun request => refused request.2, saved]

theorem sign_call_spec (machine : Machine) (step : UStep) (running : machine.halted = false)
    (ready : Ready layout machine) (called : step.op = .ecall)
    (sign : step.regs a7 = svcSignNumber) (answers : BufferAnswers layout platform step.regs) :
    let after := (userStep layout platform machine step).1
    after.regs a0 = 0 ∧
      ∀ address, ¬ Within layout.gMTrapStack 512 address →
        after.mem address = if Accepted layout (step.regs a0) (step.regs a1) then
          signedMemory (keyBytes machine.mem layout.toPlacement) (step.regs a0)
            (step.regs a1).toNat machine.mem address
        else machine.mem address := by
  intro after
  have reached : after = calledMachine layout machine step :=
    call_step layout platform machine step running ready called answers
  constructor
  · rw [reached, called_regs layout machine step ready, call_status, sign_status _ _ _ sign]
  · intro address outside
    rw [reached, called_memory]
    exact sign_call_memory layout machine.mem step.regs sign address outside

/-- `SVC_SIGN` is all or nothing with a status that tells which exactly when the guard lets the
request through or there is nothing to combine with. -/
theorem sign_status_tells_iff (machine : Machine) (step : UStep) (running : machine.halted = false)
    (ready : Ready layout machine) (called : step.op = .ecall)
    (sign : step.regs a7 = svcSignNumber) (answers : BufferAnswers layout platform step.regs)
    (offStack : ∀ index < (step.regs a1).toNat,
      ¬ Within layout.gMTrapStack 512 (byteAt (step.regs a0) index)) :
    let after := (userStep layout platform machine step).1
    (SignedWhole layout machine after (step.regs a0) (step.regs a1).toNat ∨
        RefusedWhole layout machine after) ↔
      Accepted layout (step.regs a0) (step.regs a1) ∨
        ∀ index < (step.regs a1).toNat, keyFor layout machine.mem index = 0 := by
  intro after
  obtain ⟨status, memory⟩ :=
    sign_call_spec layout platform machine step running ready called sign answers
  have reported : (SignedWhole layout machine after (step.regs a0) (step.regs a1).toNat ∨
      RefusedWhole layout machine after) ↔
        SignedWhole layout machine after (step.regs a0) (step.regs a1).toNat :=
    or_iff_left fun refused => refused.status status
  rw [reported]
  by_cases accepted : Accepted layout (step.regs a0) (step.regs a1)
  · refine iff_of_true ⟨?_, ?_, status⟩ (Or.inl accepted)
    · intro index below
      have bound := (step.regs a1).isLt
      have offset := offset_byteAt (step.regs a0) index (by omega)
      rw [memory _ (offStack index below), if_pos accepted]
      simp only [signedMemory, Within, offset, below, if_true]
      rfl
    · intro address outside beyond
      rw [memory address outside, if_pos accepted, signed_outside _ _ _ _ _ beyond]
  · rw [or_iff_right accepted]
    -- the buffer is left as it was, so every byte of the key has to be zero
    have unsigned (address : Word) (outside : ¬ Within layout.gMTrapStack 512 address) :
        after.mem address = machine.mem address := by
      rw [memory address outside, if_neg accepted]
    constructor
    · intro signed index below
      have combined := signed.buffer index below
      rw [unsigned _ (offStack index below)] at combined
      exact (combined_same_iff _ _).mp combined.symm
    · intro zero
      refine ⟨fun index below => ?_, fun address outside _ => unsigned address outside, status⟩
      rw [unsigned _ (offStack index below)]
      exact ((combined_same_iff _ _).mpr (zero index below)).symm

theorem sign_one_reported :
    let dropped := main sampleLayout sramBoard secretValue keyValue resetMachine
    let after := (userStep sampleLayout sramBoard dropped (signStep 0x20002000 1)).1
    (SignedWhole sampleLayout dropped after 0x20002000 1 ∨
        RefusedWhole sampleLayout dropped after) ↔
      Accepted sampleLayout 0x20002000 1 ∨
        ∀ index < 1, keyFor sampleLayout dropped.mem index = 0 := by
  have drop := main_at_drop sampleLayout sramBoard secretValue keyValue resetMachine
  refine sign_status_tells_iff sampleLayout sramBoard _ (signStep 0x20002000 1) drop.running drop.ready
    rfl rfl ?_ ?_
  · decide
  · decide

/-- A buffer of 65 bytes is refused, and the caller is told 0 all the same. -/
theorem refused_sign_reports_success :
    let dropped := main sampleLayout sramBoard secretValue keyValue resetMachine
    let after := (userStep sampleLayout sramBoard dropped (signStep 0x20002000 65)).1
    ¬ (SignedWhole sampleLayout dropped after 0x20002000 65 ∨
      RefusedWhole sampleLayout dropped after) := by
  have drop := main_at_drop sampleLayout sramBoard secretValue keyValue resetMachine
  have key := main_key sampleLayout sramBoard secretValue keyValue resetMachine
  have refused : ¬ Accepted sampleLayout ((signStep 0x20002000 65).regs a0)
      ((signStep 0x20002000 65).regs a1) := by decide
  have answers : BufferAnswers sampleLayout sramBoard (signStep 0x20002000 65).regs := by decide
  have outside : ¬ Within sampleLayout.gMTrapStack 512 (byteAt 0x20002000 0) := by decide
  generalize main sampleLayout sramBoard secretValue keyValue resetMachine = machine at drop key
  intro dropped after
  obtain ⟨status, memory⟩ := sign_call_spec sampleLayout sramBoard machine (signStep 0x20002000 65)
    drop.running drop.ready rfl rfl answers
  rintro (signed | nothing)
  · have combined := signed.buffer 0 (by decide)
    rw [memory _ outside, if_neg refused] at combined
    have zero := (combined_same_iff _ _).mp combined.symm
    rw [keyFor, key] at zero
    exact absurd zero (by decide)
  · exact nothing.status status

end Rp2350Tee.EnvironmentCall
