import Rp2350Tee.PmpDrop
import Rp2350Tee.Runs

/-!
The trampoline's exchange of `sp` and `mscratch`. Whatever the dispatcher and
the services do in between, M-mode code that returns leaves both where it found
them, so `mscratch` holds the top of `g_m_trap_stack` whenever U-mode runs; it
holds the stack pointer of U-mode while an environment call is being serviced.
-/

namespace Rp2350Tee.TrapStack

open ByteMemory PmpUnit PmpProgram PmpSetup TrapHandler PmpDrop Runs

variable (layout : Layout) (platform : Platform)

/-- The registers that decide where a trap goes and what the PMP allows are as before. -/
structure Kept (before after : Machine) : Prop where
  sp : after.sp = before.sp
  mscratch : after.mscratch = before.mscratch
  pmpaddr : after.pmp.pmpaddr = before.pmp.pmpaddr
  pmpcfg : after.pmp.pmpcfg = before.pmp.pmpcfg
  pmpcfgm0 : after.pmp.pmpcfgm0 = before.pmp.pmpcfgm0 ∨ after.pmp.pmpcfgm0 = 0
  mpp : after.mpp = before.mpp ∨ after.mpp = .user

theorem Kept.refl (machine : Machine) : Kept machine machine :=
  ⟨rfl, rfl, rfl, rfl, Or.inl rfl, Or.inl rfl⟩

theorem Kept.trans {first second third : Machine} (one : Kept first second)
    (two : Kept second third) : Kept first third where
  sp := two.sp.trans one.sp
  mscratch := two.mscratch.trans one.mscratch
  pmpaddr := two.pmpaddr.trans one.pmpaddr
  pmpcfg := two.pmpcfg.trans one.pmpcfg
  pmpcfgm0 := by
    rcases two.pmpcfgm0 with same | zero
    · rw [same]; exact one.pmpcfgm0
    · exact Or.inr zero
  mpp := by
    rcases two.mpp with same | user
    · rw [same]; exact one.mpp
    · exact Or.inr user

/-- The traps taken between two machines, all of them on a stack pointer from `sps`. Code
that returned kept the trap registers, and nothing runs on a halted machine. -/
structure Effect (sps : Word → Prop) (before after : Machine) : Prop where
  traps : ∃ taken, after.traps = before.traps ++ taken ∧ ∀ record ∈ taken, sps record.sp
  kept : after.halted = false → Kept before after
  stays : before.halted = true → after.halted = true

variable {sps : Word → Prop}

theorem Effect.of_kept {before after : Machine} (traps : after.traps = before.traps)
    (kept : Kept before after) (stays : before.halted = true → after.halted = true) :
    Effect sps before after :=
  ⟨⟨[], by simp [traps]⟩, fun _ => kept, stays⟩

theorem Effect.refl (machine : Machine) : Effect sps machine machine :=
  Effect.of_kept rfl (Kept.refl machine) id

theorem Effect.trans {first second third : Machine} (one : Effect sps first second)
    (two : Effect sps second third) : Effect sps first third := by
  obtain ⟨firstTraps, firstLog, firstSps⟩ := one.traps
  obtain ⟨secondTraps, secondLog, secondSps⟩ := two.traps
  refine ⟨⟨firstTraps ++ secondTraps, by rw [secondLog, firstLog, List.append_assoc], ?_⟩,
    fun running => ?_, fun halted => two.stays (one.stays halted)⟩
  · intro record member
    rcases List.mem_append.mp member with early | late
    · exact firstSps record early
    · exact secondSps record late
  · have between : second.halted = false := by
      rw [← Bool.not_eq_true]
      intro halted
      exact absurd (running.symm.trans (two.stays halted)) (by decide)
    exact (one.kept between).trans (two.kept running)

theorem Effect.prefix {before after : Machine} (effect : Effect sps before after) :
    before.traps <+: after.traps := by
  obtain ⟨taken, log, _⟩ := effect.traps
  exact ⟨taken, log.symm⟩

theorem access_fault_effect (machine : Machine) :
    Effect sps machine (accessFault layout machine) := by
  unfold accessFault
  split
  · exact Effect.of_kept rfl ⟨rfl, rfl, rfl, rfl, Or.inr rfl, Or.inl rfl⟩ id
  · exact Effect.of_kept rfl ⟨rfl, rfl, rfl, rfl, Or.inl rfl, Or.inl rfl⟩ (fun _ => rfl)

structure AtEntry (before taken : Machine) : Prop where
  sp : taken.sp = before.sp
  mscratch : taken.mscratch = before.mscratch
  pmp : taken.pmp = before.pmp
  traps : taken.traps = before.traps
  halted : taken.halted = before.halted

theorem taken_at_entry (machine : Machine) (pc cause tval : Word) (regs : Regs) :
    AtEntry machine ((machine.atFault pc regs).takeTrap cause tval) :=
  ⟨rfl, rfl, rfl, rfl, rfl⟩

theorem restore_kept {before taken handled : Machine} (entry : AtEntry before taken)
    (kept : Kept taken.switchStack handled) : Kept before handled.restore where
  sp := kept.mscratch.trans entry.sp
  mscratch := by
    change handled.sp + 64 = before.mscratch
    rw [kept.sp, ← entry.mscratch]
    exact BitVec.sub_add_cancel _ _
  pmpaddr := by rw [← entry.pmp]; exact kept.pmpaddr
  pmpcfg := by rw [← entry.pmp]; exact kept.pmpcfg
  pmpcfgm0 := by rw [← entry.pmp]; exact kept.pmpcfgm0
  mpp := Or.inr rfl

theorem trap_effect {before taken handled : Machine} (entry : AtEntry before taken)
    (handler : Effect sps taken.switchStack handled) (here : sps before.mscratch) :
    Effect sps before handled.leaveTrap := by
  obtain ⟨later, log, all⟩ := handler.traps
  have logged : ∀ record ∈ (⟨taken.mpp, taken.mscratch⟩ : TrapRecord) :: later,
      sps record.sp := by
    intro record member
    rcases List.mem_cons.mp member with rfl | after
    · rw [entry.mscratch]; exact here
    · exact all record after
  have log : handled.traps = before.traps ++ (⟨taken.mpp, taken.mscratch⟩ :: later) := by
    rw [log, ← entry.traps]
    simp [Machine.switchStack]
  unfold Machine.leaveTrap
  cases halted : handled.halted with
  | true =>
      exact ⟨⟨_, log, logged⟩, fun running => absurd (running.symm.trans halted) (by decide),
        fun _ => halted⟩
  | false =>
      refine ⟨⟨_, log, logged⟩, fun _ => restore_kept entry (handler.kept halted), fun stopped => ?_⟩
      exact absurd ((handler.stays (entry.halted.trans stopped)).symm.trans halted) (by decide)

/-- `mret` goes to the mode the trap came from, unless a nested trap has already lowered it. -/
theorem leave_trap_mode {taken handled : Machine} (handler : Effect sps taken.switchStack handled)
    (returned : handled.leaveTrap.halted = false) :
    handled.leaveTrap.mode = taken.mpp ∨ handled.leaveTrap.mode = .user := by
  revert returned
  unfold Machine.leaveTrap
  split
  · rename_i halted
    intro returned
    exact absurd (returned.symm.trans halted) (by decide)
  · rename_i running
    intro _
    exact (handler.kept (by simpa using running)).mpp

theorem save_fault_effect (machine : Machine) (address : Word) (here : sps machine.mscratch) :
    Effect sps machine (saveFault layout platform machine address) := by
  have entry := taken_at_entry machine platform.entryPc 7 (platform.mtvalOf address) machine.regs
  have saved (machine : Machine) : Effect sps machine machine.saveRegs :=
    Effect.of_kept rfl ⟨rfl, rfl, rfl, rfl, Or.inl rfl, Or.inl rfl⟩ id
  apply trap_effect entry _ here
  exact (saved _).trans (access_fault_effect layout _)

theorem save_word_effect (machine : Machine) (address value : Word) (here : sps machine.mscratch) :
    Effect sps machine (saveWord layout platform machine address value) := by
  unfold saveWord
  split
  · exact Effect.refl machine
  split
  · exact Effect.of_kept rfl ⟨rfl, rfl, rfl, rfl, Or.inl rfl, Or.inl rfl⟩ id
  · exact save_fault_effect layout platform machine address here

theorem save_words_halted (machine : Machine) (address : Word) (words : List Word)
    (halted : machine.halted = true) : saveWords layout platform machine address words = machine := by
  induction words generalizing address with
  | nil => rfl
  | cons word rest ih =>
      have head : saveWord layout platform machine address word = machine := by
        simp [saveWord, halted]
      rw [saveWords, head, ih]

theorem save_words_effect (machine : Machine) (address : Word) (words : List Word)
    (here : sps machine.mscratch) :
    Effect sps machine (saveWords layout platform machine address words) := by
  induction words generalizing machine address with
  | nil => exact Effect.refl machine
  | cons word rest ih =>
      have head := save_word_effect layout platform machine address word here
      rw [saveWords]
      cases halted : (saveWord layout platform machine address word).halted with
      | false => exact head.trans (ih _ _ (by rw [(head.kept halted).mscratch]; exact here))
      | true =>
          rw [save_words_halted layout platform _ _ _ halted]
          exact head

/-- The saves run with the interrupted stack pointer in `mscratch`. -/
theorem enter_trap_effect (machine : Machine) (interrupted : sps machine.sp) :
    Effect sps machine.switchStack (enterTrap layout platform machine) :=
  save_words_effect layout platform machine.switchStack _ _ interrupted

theorem machine_fault_effect (machine : Machine) (cause address pc : Word) (regs : Regs)
    (here : sps machine.mscratch) (interrupted : sps machine.sp) :
    Effect sps machine (machineFault layout platform machine cause address pc regs) := by
  have entry := taken_at_entry machine pc cause (platform.mtvalOf address) regs
  let taken := (machine.atFault pc regs).takeTrap cause (platform.mtvalOf address)
  have entered : Effect sps taken.switchStack (enterTrap layout platform taken) :=
    enter_trap_effect layout platform taken interrupted
  apply trap_effect entry _ here
  split
  · exact entered
  · exact entered.trans (access_fault_effect layout _)

theorem with_mem_effect (machine : Machine) (memory : Memory 32) :
    Effect sps machine (withMem machine memory) :=
  Effect.of_kept rfl ⟨rfl, rfl, rfl, rfl, Or.inl rfl, Or.inl rfl⟩ id

theorem sign_load_effect (machine : Machine) (address : Word) (index : Nat)
    (here : sps machine.mscratch) (interrupted : sps machine.sp) :
    Effect sps machine (signLoad layout platform address index machine).1 := by
  unfold signLoad
  split
  · exact Effect.refl machine
  · exact machine_fault_effect layout platform machine 5 address _ _ here interrupted

theorem sign_store_effect (machine : Machine) (address : Word) (index : Nat) (old : Byte)
    (here : sps machine.mscratch) (interrupted : sps machine.sp) :
    Effect sps machine (signStore layout platform address index old machine) := by
  unfold signStore
  dsimp only
  split
  · exact with_mem_effect machine _
  · exact machine_fault_effect layout platform machine 7 address _ _ here interrupted

theorem sign_byte_effect (buf : Word) (index : Nat) (machine : Machine)
    (here : sps machine.mscratch) (interrupted : sps machine.sp) :
    Effect sps machine (svcSignByte layout platform buf index machine) := by
  have load := sign_load_effect layout platform machine (byteAt buf index) index here interrupted
  unfold svcSignByte
  split
  · exact Effect.refl machine
  dsimp only
  split
  · exact load
  · rename_i running
    have kept := load.kept (by simpa using running)
    exact load.trans (sign_store_effect layout platform _ _ _ _
      (by rw [kept.mscratch]; exact here) (by rw [kept.sp]; exact interrupted))

theorem sign_byte_halted (buf : Word) (index : Nat) (machine : Machine)
    (halted : machine.halted = true) : svcSignByte layout platform buf index machine = machine := by
  simp [svcSignByte, halted]

theorem sign_loop_effect (buf : Word) (machine : Machine) (count : Nat)
    (here : sps machine.mscratch) (interrupted : sps machine.sp) :
    Effect sps machine (svcSignLoop layout platform buf machine count) := by
  induction count with
  | zero => exact Effect.refl machine
  | succ count ih =>
      rw [svcSignLoop]
      cases halted : (svcSignLoop layout platform buf machine count).halted with
      | false =>
          have kept := ih.kept halted
          exact ih.trans (sign_byte_effect layout platform buf count _
            (by rw [kept.mscratch]; exact here) (by rw [kept.sp]; exact interrupted))
      | true =>
          rw [sign_byte_halted layout platform buf count _ halted]
          exact ih

theorem svc_sign_effect (buf len : Word) (machine : Machine)
    (here : sps machine.mscratch) (interrupted : sps machine.sp) :
    Effect sps machine (svcSign layout platform buf len machine) := by
  unfold svcSign
  split
  · exact Effect.refl machine
  split
  · exact Effect.refl machine
  · exact sign_loop_effect layout platform buf machine len.toNat here interrupted

theorem serve_call_effect (frame : Word) (machine : Machine)
    (here : sps machine.mscratch) (interrupted : sps machine.sp) :
    Effect sps machine (serveCall layout platform frame machine) := by
  unfold serveCall
  dsimp only
  split
  · exact with_mem_effect machine _
  split
  · have signed := svc_sign_effect layout platform (load32 machine.mem (frameSlot frame a0))
      (load32 machine.mem (frameSlot frame a1)) machine here interrupted
    split
    · exact signed
    · exact signed.trans (with_mem_effect _ _)
  · exact with_mem_effect machine _

theorem skip_call_effect (machine : Machine) (epc : Word) :
    Effect sps machine (machine.skipCall epc) := by
  unfold Machine.skipCall
  split
  · exact Effect.refl machine
  · exact Effect.of_kept rfl ⟨rfl, rfl, rfl, rfl, Or.inl rfl, Or.inl rfl⟩ id

/-- The dispatcher has the effects of the service it runs and no other. -/
theorem trap_dispatch_effect (frame : Word) (machine : Machine)
    (served : machine.mcause = 8 → Effect sps machine (serveCall layout platform frame machine)) :
    Effect sps machine (trapDispatch layout platform frame machine) := by
  unfold trapDispatch
  split
  · rename_i environment
    exact (served environment).trans (skip_call_effect _ _)
  split
  · exact access_fault_effect layout machine
  · exact Effect.of_kept rfl ⟨rfl, rfl, rfl, rfl, Or.inl rfl, Or.inl rfl⟩ (fun _ => rfl)

/-- The step is an `SVC_SIGN` call whose buffer passes the guard of `svc_sign` although the
bus does not answer for all of it. -/
def BusFault (step : UStep) : Prop :=
  step.op = .ecall ∧ step.regs a7 = svcSignNumber ∧ Accepted layout (step.regs a0) (step.regs a1) ∧
    ¬ Responsive platform (step.regs a0) (step.regs a1).toNat

instance (step : UStep) : Decidable (BusFault layout platform step) :=
  inferInstanceAs (Decidable (_ ∧ _))

/-- The stack pointers that traps of one step of U-mode run on. -/
def StepSps (step : UStep) (recorded : Word) : Prop :=
  recorded = layout.trapStackTop ∨
    BusFault layout platform step ∧ (recorded = trapFrame layout ∨ recorded = step.sp)

theorem quiet_call_effect (machine : Machine) (running : machine.halted = false)
    (ready : Ready layout machine)
    (quiet : machine.regs a7 = svcSignNumber →
      Accepted layout (machine.regs a0) (machine.regs a1) →
      Responsive platform (machine.regs a0) (machine.regs a1).toNat) :
    Effect sps (trapped machine 8 0)
      (serveCall layout platform (trapFrame layout) (trapped machine 8 0)) := by
  by_cases counter : machine.regs a7 = svcGetCounter
  · rw [serve_get_counter layout platform machine 0 ready counter]
    exact with_mem_effect _ _
  by_cases sign : machine.regs a7 = svcSignNumber
  · rw [serve_sign_plain layout platform machine 0 running ready sign (quiet sign)]
    exact with_mem_effect _ _
  · rw [serve_unknown layout platform machine 0 ready counter sign]
    exact with_mem_effect _ _

theorem user_trap_effect (machine : Machine) (cause tval : Word) (running : machine.halted = false)
    (ready : Ready layout machine) (top : sps layout.trapStackTop)
    (served : cause = 8 → Effect sps (trapped machine cause tval)
      (serveCall layout platform (trapFrame layout) (trapped machine cause tval))) :
    Effect sps machine (userTrap layout platform machine cause tval) := by
  have entry : AtEntry machine (machine.takeTrap cause tval) := ⟨rfl, rfl, rfl, rfl, rfl⟩
  have saved : Effect sps (machine.takeTrap cause tval).switchStack (trapped machine cause tval) :=
    with_mem_effect _ _
  rw [user_trap_plain layout platform machine cause tval running ready]
  apply trap_effect entry (saved.trans (trap_dispatch_effect layout platform _ _ served))
  rw [ready.mscratch]
  exact top

theorem user_op_effect (machine : Machine) (op : UOp) (running : machine.halted = false)
    (ready : Ready layout machine) (top : sps layout.trapStackTop)
    (served : op = .ecall → Effect sps (trapped machine 8 0)
      (serveCall layout platform (trapFrame layout) (trapped machine 8 0))) :
    Effect sps machine (userOp layout platform machine op).1 := by
  have fault (cause tval : Word) (other : cause ≠ 8) :
      Effect sps machine (userTrap layout platform machine cause tval) :=
    user_trap_effect layout platform machine cause tval running ready top
      (fun wrong => absurd wrong other)
  cases op with
  | load width address =>
      rw [userOp]
      split
      · exact Effect.refl machine
      · exact fault 5 _ (by decide)
  | store width address value =>
      rw [userOp]
      split
      · exact with_mem_effect machine _
      · exact fault 7 _ (by decide)
  | ecall =>
      exact user_trap_effect layout platform machine 8 0 running ready top (fun _ => served rfl)
  | exception cause => exact fault cause.code 0 (by cases cause <;> decide)

theorem user_step_effect (machine : Machine) (step : UStep) (running : machine.halted = false)
    (ready : Ready layout machine) :
    Effect (StepSps layout platform step) (machine.atStep step)
      (userStep layout platform machine step).1 := by
  have readyHere := ready.at_step layout step
  rw [userStep, if_neg (by rw [running]; decide)]
  apply user_op_effect layout platform (machine.atStep step) step.op running readyHere (Or.inl rfl)
  intro called
  by_cases fault : BusFault layout platform step
  · apply serve_call_effect layout platform
    · exact Or.inr ⟨fault, Or.inr rfl⟩
    · exact Or.inr ⟨fault, Or.inl (congrArg (fun top : Word => top - 64) ready.mscratch)⟩
  · apply quiet_call_effect layout platform (machine.atStep step) running readyHere
    intro sign accepted
    by_contra silent
    exact fault ⟨called, sign, accepted, silent⟩

theorem kept_isolated {before after : Machine} (kept : Kept before after)
    (isolated : Isolated layout before.pmp) : Isolated layout after.pmp where
  addr0 := by rw [kept.pmpaddr]; exact isolated.addr0
  addr1 := by rw [kept.pmpaddr]; exact isolated.addr1
  cfg0 := by rw [kept.pmpcfg]; exact isolated.cfg0

theorem user_trap_ready (machine : Machine) (cause tval : Word) (running : machine.halted = false)
    (ready : Ready layout machine)
    (returned : (userTrap layout platform machine cause tval).halted = false) :
    Ready layout (userTrap layout platform machine cause tval) := by
  have saved : Effect (fun _ => True) (machine.takeTrap cause tval).switchStack
      (trapped machine cause tval) := with_mem_effect _ _
  have handler := saved.trans (trap_dispatch_effect layout platform (trapFrame layout) _
    (fun _ => serve_call_effect layout platform (trapFrame layout) (trapped machine cause tval)
      trivial trivial))
  have entry : AtEntry machine (machine.takeTrap cause tval) := ⟨rfl, rfl, rfl, rfl, rfl⟩
  rw [user_trap_plain layout platform machine cause tval running ready] at returned ⊢
  have kept := (trap_effect entry handler trivial).kept returned
  refine ⟨kept.mscratch.trans ready.mscratch, kept_isolated layout kept ready.isolated, ?_, ?_⟩
  · rcases kept.pmpcfgm0 with same | zero
    · rw [same]
      exact ready.lifted
    · exact zero
  · rcases leave_trap_mode handler returned with same | user
    · exact same.trans ready.mode
    · exact user

def RunsReady (machine : Machine) : Prop := machine.halted = false → Ready layout machine

theorem user_step_ready (machine : Machine) (step : UStep) (runsReady : RunsReady layout machine) :
    RunsReady layout (userStep layout platform machine step).1 := by
  unfold userStep
  split
  · exact runsReady
  · rename_i running
    have running : machine.halted = false := by simpa using running
    have ready := (runsReady running).at_step layout step
    cases step.op with
    | load width address =>
        rw [userOp]
        split
        · exact fun _ => ready
        · exact user_trap_ready layout platform _ 5 _ running ready
    | store width address value =>
        rw [userOp]
        split
        · exact fun _ => ⟨ready.mscratch, ready.isolated, ready.lifted, ready.mode⟩
        · exact user_trap_ready layout platform _ 7 _ running ready
    | ecall => exact user_trap_ready layout platform _ 8 _ running ready
    | exception cause => exact user_trap_ready layout platform _ cause.code _ running ready

theorem user_run_ready (machine : Machine) (steps : List UStep) (runsReady : RunsReady layout machine) :
    RunsReady layout (finish (userStep layout platform) machine steps) :=
  invariant_always _ (RunsReady layout) (user_step_ready layout platform) machine steps runsReady

/-- A bus fault inside `svc_sign` is a trap on the stack pointer of U-mode. -/
def Logged (sp : Word) (machine : Machine) : Prop := ∃ record ∈ machine.traps, record.sp = sp

theorem Effect.logged {before after : Machine} {sp : Word} (effect : Effect sps before after)
    (logged : Logged sp before) : Logged sp after := by
  obtain ⟨record, member, same⟩ := logged
  exact ⟨record, effect.prefix.subset member, same⟩

theorem leave_trap_traps (machine : Machine) : machine.leaveTrap.traps = machine.traps := by
  unfold Machine.leaveTrap
  split <;> rfl

theorem switch_stack_logged (machine : Machine) : Logged machine.mscratch machine.switchStack :=
  ⟨⟨machine.mpp, machine.mscratch⟩, List.mem_append_right _ (List.mem_singleton.mpr rfl), rfl⟩

theorem machine_fault_logged (machine : Machine) (cause address pc : Word) (regs : Regs) :
    Logged machine.mscratch (machineFault layout platform machine cause address pc regs) := by
  generalize reached : (machine.atFault pc regs).takeTrap cause (platform.mtvalOf address) = taken
  have same : taken.mscratch = machine.mscratch := by rw [← reached]; rfl
  have entered : Effect (fun _ => True) taken.switchStack (enterTrap layout platform taken) :=
    enter_trap_effect layout platform taken trivial
  have handled : Effect (fun _ => True) (enterTrap layout platform taken)
      (accessFault layout (enterTrap layout platform taken)) := access_fault_effect layout _
  have logged := entered.logged (switch_stack_logged taken)
  rw [machineFault, reached, Logged, leave_trap_traps, ← same]
  split
  · exact logged
  · exact handled.logged logged

theorem sign_byte_logged (buf : Word) (index : Nat) (machine : Machine)
    (serving : Serving layout machine)
    (silent : ¬ (platform.responds .read (byteAt buf index) = true ∧
      platform.responds .write (byteAt buf index) = true)) :
    Logged machine.mscratch (svcSignByte layout platform buf index machine) := by
  have access (access : Access) := byte_access layout platform machine serving.isolated
    serving.lifted access (byteAt buf index)
  rw [svcSignByte, if_neg (by rw [serving.running]; decide)]
  cases readable : platform.responds .read (byteAt buf index) with
  | false =>
      have loaded : Logged machine.mscratch
          (signLoad layout platform (byteAt buf index) index machine).1 := by
        rw [signLoad, if_neg (by rw [access, readable]; decide)]
        exact machine_fault_logged layout platform machine _ _ _ _
      have stored (value : Machine × Byte) : Effect (fun _ => True) value.1
          (signStore layout platform (byteAt buf index) index value.2 value.1) :=
        sign_store_effect layout platform value.1 _ _ _ trivial trivial
      dsimp only
      split
      · exact loaded
      · exact (stored _).logged loaded
  | true =>
      have unwritable : platform.responds .write (byteAt buf index) = false := by
        simpa [readable] using silent
      have loaded : signLoad layout platform (byteAt buf index) index machine =
          (machine, machine.mem (byteAt buf index)) :=
        if_pos ((access .read).trans readable)
      have stored : signStore layout platform (byteAt buf index) index
          (machine.mem (byteAt buf index)) machine = machineFault layout platform machine 7
            (byteAt buf index) (platform.signPc .write) (platform.signRegs machine.regs
              (keyBytes machine.mem layout.toPlacement) index (machine.mem (byteAt buf index))) :=
        if_neg (by rw [access, unwritable]; decide)
      rw [loaded, if_neg (by rw [serving.running]; decide), stored]
      exact machine_fault_logged layout platform machine _ _ _ _

/-- Either the buffer answers so far, or the first byte that does not has been trapped on. -/
theorem sign_loop_logged (buf : Word) (machine : Machine) (count : Nat) (short : count ≤ 64)
    (serving : Serving layout machine)
    (apart : ∀ index < count, ¬ Within layout.gProt 64 (byteAt buf index))
    (silent : ¬ Responsive platform buf count) :
    Logged machine.mscratch (svcSignLoop layout platform buf machine count) := by
  induction count with
  | zero => exact absurd (fun _ wrong => absurd wrong (Nat.not_lt_zero _)) silent
  | succ count ih =>
      have shorter (index : Nat) (below : index < count) : index < count + 1 := by omega
      rw [svcSignLoop]
      by_cases responsive : Responsive platform buf count
      · have here : ¬ (platform.responds .read (byteAt buf count) = true ∧
            platform.responds .write (byteAt buf count) = true) := by
          intro answered
          apply silent
          intro index below
          rcases Nat.lt_succ_iff_lt_or_eq.mp below with earlier | rfl
          · exact responsive index earlier
          · exact answered
        have plain := sign_loop_plain layout platform buf machine count (by omega) serving responsive
          (fun index below => apart index (shorter index below))
        generalize signedMemory _ buf count machine.mem = memory at plain
        rw [plain]
        exact sign_byte_logged layout platform buf count (withMem machine memory)
          (serving.with_mem layout memory) here
      · have logged := ih (by omega) (fun index below => apart index (shorter index below)) responsive
        have last : Effect (fun _ => True) (svcSignLoop layout platform buf machine count)
            (svcSignByte layout platform buf count (svcSignLoop layout platform buf machine count)) :=
          sign_byte_effect layout platform buf count _ trivial trivial
        exact last.logged logged

theorem bus_fault_logged (machine : Machine) (step : UStep) (running : machine.halted = false)
    (ready : Ready layout machine) (fault : BusFault layout platform step) :
    Logged step.sp (userStep layout platform machine step).1 := by
  obtain ⟨called, sign, accepted, silent⟩ := fault
  have readyHere := ready.at_step layout step
  have serving := trapped_serving layout (machine.atStep step) 8 0 running readyHere
  have signed : Logged step.sp (svcSign layout platform (step.regs a0) (step.regs a1)
      (trapped (machine.atStep step) 8 0)) := by
    rw [svcSign, if_neg accepted.1, if_neg accepted.2]
    exact sign_loop_logged layout platform (step.regs a0) (trapped (machine.atStep step) 8 0) _
      (accepted_short layout _ _ accepted) serving (accepted_outside layout _ _ accepted) silent
  have served : Logged step.sp (serveCall layout platform (trapFrame layout)
      (trapped (machine.atStep step) 8 0)) := by
    rw [serve_sign layout platform (machine.atStep step) 0 readyHere sign]
    dsimp only
    split
    · exact signed
    · exact signed
  have skipped : Effect (fun _ => True) _ ((serveCall layout platform (trapFrame layout)
      (trapped (machine.atStep step) 8 0)).skipCall (trapped (machine.atStep step) 8 0).mepc) :=
    skip_call_effect _ _
  have finished := skipped.logged served
  rw [userStep, if_neg (by rw [running]; decide), called]
  change Logged step.sp (userTrap layout platform (machine.atStep step) 8 0)
  rw [user_trap_plain layout platform (machine.atStep step) 8 0 running readyHere, Logged,
    leave_trap_traps]
  exact finished

/-- Every trap taken so far has saved its registers inside `g_m_trap_stack`. -/
def StackSafe (machine : Machine) : Prop :=
  ∀ record ∈ machine.traps, SafeSp layout record.sp

/-- A service about to fault on its buffer was called with a stack pointer of U-mode that
leaves room for the nested trap in the trap stack. -/
def NestedSafe (machine : Machine) (step : UStep) : Prop :=
  machine.halted = false → BusFault layout platform step → SafeSp layout step.sp

theorem frame_safe : SafeSp layout (trapFrame layout) := by
  intro index below
  have base : trapFrame layout - 64 = byteAt layout.gMTrapStack 384 := by
    rw [trapFrame_eq, byteAt, BitVec.sub_eq_add_neg, BitVec.add_assoc]
    rfl
  rw [base, byteAt_byteAt]
  exact within_byteAt _ 512 _ (by omega) (by omega)

theorem step_stack_safe (machine : Machine) (step : UStep) (runsReady : RunsReady layout machine) :
    StackSafe layout (userStep layout platform machine step).1 ↔
      StackSafe layout machine ∧ NestedSafe layout platform machine step := by
  cases halted : machine.halted with
  | true =>
      have still : (userStep layout platform machine step).1 = machine := by
        rw [userStep, if_pos halted]
      have idle : NestedSafe layout platform machine step :=
        fun running => absurd (halted.symm.trans running) (by decide)
      rw [still, and_iff_left idle]
  | false =>
      have ready := runsReady halted
      obtain ⟨taken, log, sps⟩ := (user_step_effect layout platform machine step halted ready).traps
      constructor
      · intro safe
        refine ⟨fun record member => safe record ?_, fun _ fault => ?_⟩
        · rw [log]
          exact List.mem_append_left _ member
        · obtain ⟨record, member, same⟩ := bus_fault_logged layout platform machine step halted ready fault
          rw [← same]
          exact safe record member
      · rintro ⟨safe, nested⟩ record member
        rw [log] at member
        rcases List.mem_append.mp member with early | late
        · exact safe record early
        · rcases sps record late with top | ⟨fault, frame | user⟩
          · rw [top]
            exact top_safe layout
          · rw [frame]
            exact frame_safe layout
          · rw [user]
            exact nested halted fault

theorem drop_runs_ready (stored : Word) (key : Fin 16 → Byte) (machine : Machine) :
    RunsReady layout (main layout platform stored key machine) :=
  fun _ => (main_at_drop layout platform stored key machine).ready

theorem drop_stack_safe (stored : Word) (key : Fin 16 → Byte) (machine : Machine) :
    StackSafe layout (main layout platform stored key machine) := by
  intro record member
  rw [(main_at_drop layout platform stored key machine).traps, List.mem_singleton] at member
  rw [member]
  exact top_safe layout

/-- In a run from reset every trap saves its registers inside the trap stack if and only if
no service faults on its buffer while U-mode's stack pointer points elsewhere. -/
theorem traps_on_trap_stack_iff (stored : Word) (key : Fin 16 → Byte) (machine : Machine)
    (steps : List UStep) :
    StackSafe layout (finish (userStep layout platform) (main layout platform stored key machine) steps) ↔
      Meets (userStep layout platform) (NestedSafe layout platform)
        (main layout platform stored key machine) steps := by
  have start := drop_runs_ready layout platform stored key machine
  have safe := drop_stack_safe layout platform stored key machine
  rw [holds_at_end_iff (userStep layout platform) (StackSafe layout) (NestedSafe layout platform)
    (RunsReady layout) (step_stack_safe layout platform) (user_step_ready layout platform) _ _ start,
    and_iff_right safe]

/-- `SVC_SIGN` on one unmapped byte, with the stack pointer at the end of `g_prot`. -/
def signUnmapped : UStep where
  regs := Function.update (Function.update (Function.update (fun _ => 0) a7 svcSignNumber)
    a0 0x30000000) a1 1
  sp := 0x20000040
  pc := 0x20001300
  op := .ecall

/-- The nested trap then runs on that stack pointer and saves its registers over `g_prot`. -/
theorem nested_trap_over_protected_block :
    ¬ StackSafe sampleLayout (finish (userStep sampleLayout sramBoard)
      (main sampleLayout sramBoard secretValue keyValue resetMachine) [signUnmapped]) := by
  have drop := main_at_drop sampleLayout sramBoard secretValue keyValue resetMachine
  have fault : BusFault sampleLayout sramBoard signUnmapped := by
    have accepted : Accepted sampleLayout 0x30000000 1 := by decide
    have silent : sramBoard.responds .read (byteAt 0x30000000 0) = false := by decide
    refine ⟨rfl, rfl, accepted, fun answered => ?_⟩
    exact absurd ((answered 0 Nat.one_pos).1.symm.trans silent) (by decide)
  generalize main sampleLayout sramBoard secretValue keyValue resetMachine = dropped at drop
  obtain ⟨record, member, same⟩ :=
    bus_fault_logged sampleLayout sramBoard dropped signUnmapped drop.running drop.ready fault
  intro safe
  have inside := safe record member
  rw [same] at inside
  have first : ¬ Within sampleLayout.gMTrapStack 512 (byteAt (0x20000040 - 64) 0) := by decide
  exact first (inside 0 (Nat.succ_pos 63))

end Rp2350Tee.TrapStack
