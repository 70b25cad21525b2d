import Rp2350Tee.EnvironmentCall
import Rp2350Tee.WorldIsolation

/-!
The values of the service counter over whole runs. Both programs increment a
32-bit word that only the service writes, so the values go up until the word
wraps; in minimal-pmp the word is also lost when a trap taken inside `svc_sign`
saves its registers over it.
-/

namespace Rp2350Tee.ServiceCounter

open ByteMemory Runs

theorem less_trans (first second third : BitVec 32) (one : first < second) (two : second < third) :
    first < third := BitVec.lt_trans one two

theorem counted_up_iff (value : BitVec 32) : value < value + 1 ↔ value ≠ 0xFFFFFFFF := by
  bv_omega

section TrustZone

open TzConfig SecureService WorldIsolation

variable (image : SecureImage) (cmse : CmseCheck) (soc : Soc)

def nsAnswer (_ : NsOp) : NsResult → Option TzConfig.Word
  | .counter value => some value
  | .loaded _ | .stored | .signed _ | .faulted | .stopped => none

/-- No counter call is made on a counter at its limit. -/
def NsBelowLimit (world : World) (op : NsOp) : Prop :=
  world.faulted = false → op = .getCounter → load32 world.mem image.sCounter ≠ 0xFFFFFFFF

theorem ns_counter_kept (hidden : Hidden image soc) (sound : CmseSound soc cmse)
    (memory : Memory 32) (op : NsOp) (other : op ≠ .getCounter) :
    load32 (nsOp image cmse soc memory op).1.mem image.sCounter = load32 memory image.sCounter := by
  refine load32_congr _ _ _ fun address inside => ?_
  have closed : soc.sau.attribution address ≠ .nonSecure := hidden address (Or.inr (Or.inl inside))
  have fault : refusedAccess image memory address = memory address :=
    refused_access_outside image memory address (counter_not_result image address inside)
      (counter_not_sfsr image address inside)
  cases op with
  | load width base =>
      rw [nsOp]
      split
      · rfl
      · exact fault
  | store width base value =>
      rw [nsOp]
      split
      · rename_i granted
        apply storeBytes_outside
        rw [storeValue_length]
        exact fun within => closed (range_open soc base _ _ granted within)
      · exact fault
  | getCounter => exact absurd rfl other
  | sign challenge out len =>
      rw [nsOp]
      by_cases accepted : SignAccepted cmse challenge out len
      · have untouched : ¬ Within out len.toNat address := fun within =>
          closed ((sound _ _ _ accepted.2.2).2 _ within)
        rw [secure_sign_accepted image cmse challenge out len memory accepted]
        exact (sign_visible image cmse soc hidden sound accepted memory address
          (counter_not_temporary image address inside)).trans (if_neg untouched)
      · obtain ⟨code, rejected⟩ := secure_sign_rejected image cmse challenge out len accepted
        rw [rejected memory]

theorem ns_answer_some (world : World) (op : NsOp) (value : TzConfig.Word)
    (answered : nsAnswer op (nsStep image cmse soc world op).2 = some value) :
    world.faulted = false ∧ op = .getCounter ∧ value = load32 world.mem image.sCounter + 1 := by
  rw [nsStep] at answered
  split at answered
  · exact absurd answered (by simp [nsAnswer])
  · rename_i running
    cases op with
    | load width base =>
        rw [nsOp] at answered
        split at answered <;> exact absurd answered (by simp [nsAnswer])
    | store width base value =>
        rw [nsOp] at answered
        split at answered <;> exact absurd answered (by simp [nsAnswer])
    | getCounter =>
        refine ⟨by simpa using running, rfl, ?_⟩
        exact (Option.some.inj answered).symm
    | sign challenge out len => exact absurd answered (by simp [nsOp, nsAnswer])

theorem ns_returns (world : World) (op : NsOp) (value : TzConfig.Word)
    (answered : nsAnswer op (nsStep image cmse soc world op).2 = some value) :
    load32 (nsStep image cmse soc world op).1.mem image.sCounter = value ∧
      (load32 world.mem image.sCounter < value ↔ NsBelowLimit image world op) := by
  obtain ⟨running, rfl, rfl⟩ := ns_answer_some image cmse soc world op value answered
  constructor
  · rw [nsStep, if_neg (Bool.eq_false_iff.mp running)]
    exact load32_store32 _ _ _ (by decide)
  · rw [counted_up_iff]
    exact ⟨fun below _ _ => below, fun below => below running rfl⟩

theorem ns_idles (hidden : Hidden image soc) (sound : CmseSound soc cmse) (world : World) (op : NsOp)
    (silent : nsAnswer op (nsStep image cmse soc world op).2 = none) :
    load32 (nsStep image cmse soc world op).1.mem image.sCounter = load32 world.mem image.sCounter ∧
      NsBelowLimit image world op := by
  cases stopped : world.faulted with
  | true =>
      rw [nsStep, if_pos stopped]
      exact ⟨rfl, fun running => absurd (stopped.symm.trans running) (by decide)⟩
  | false =>
      rw [nsStep, if_neg (Bool.eq_false_iff.mp stopped)] at silent ⊢
      have other : op ≠ .getCounter := by
        rintro rfl
        exact absurd silent (by simp [nsOp, nsAnswer])
      exact ⟨ns_counter_kept image cmse soc hidden sound world.mem op other,
        fun _ called => absurd called other⟩

theorem ns_counter_increasing_iff (hidden : Hidden image soc) (sound : CmseSound soc cmse)
    (memory : Memory 32) (zero : load32 memory image.sCounter = 0) (ops : List NsOp) :
    (answers (nsStep image cmse soc) nsAnswer ⟨memory, false⟩ ops).Pairwise (· < ·) ↔
      Meets (nsStep image cmse soc) (NsBelowLimit image) ⟨memory, false⟩ ops := by
  have step := answers_increasing_iff (nsStep image cmse soc) nsAnswer (· < ·)
    (fun world => load32 world.mem image.sCounter) (fun _ _ => True) (NsBelowLimit image)
    (fun _ => True) less_trans (fun world op value _ _ => ns_returns image cmse soc world op value)
    (fun world op _ _ => ns_idles image cmse soc hidden sound world op) (fun _ _ _ => trivial)
    ⟨memory, false⟩
  refine step ?_ ops trivial (meets_of_forall _ _ (fun _ _ => trivial) _ ops)
  intro world op value _ _ fresh answered
  -- the first value is one
  obtain ⟨_, _, rfl⟩ := ns_answer_some image cmse soc world op value answered
  change load32 memory image.sCounter < _
  rw [show load32 world.mem image.sCounter = load32 memory image.sCounter from fresh, zero]
  decide

end TrustZone

section Pmp

open PmpUnit PmpProgram PmpSetup TrapHandler PmpDrop TrapStack UserView ProtectedBlock EnvironmentCall

variable (layout : Layout) (platform : Platform)

/-! What a trap taken inside the handler writes. A byte of the block is only reached by the frame
of such a trap, 64 bytes below the stack pointer it finds in `mscratch`. -/

section NestedTraps

variable {layout platform} {target : Word}

theorem access_fault_target (machine : Machine) (inBlock : Within layout.gProt 64 target) :
    (accessFault layout machine).mem target = machine.mem target := by
  unfold accessFault
  split
  · dsimp only
    rw [prot_stage layout _ _ _ inBlock, prot_mailbox layout _ _ _ _ (by decide) inBlock]
  · dsimp only
    rw [prot_mailbox layout _ _ _ _ (by decide) inBlock, prot_mailbox layout _ _ _ _ (by decide) inBlock,
      prot_mailbox layout _ _ _ _ (by decide) inBlock]

theorem leave_trap_memory (machine : Machine) : machine.leaveTrap.mem = machine.mem := by
  unfold Machine.leaveTrap
  split <;> rfl

theorem save_regs_target (machine : Machine) (outside : ¬ Within machine.sp 64 target) :
    machine.saveRegs.mem target = machine.mem target :=
  save_regs_outside machine.mem machine.sp target machine.regs outside

theorem save_fault_target (machine : Machine) (address : Word) (inBlock : Within layout.gProt 64 target)
    (spared : ¬ Within (machine.mscratch - 64) 64 target) :
    (saveFault layout platform machine address).mem target = machine.mem target := by
  let taken := (machine.atFault platform.entryPc machine.regs).takeTrap 7 (platform.mtvalOf address)
  have saved : taken.switchStack.saveRegs.mem target = taken.switchStack.mem target :=
    save_regs_target taken.switchStack spared
  rw [saveFault, leave_trap_memory, access_fault_target _ inBlock, saved]
  rfl

theorem save_word_target (machine : Machine) (address value : Word)
    (inBlock : Within layout.gProt 64 target) (spared : ¬ Within (machine.mscratch - 64) 64 target)
    (elsewhere : ¬ Within address 4 target) :
    (saveWord layout platform machine address value).mem target = machine.mem target := by
  unfold saveWord
  split
  · rfl
  split
  · exact store32_outside _ _ _ _ elsewhere
  · exact save_fault_target machine address inBlock spared

theorem save_words_target (machine : Machine) (address : Word) (words : List Word)
    (inBlock : Within layout.gProt 64 target) (spared : ¬ Within (machine.mscratch - 64) 64 target)
    (elsewhere : ¬ Within address (4 * words.length) target) :
    (saveWords layout platform machine address words).mem target = machine.mem target := by
  induction words generalizing machine address with
  | nil => rfl
  | cons word rest ih =>
      have effect : Effect (fun _ => True) machine (saveWord layout platform machine address word) :=
        save_word_effect layout platform machine address word trivial
      have first : ¬ Within address 4 target := fun inside =>
        elsewhere (within_of_part address target 0 4 _ (by rw [List.length_cons]; omega)
          (by rwa [byteAt_zero]))
      have later : ¬ Within (byteAt address 4) (4 * rest.length) target := fun inside =>
        elsewhere (within_of_part address target 4 _ _ (by rw [List.length_cons]; omega) inside)
      have head : (saveWord layout platform machine address word).mem target = machine.mem target :=
        save_word_target machine address word inBlock spared first
      rw [saveWords, ← head]
      -- a store that stops the machine is the last one
      cases halted : (saveWord layout platform machine address word).halted with
      | false => exact ih _ _ (by rw [(effect.kept halted).mscratch]; exact spared) later
      | true => rw [save_words_halted layout platform _ _ rest halted]

variable (layout target) in
/-- No frame of a trap that the handler takes covers the byte. -/
structure Clear (machine : Machine) : Prop where
  inBlock : Within layout.gProt 64 target
  frame : ¬ Within (machine.mscratch - 64) 64 target
  inner : ¬ Within (machine.sp - 64) 64 target

theorem Clear.kept {before after : Machine} (clear : Clear layout target before)
    (kept : Kept before after) : Clear layout target after where
  inBlock := clear.inBlock
  frame := by rw [kept.mscratch]; exact clear.frame
  inner := by rw [kept.sp]; exact clear.inner

theorem enter_trap_target (machine : Machine) (clear : Clear layout target machine) :
    (enterTrap layout platform machine).mem target = machine.mem target := by
  apply save_words_target machine.switchStack _ _ clear.inBlock clear.inner
  rw [List.length_ofFn]
  exact clear.frame

theorem machine_fault_target (machine : Machine) (cause address pc : Word) (regs : Regs)
    (clear : Clear layout target machine) :
    (machineFault layout platform machine cause address pc regs).mem target = machine.mem target := by
  let taken := (machine.atFault pc regs).takeTrap cause (platform.mtvalOf address)
  have entered : (enterTrap layout platform taken).mem target = taken.mem target :=
    enter_trap_target taken ⟨clear.inBlock, clear.frame, clear.inner⟩
  rw [machineFault, leave_trap_memory]
  split
  · exact entered
  · rw [access_fault_target _ clear.inBlock]
    exact entered

theorem sign_byte_target (buf : Word) (index : Nat) (machine : Machine)
    (clear : Clear layout target machine) (apart : byteAt buf index ≠ target) :
    (svcSignByte layout platform buf index machine).mem target = machine.mem target := by
  have effect : Effect (fun _ => True) machine
      (signLoad layout platform (byteAt buf index) index machine).1 :=
    sign_load_effect layout platform machine (byteAt buf index) index trivial trivial
  have loaded : (signLoad layout platform (byteAt buf index) index machine).1.mem target =
      machine.mem target := by
    unfold signLoad
    split
    · rfl
    · exact machine_fault_target machine 5 _ _ _ clear
  unfold svcSignByte
  split
  · rfl
  dsimp only
  split
  · exact loaded
  · rename_i running
    rw [← loaded]
    unfold signStore
    dsimp only
    split
    · exact Function.update_of_ne apart.symm _ _
    · exact machine_fault_target _ 7 _ _ _ (clear.kept (effect.kept (by simpa using running)))

theorem sign_loop_target (buf : Word) (machine : Machine) (count : Nat)
    (clear : Clear layout target machine) (apart : ∀ index < count, byteAt buf index ≠ target) :
    (svcSignLoop layout platform buf machine count).mem target = machine.mem target := by
  induction count with
  | zero => rfl
  | succ count ih =>
      have effect : Effect (fun _ => True) machine (svcSignLoop layout platform buf machine count) :=
        sign_loop_effect layout platform buf machine count trivial trivial
      have prior := ih fun index below => apart index (Nat.lt_succ_of_lt below)
      rw [svcSignLoop, ← prior]
      cases halted : (svcSignLoop layout platform buf machine count).halted with
      | false =>
          exact sign_byte_target buf count _ (clear.kept (effect.kept halted))
            (apart count (Nat.lt_succ_self count))
      | true => rw [sign_byte_halted layout platform buf count _ halted]

theorem trapped_clear (machine : Machine) (ready : Ready layout machine)
    (inBlock : Within layout.gProt 64 target) (spared : ¬ Within (machine.sp - 64) 64 target) :
    Clear layout target (trapped machine 8 0) where
  inBlock := inBlock
  frame := spared
  inner := by
    have frame : (trapped machine 8 0).sp = trapFrame layout :=
      congrArg (fun top : Word => top - 64) ready.mscratch
    rw [frame, within_iff_index]
    rintro ⟨index, below, rfl⟩
    exact prot_not_stack layout _ inBlock (frame_safe layout index below)

theorem skip_call_memory (machine : Machine) (epc : Word) :
    (machine.skipCall epc).mem = machine.mem := by
  unfold Machine.skipCall
  split <;> rfl

/-- A service that faults on its buffer leaves a byte of the block alone unless it lies in the 64
bytes below the stack pointer of U-mode. -/
theorem sign_call_target (machine : Machine) (running : machine.halted = false)
    (ready : Ready layout machine) (sign : machine.regs a7 = svcSignNumber)
    (accepted : Accepted layout (machine.regs a0) (machine.regs a1))
    (inBlock : Within layout.gProt 64 target) (spared : ¬ Within (machine.sp - 64) 64 target) :
    (userTrap layout platform machine 8 0).mem target = machine.mem target := by
  have clear := trapped_clear machine ready inBlock spared
  have saved : (trapped machine 8 0).mem target = machine.mem target := by
    rw [trapped_memory layout machine 8 0 ready, saved_prot layout _ _ _ inBlock]
  have signed : (svcSign layout platform (machine.regs a0) (machine.regs a1)
      (trapped machine 8 0)).mem target = machine.mem target := by
    rw [svcSign, if_neg accepted.1, if_neg accepted.2, ← saved]
    apply sign_loop_target _ _ _ clear
    intro index below same
    exact accepted_outside layout _ _ accepted index below (by rw [same]; exact inBlock)
  have served : (serveCall layout platform (trapFrame layout) (trapped machine 8 0)).mem target =
      machine.mem target := by
    rw [serve_sign layout platform machine 0 ready sign]
    generalize svcSign layout platform (machine.regs a0) (machine.regs a1) (trapped machine 8 0) =
      after at signed
    dsimp only
    split
    · exact signed
    · change store32 after.mem (frameSlot (trapFrame layout) a0) 0 target = machine.mem target
      rw [prot_slot layout after.mem 0 target inBlock, signed]
  rw [user_trap_plain layout platform machine 8 0 running ready, leave_trap_memory, trapDispatch,
    if_pos (show (trapped machine 8 0).mcause = 8 from rfl), skip_call_memory, served]

end NestedTraps

def userAnswer (step : UStep) : Observation → Option Word
  | .returned regs => if CounterCall step.regs step.op then some (regs a0) else none
  | .loaded _ | .stored | .faulted | .stopped => none

/-- What the service does stays clear of the counter and of the handler's own frames: a buffer
it signs keeps off the latter, and where it faults on one, the 64 bytes below the stack pointer
of U-mode do not meet the counter. -/
def CounterSpared (machine : Machine) (step : UStep) : Prop :=
  machine.halted = false → step.op = .ecall → HandlerFramesClear layout step.regs ∧
    (BusFault layout platform step →
      ∀ address, Within layout.counter 4 address → ¬ Within (step.sp - 64) 64 address)

def UserBelowLimit (machine : Machine) (step : UStep) : Prop :=
  Counts machine step → load32 machine.mem layout.counter ≠ 0xFFFFFFFF

theorem counter_call_quiet (machine : Machine) (step : UStep) (called : CounterCall step.regs step.op) :
    Quiet layout platform machine step := by
  rintro _ ⟨_, sign, _, _⟩
  exact absurd (called.2.symm.trans sign) (by decide)

theorem counts_answer (machine : Machine) (step : UStep) (runsReady : RunsReady layout machine)
    (counts : Counts machine step) :
    userAnswer step (userStep layout platform machine step).2 =
        some (load32 machine.mem layout.counter + 1) ∧
      load32 (userStep layout platform machine step).1.mem layout.counter =
        load32 machine.mem layout.counter + 1 := by
  obtain ⟨running, called⟩ := counts
  have quiet := counter_call_quiet layout platform machine step called
  have outcome := congrArg Prod.snd
    (running_step layout platform machine step runsReady running quiet)
  have value := step_counter layout platform machine step runsReady quiet
  rw [if_pos ⟨running, called⟩] at value
  refine ⟨?_, value⟩
  rw [called.1] at outcome
  rw [← outcome, viewOp, userAnswer, if_pos called, call_status, callResult, if_pos called.2]

theorem user_answer_some (machine : Machine) (step : UStep) (value : Word)
    (answered : userAnswer step (userStep layout platform machine step).2 = some value) :
    Counts machine step := by
  cases halted : machine.halted with
  | true =>
      rw [userStep, if_pos halted] at answered
      exact absurd answered (by simp [userAnswer])
  | false =>
      refine ⟨halted, ?_⟩
      cases observed : (userStep layout platform machine step).2 with
      | returned regs =>
          rw [observed, userAnswer] at answered
          by_contra other
          rw [if_neg other] at answered
          exact absurd answered (by simp)
      | loaded bytes => exact absurd (observed ▸ answered) (by simp [userAnswer])
      | stored => exact absurd (observed ▸ answered) (by simp [userAnswer])
      | faulted => exact absurd (observed ▸ answered) (by simp [userAnswer])
      | stopped => exact absurd (observed ▸ answered) (by simp [userAnswer])

theorem user_returns (machine : Machine) (step : UStep) (value : Word)
    (runsReady : RunsReady layout machine)
    (answered : userAnswer step (userStep layout platform machine step).2 = some value) :
    load32 (userStep layout platform machine step).1.mem layout.counter = value ∧
      (load32 machine.mem layout.counter < value ↔ UserBelowLimit layout machine step) := by
  have counts := user_answer_some layout platform machine step value answered
  obtain ⟨answer, after⟩ := counts_answer layout platform machine step runsReady counts
  obtain rfl := Option.some.inj (answered.symm.trans answer)
  refine ⟨after, ?_⟩
  rw [counted_up_iff]
  exact ⟨fun below _ => below, fun below => below counts⟩

theorem user_idles (machine : Machine) (step : UStep) (runsReady : RunsReady layout machine)
    (spared : CounterSpared layout platform machine step)
    (silent : userAnswer step (userStep layout platform machine step).2 = none) :
    load32 (userStep layout platform machine step).1.mem layout.counter =
        load32 machine.mem layout.counter ∧
      UserBelowLimit layout machine step := by
  have idle : ¬ Counts machine step := by
    intro counts
    have answer := (counts_answer layout platform machine step runsReady counts).1
    exact absurd (silent.symm.trans answer) (by simp)
  refine ⟨?_, fun counts => absurd counts idle⟩
  by_cases fault : machine.halted = false ∧ BusFault layout platform step
  -- the one step without a counterpart in the view: a trap inside the handler
  · obtain ⟨running, called, sign, accepted, silentBus⟩ := fault
    have clear := (spared running called).2 ⟨called, sign, accepted, silentBus⟩
    have readyHere := (runsReady running).at_step layout step
    refine load32_congr _ _ _ fun address inside => ?_
    rw [userStep, if_neg (Bool.eq_false_iff.mp running), called]
    exact sign_call_target (machine.atStep step) running readyHere sign accepted
      (counter_in_prot layout address inside) (clear address inside)
  · have quiet : Quiet layout platform machine step := fun running wrong => fault ⟨running, wrong⟩
    rw [step_counter layout platform machine step runsReady quiet, if_neg idle, add_zero]

theorem user_counter_increasing_iff (stored : Word) (key : Fin 16 → Byte) (machine : Machine)
    (steps : List UStep)
    (spared : Meets (userStep layout platform) (CounterSpared layout platform)
      (main layout platform stored key machine) steps) :
    (answers (userStep layout platform) userAnswer (main layout platform stored key machine)
        steps).Pairwise (· < ·) ↔
      Meets (userStep layout platform) (UserBelowLimit layout)
        (main layout platform stored key machine) steps := by
  have start := drop_runs_ready layout platform stored key machine
  have zero := main_counter layout platform stored key machine
  refine answers_increasing_iff (userStep layout platform) userAnswer (· < ·)
    (fun machine => load32 machine.mem layout.counter) (CounterSpared layout platform)
    (UserBelowLimit layout) (RunsReady layout) less_trans
    (fun machine step value ready _ => user_returns layout platform machine step value ready)
    (user_idles layout platform) (user_step_ready layout platform) _ ?_ steps start spared
  intro other step value ready _ fresh answered
  -- the first value is one
  obtain ⟨rfl, _⟩ := user_returns layout platform other step value ready answered
  have counts := user_answer_some layout platform other step _ answered
  rw [(counts_answer layout platform other step ready counts).2, fresh, zero]
  decide

end Pmp

section Both

open TzConfig SecureService WorldIsolation PmpSetup EnvironmentCall
open PmpProgram hiding Word

/-- In minimal-tz the values of the counter increase along a run exactly when no counter call finds
the counter at its limit, and so they do in minimal-pmp as long as no service writes over the
counter or over its own frames. -/
theorem counters_increasing_iff (image : SecureImage) (cmse : CmseCheck) (soc : Soc)
    (hidden : Hidden image soc) (sound : CmseSound soc cmse) (memory : Memory 32)
    (zero : load32 memory image.sCounter = 0) (ops : List NsOp) (layout : Layout)
    (platform : Platform) (stored : Word) (key : Fin 16 → Byte) (machine : Machine)
    (steps : List UStep) :
    ((answers (nsStep image cmse soc) nsAnswer ⟨memory, false⟩ ops).Pairwise (· < ·) ↔
        Meets (nsStep image cmse soc) (NsBelowLimit image) ⟨memory, false⟩ ops) ∧
      let start := main layout platform stored key machine
      Meets (userStep layout platform) (CounterSpared layout platform) start steps →
        ((answers (userStep layout platform) userAnswer start steps).Pairwise (· < ·) ↔
          Meets (userStep layout platform) (UserBelowLimit layout) start steps) := by
  constructor
  · exact ns_counter_increasing_iff image cmse soc hidden sound memory zero ops
  · intro start spared
    exact user_counter_increasing_iff layout platform stored key machine steps spared

theorem blank_counter : load32 blankMemory sampleImage.sCounter = 0 := rfl

def nsCounts : List NsOp := [.getCounter, .sign 0x20041000 0x20041008 16, .getCounter]

def counterStep : UStep := { signStep 0 0 with regs := fun _ => 0 }

def userCounts : List UStep := [counterStep, signStep 0x20002000 16, counterStep]

theorem user_counts_spared (machine : Machine) (step : UStep) (member : step ∈ userCounts) :
    CounterSpared sampleLayout sramBoard machine step := by
  have answered : ∀ step ∈ userCounts, HandlerFramesClear sampleLayout step.regs ∧
      BufferAnswers sampleLayout sramBoard step.regs := by decide
  obtain ⟨clear, answers⟩ := answered step member
  exact fun _ _ => ⟨clear, fun fault => absurd (answers ⟨fault.2.1, fault.2.2.1⟩) fault.2.2.2⟩

/-- Two counter calls around a signature, in either program. -/
theorem short_counters_increasing_iff :
    let soc := tzSauConfig resetSoc
    let step := nsStep sampleImage (attributionCheck soc) soc
    ((answers step nsAnswer ⟨blankMemory, false⟩ nsCounts).Pairwise (· < ·) ↔
        Meets step (NsBelowLimit sampleImage) ⟨blankMemory, false⟩ nsCounts) ∧
      let user := userStep sampleLayout sramBoard
      let start := main sampleLayout sramBoard secretValue keyValue resetMachine
      ((answers user userAnswer start userCounts).Pairwise (· < ·) ↔
        Meets user (UserBelowLimit sampleLayout) start userCounts) := by
  obtain ⟨ns, user⟩ := counters_increasing_iff sampleImage (attributionCheck (tzSauConfig resetSoc))
    (tzSauConfig resetSoc) (configured_hidden sampleImage resetSoc reset_unused)
    (attribution_check_sound (tzSauConfig resetSoc)) blankMemory blank_counter nsCounts sampleLayout
    sramBoard secretValue keyValue resetMachine userCounts
  exact ⟨ns, user ⟨user_counts_spared _ _ (by simp [userCounts]),
    user_counts_spared _ _ (by simp [userCounts]), user_counts_spared _ _ (by simp [userCounts]),
    trivial⟩⟩

theorem counter_after_calls (image : SecureImage) (cmse : CmseCheck) (soc : Soc) (memory : Memory 32)
    (calls : Nat) :
    let reached := finish (nsStep image cmse soc) ⟨memory, false⟩ (List.replicate calls .getCounter)
    reached.faulted = false ∧
      load32 reached.mem image.sCounter = load32 memory image.sCounter + BitVec.ofNat 32 calls := by
  induction calls generalizing memory with
  | zero => exact ⟨rfl, (BitVec.add_zero _).symm⟩
  | succ calls ih =>
      have next := ih (secretNextCounter image memory).1
      have value : load32 (secretNextCounter image memory).1 image.sCounter =
          load32 memory image.sCounter + 1 := load32_store32 _ _ _ (by decide)
      have total : 1 + BitVec.ofNat 32 calls = BitVec.ofNat 32 (calls + 1) := by
        rw [BitVec.ofNat_add, BitVec.add_comm]
        rfl
      rw [value, BitVec.add_assoc, total] at next
      exact next

/-- After 2^32 - 1 calls the next one returns zero. -/
theorem counter_comes_round :
    let soc := tzSauConfig resetSoc
    ¬ (answers (nsStep sampleImage (attributionCheck soc) soc) nsAnswer ⟨blankMemory, false⟩
      (List.replicate (2 ^ 32) .getCounter)).Pairwise (· < ·) := by
  intro soc increasing
  have below := (ns_counter_increasing_iff sampleImage (attributionCheck soc) soc
    (configured_hidden sampleImage resetSoc reset_unused) (attribution_check_sound soc) blankMemory
    blank_counter _).mp increasing
  have last : List.replicate (2 ^ 32) NsOp.getCounter =
      List.replicate (2 ^ 32 - 1) .getCounter ++ [.getCounter] := by
    rw [← List.replicate_succ', show 2 ^ 32 - 1 + 1 = 2 ^ 32 by norm_num]
  obtain ⟨running, value⟩ := counter_after_calls sampleImage (attributionCheck soc) soc blankMemory
    (2 ^ 32 - 1)
  rw [last, meets_append] at below
  apply below.2.1 running rfl
  rw [value, blank_counter]
  decide

end Both

end Rp2350Tee.ServiceCounter
