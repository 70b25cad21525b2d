import Mathlib.Tactic.IntervalCases
import Rp2350Tee.IdealServices
import Rp2350Tee.SecretFlow

/-!
`u_mode_entry` of `examples/minimal-pmp/main.c`, and with it the whole program: M-mode sets up the
PMP and tests it, U-mode calls the services, and its read of the secret ends in the trap
handler with the mailbox as the README shows it. The C code fixes the accesses and the
arguments of the calls; what else is in the registers is the compiler's.
-/

namespace Rp2350Tee.MinimalPmp

open ByteMemory PmpUnit PmpProgram PmpSetup TrapHandler PmpDrop TrapStack UserView ProtectedBlock
open IdealServices

def mbUUp : Nat := 4
def mbCnt1 : Nat := 5
def mbCnt2 : Nat := 6
def mbSign0 : Nat := 7
def mbLeaked : Nat := 10

/-- The program with the static array of `u_mode_entry`. -/
structure UserLayout extends Layout where
  challenge : Word
  challengeInSram : sramStart ≤ challenge.toNat ∧ challenge.toNat + 16 ≤ sramEnd
  challengeApart : ∀ object ∈ toPlacement.objects, Separate object (challenge, 16)

/-- What compiled code has in place for its `index`-th access, and what the destination of a
load holds before it. -/
structure Compiled where
  regs : Nat → Regs
  sp : Nat → Word
  pc : Nat → Word
  stale : Nat → Word

variable (layout : UserLayout) (platform : Platform) (code : Compiled)

def Compiled.step (index : Nat) (op : UOp) : UStep :=
  ⟨code.regs index, code.sp index, code.pc index, op⟩

def Compiled.call (index : Nat) (svc arg0 arg1 : Word) : UStep where
  regs := Function.update (Function.update (Function.update (code.regs index) a0 arg0) a1 arg1) a7 svc
  sp := code.sp index
  pc := code.pc index
  op := .ecall

def uStore (index : Nat) (width : Width) (address value : Word) (machine : Machine) : Machine :=
  (userStep layout.toLayout platform machine (code.step index (.store width address value))).1

def zeroExtended (bytes : List Byte) : Word :=
  bytes.foldr (fun byte word => word <<< 8 ||| byte.setWidth 32) 0

def uLoad (index : Nat) (width : Width) (address : Word) (machine : Machine) : Machine × Word :=
  let after := userStep layout.toLayout platform machine (code.step index (.load width address))
  (after.1, match after.2 with
    | .loaded bytes => zeroExtended bytes
    | _ => code.stale index)

def uEcall (index : Nat) (svc arg0 arg1 : Word) (machine : Machine) : Machine × Word :=
  let after := userStep layout.toLayout platform machine (code.call index svc arg0 arg1)
  (after.1, match after.2 with
    | .returned regs => regs a0
    | _ => code.stale index)

def mailboxStore (index word : Nat) (value : Word) (machine : Machine) : Machine :=
  uStore layout platform code index .word (layout.mailbox word) value machine

/-- Legitimate path: call M-mode services through ecall. -/
def legitimatePath (machine : Machine) : Machine :=
  let store := mailboxStore layout platform code
  let machine := store 0 mbUUp 0x55 machine
  let counted := uEcall layout platform code 1 svcGetCounter 0 0 machine
  let machine := store 2 mbCnt1 counted.2 counted.1
  let counted := uEcall layout platform code 3 svcGetCounter 0 0 machine
  let machine := store 4 mbCnt2 counted.2 counted.1
  let machine := (List.range 16).foldl (fun machine index =>
    uStore layout platform code (5 + index) .byte (byteAt layout.challenge index)
      (BitVec.ofNat 32 (index + 1)) machine) machine
  let signed := uEcall layout platform code 21 svcSignNumber layout.challenge 16 machine
  let first := uLoad layout platform code 22 .byte (byteAt layout.challenge 0) signed.1
  let second := uLoad layout platform code 23 .byte (byteAt layout.challenge 1) first.1
  let third := uLoad layout platform code 24 .byte (byteAt layout.challenge 2) second.1
  let fourth := uLoad layout platform code 25 .byte (byteAt layout.challenge 3) third.1
  store 26 mbSign0 (first.2 ||| second.2 <<< 8 ||| third.2 <<< 16 ||| fourth.2 <<< 24) fourth.1

/-- Illegal path: read the protected secret directly. -/
def illegalPath (machine : Machine) : Machine :=
  let store := mailboxStore layout platform code
  let machine := store 27 mbStage 0x0000BAD0 machine
  let leaked := uLoad layout platform code 28 .word layout.secret machine
  -- Only reached if isolation failed.
  let machine := store 29 mbLeaked leaked.2 leaked.1
  store 30 mbStage 0x0000FA11 machine

def uModeEntry (machine : Machine) : Machine :=
  illegalPath layout platform code (legitimatePath layout platform code machine)

theorem challenge_apart (object : Word × Nat) (member : object ∈ layout.toPlacement.objects)
    (address : Word) (inside : Within object.1 object.2 address) :
    ¬ Within layout.challenge 16 address :=
  objects_apart object (layout.challenge, 16) (layout.inSram object member).2
    layout.challengeInSram.2 (layout.challengeApart object member) address inside

theorem sram_reached (access : Access) (base : Word) (count : Nat) (whole : Nat) (start : Word)
    (range : sramStart ≤ start.toNat ∧ start.toNat + whole ≤ sramEnd)
    (part : ∀ index < count, Within start whole (byteAt base index))
    (apart : ∀ address, Within start whole address → ¬ Within layout.gProt 64 address) :
    userCan layout.toLayout platform access base count = true := by
  rw [userCan, Bool.and_eq_true, Bool.not_eq_true', touches_false]
  constructor
  · intro index below
    rw [protBlock, decide_eq_false_iff_not]
    exact apart _ (part index below)
  · simpa using fun index below =>
      sram_responds platform access start _ whole range (part index below)

theorem mailbox_reached (access : Access) (word : Nat) (small : word < 16) :
    userCan layout.toLayout platform access (layout.mailbox word) 4 = true :=
  sram_reached layout platform access _ 4 64 layout.gMb (mb_range layout.toLayout)
    (fun index below => mailbox_word layout.toLayout word small _
      (within_byteAt _ 4 index below (by omega)))
    fun address inside block => prot_not_mb layout.toLayout address block inside

theorem challenge_reached (access : Access) (index : Nat) (below : index < 16) :
    userCan layout.toLayout platform access (byteAt layout.challenge index) 1 = true := by
  apply sram_reached layout platform access _ 1 16 layout.challenge layout.challengeInSram
  · intro other single
    rw [byteAt_byteAt]
    exact within_byteAt _ 16 _ (by omega) (by omega)
  · exact fun address inside block =>
      challenge_apart layout (layout.gProt, 64) (by simp [Placement.objects]) address block inside

def MailboxHolds (memory : Memory 32) (words : Nat → Word) : Prop :=
  ∀ word < mbN, load32 memory (layout.mailbox word) = words word

theorem holds_stored (memory : Memory 32) (words : Nat → Word) (holds : MailboxHolds layout memory words)
    (word : Nat) (small : word < mbN) (value : Word) :
    MailboxHolds layout (store32 memory (layout.mailbox word) value)
      (Function.update words word value) := by
  intro other below
  by_cases here : other = word
  · subst here
    rw [Function.update_self]
    exact load32_store32 _ _ _ (by decide)
  · rw [Function.update_of_ne here, ← holds other below]
    exact load32_congr _ _ _ fun address inside => store32_outside _ _ _ _ <|
      SecretFlow.mailbox_words_apart layout.toLayout other word here
        (Nat.lt_trans below (by decide)) (Nat.lt_trans small (by decide)) address inside

theorem holds_congr (memory other : Memory 32) (words : Nat → Word)
    (holds : MailboxHolds layout memory words)
    (same : ∀ address, Within layout.gMb 64 address → other address = memory address) :
    MailboxHolds layout other words := fun word small =>
  (load32_congr _ _ _ fun address inside => same address
    (mailbox_word layout.toLayout word (Nat.lt_trans small (by decide)) address inside)).trans
    (holds word small)

theorem holds_elsewhere (memory : Memory 32) (words : Nat → Word)
    (holds : MailboxHolds layout memory words) (base : Word) (bytes : List Byte)
    (apart : ∀ address, Within base bytes.length address → ¬ Within layout.gMb 64 address) :
    MailboxHolds layout (storeBytes memory base bytes) words :=
  holds_congr layout memory _ words holds fun address inside =>
    storeBytes_outside memory base address bytes fun within => apart address within inside

theorem mailbox_keeps_stage (memory : Memory 32) (word : Nat) (small : word < mbN) (value : Word) :
    load32 (store32 memory (layout.mailbox word) value) layout.gStage = load32 memory layout.gStage :=
  load32_congr _ _ _ fun address inside => store32_outside _ _ _ _ fun inWord =>
    mb_not_stage layout.toLayout address
      (mailbox_word layout.toLayout word (Nat.lt_trans small (by decide)) address inWord) inside

structure Shows (words : Nat → Word) (counter : Word) (key : Fin 16 → Byte) (machine : Machine)
    (ideal : Ideal) : Prop where
  realises : Realises layout.toLayout machine ideal
  running : ideal.halted = false
  counter : ideal.counter = counter
  key : ideal.key = key
  stage : load32 ideal.mem layout.gStage = stageU
  mailbox : MailboxHolds layout ideal.mem words

def signedWord (key : Fin 16 → Byte) : Word :=
  (4 ^^^ key 3) ++ (3 ^^^ key 2) ++ (2 ^^^ key 1) ++ (1 ^^^ key 0)

section Steps

variable (words : Nat → Word) (counter : Word) (key : Fin 16 → Byte) (machine : Machine)
  (ideal : Ideal) (shows : Shows layout words counter key machine ideal)

include shows in
theorem advanced (step : UStep) (quiet : ¬ BusFault layout.toLayout platform step) :
    (userStep layout.toLayout platform machine step).2 =
        (idealOp layout.toLayout platform ideal step.regs step.op).2 ∧
      Realises layout.toLayout (userStep layout.toLayout platform machine step).1
        (idealOp layout.toLayout platform ideal step.regs step.op).1 := by
  have taken := realises_step layout.toLayout platform shows.realises step fun _ => quiet
  rwa [idealStep, shows.running, if_neg Bool.false_ne_true] at taken

include shows in
theorem stored (index : Nat) (width : Width) (address value : Word)
    (granted : userCan layout.toLayout platform .write address width.bytes = true) :
    Realises layout.toLayout (uStore layout platform code index width address value machine)
      { ideal with mem := storeBytes ideal.mem address (storeValue width value) } := by
  have taken := (advanced layout platform words counter key machine ideal shows
    (code.step index (.store width address value)) fun fault => by cases fault.1).2
  have written : idealOp layout.toLayout platform ideal (code.regs index) (.store width address value) =
      ({ ideal with mem := storeBytes ideal.mem address (storeValue width value) }, .stored) :=
    if_pos granted
  change Realises layout.toLayout _ (idealOp layout.toLayout platform ideal (code.regs index)
    (.store width address value)).1 at taken
  rwa [written] at taken

include shows in
theorem loaded (index : Nat) (width : Width) (address : Word)
    (granted : userCan layout.toLayout platform .read address width.bytes = true) :
    Realises layout.toLayout (uLoad layout platform code index width address machine).1 ideal ∧
      (uLoad layout platform code index width address machine).2 =
        zeroExtended (loadBytes ideal.mem address width.bytes) := by
  obtain ⟨seen, taken⟩ := advanced layout platform words counter key machine ideal shows
    (code.step index (.load width address)) fun fault => by cases fault.1
  have read : idealOp layout.toLayout platform ideal (code.regs index) (.load width address) =
      (ideal, .loaded (loadBytes ideal.mem address width.bytes)) := if_pos granted
  change _ = (idealOp layout.toLayout platform ideal (code.regs index) (.load width address)).2 at seen
  change Realises layout.toLayout _
    (idealOp layout.toLayout platform ideal (code.regs index) (.load width address)).1 at taken
  rw [read] at seen taken
  refine ⟨taken, ?_⟩
  rw [uLoad]
  simp only [seen]

include shows in
theorem called (index : Nat) (svc arg0 arg1 : Word)
    (quiet : ¬ BusFault layout.toLayout platform (code.call index svc arg0 arg1)) :
    let after := idealCall layout.toLayout ideal (code.call index svc arg0 arg1).regs
    Realises layout.toLayout (uEcall layout platform code index svc arg0 arg1 machine).1 after ∧
      (uEcall layout platform code index svc arg0 arg1 machine).2 =
        load32 after.mem (frameSlot (trapFrame layout.toLayout) a0) := by
  intro after
  obtain ⟨seen, taken⟩ := advanced layout platform words counter key machine ideal shows
    (code.call index svc arg0 arg1) quiet
  have shown : (userStep layout.toLayout platform machine (code.call index svc arg0 arg1)).2 =
    .returned (loadFrame after.mem (trapFrame layout.toLayout)) := seen
  refine ⟨taken, ?_⟩
  rw [uEcall]
  simp only [shown]
  rfl

include shows in
theorem shown_elsewhere (after : Machine) (memory : Memory 32) (next : Word)
    (realises : Realises layout.toLayout after ⟨memory, next, ideal.key, ideal.halted⟩)
    (stage : ∀ address, Within layout.gStage 4 address → memory address = ideal.mem address)
    (mailbox : ∀ address, Within layout.gMb 64 address → memory address = ideal.mem address) :
    Shows layout words next key after ⟨memory, next, ideal.key, ideal.halted⟩ where
  realises := realises
  running := shows.running
  counter := rfl
  key := shows.key
  stage := (load32_congr _ _ _ stage).trans shows.stage
  mailbox := holds_congr layout ideal.mem memory words shows.mailbox mailbox

include shows in
theorem mailbox_stored (index word : Nat) (small : word < mbN) (value : Word) :
    ∃ after, Shows layout (Function.update words word value) counter key
      (mailboxStore layout platform code index word value machine) after := by
  have few : word < 16 := Nat.lt_trans small (by decide)
  have realises := stored layout platform code words counter key machine ideal shows index .word
    (layout.mailbox word) value (mailbox_reached layout platform .write word few)
  exact ⟨_, realises, shows.running, shows.counter, shows.key,
    (mailbox_keeps_stage layout ideal.mem word small value).trans shows.stage,
    holds_stored layout ideal.mem words shows.mailbox word small value⟩

include shows in
theorem byte_stored (index place : Nat) (below : place < 16) (value : Word) :
    ∃ after, Shows layout words counter key
        (uStore layout platform code index .byte (byteAt layout.challenge place) value machine) after ∧
      after.mem = Function.update ideal.mem (byteAt layout.challenge place) (value.extractLsb' 0 8) := by
  have realises := stored layout platform code words counter key machine ideal shows index .byte
    (byteAt layout.challenge place) value (challenge_reached layout platform .write place below)
  have inside : Within layout.challenge 16 (byteAt layout.challenge place) :=
    within_byteAt _ 16 _ below (by omega)
  have apart (object : Word × Nat) (member : object ∈ layout.toPlacement.objects) (address : Word)
      (within : Within object.1 object.2 address) :
      Function.update ideal.mem (byteAt layout.challenge place) (value.extractLsb' 0 8) address =
        ideal.mem address := by
    apply Function.update_of_ne
    rintro rfl
    exact challenge_apart layout object member _ within inside
  obtain rfl := shows.counter
  exact ⟨_, shown_elsewhere layout words _ key machine ideal shows _ _ _ realises
    (apart (layout.gStage, 4) (by simp [Placement.objects]))
    (apart (layout.gMb, 64) (by simp [Placement.objects])), rfl⟩

include shows in
theorem challenge_filled (count : Nat) (bounded : count ≤ 16) :
    ∃ after, Shows layout words counter key
        ((List.range count).foldl (fun machine index =>
          uStore layout platform code (5 + index) .byte (byteAt layout.challenge index)
            (BitVec.ofNat 32 (index + 1)) machine) machine) after ∧
      ∀ index < count, after.mem (byteAt layout.challenge index) = BitVec.ofNat 8 (index + 1) := by
  induction count with
  | zero => exact ⟨ideal, shows, fun index below => absurd below (Nat.not_lt_zero index)⟩
  | succ count ih =>
      obtain ⟨prior, sofar, bytes⟩ := ih (by omega)
      obtain ⟨after, shown, memory⟩ := byte_stored layout platform code words counter key _ prior sofar
        (5 + count) count (by omega) (BitVec.ofNat 32 (count + 1))
      rw [List.range_succ, List.foldl_append, List.foldl_cons, List.foldl_nil]
      refine ⟨after, shown, fun index below => ?_⟩
      rw [memory]
      by_cases here : index = count
      · subst here
        rw [Function.update_self]
        apply BitVec.eq_of_toNat_eq
        simp
      · rw [Function.update_of_ne, bytes index (by omega)]
        intro same
        have offsets := congrArg (fun address => (address - layout.challenge).toNat) same
        simp only [offset_byteAt layout.challenge index (by omega),
          offset_byteAt layout.challenge count (by omega)] at offsets
        exact here offsets

theorem frame_elsewhere (memory : Memory 32) (value address : Word)
    (outside : ¬ Within layout.gMTrapStack 512 address) :
    store32 memory (frameSlot (trapFrame layout.toLayout) a0) value address = memory address :=
  store32_outside _ _ _ _ fun slot => outside (slot_in_stack layout.toLayout address slot)

include shows in
theorem counter_taken (index : Nat) :
    (uEcall layout platform code index svcGetCounter 0 0 machine).2 = counter + 1 ∧
      ∃ after, Shows layout words (counter + 1) key
        (uEcall layout platform code index svcGetCounter 0 0 machine).1 after := by
  have notSign : svcGetCounter ≠ svcSignNumber := by decide
  obtain ⟨realises, value⟩ := called layout platform code words counter key machine ideal shows index
    svcGetCounter 0 0 fun fault => notSign fault.2.1
  have answered (regs : Regs) (number : regs a7 = svcGetCounter) :
      idealCall layout.toLayout ideal regs =
        ⟨store32 (savedMemory layout.toLayout ideal.mem regs)
          (frameSlot (trapFrame layout.toLayout) a0) (ideal.counter + 1),
          ideal.counter + 1, ideal.key, ideal.halted⟩ := by
    rw [idealCall, idealServe, if_pos number]
  have kept (regs : Regs) (address : Word) (outside : ¬ Within layout.gMTrapStack 512 address) :=
    (frame_elsewhere layout (savedMemory layout.toLayout ideal.mem regs) (ideal.counter + 1) address
      outside).trans (saved_outside_stack layout.toLayout ideal.mem regs address outside)
  obtain rfl := shows.counter
  rw [answered (code.call index svcGetCounter 0 0).regs rfl] at realises value
  rw [load32_store32 _ _ _ (by decide)] at value
  refine ⟨value, _, shown_elsewhere layout words _ key machine ideal shows _ _ _ realises ?_ ?_⟩
  · exact fun address inside => kept _ address (stage_not_stack layout.toLayout address inside)
  · exact fun address inside => kept _ address (mb_not_stack layout.toLayout address inside)

theorem challenge_accepted :
    Accepted layout.toLayout layout.challenge 16 ∧ Responsive platform layout.challenge 16 := by
  have range := layout.challengeInSram
  have prot := prot_range layout.toLayout
  have apart := layout.challengeApart (layout.gProt, 64) (by simp [Placement.objects])
  constructor
  · have sixteen : (16 : Word).toNat = 16 := rfl
    have block : (64 : Word).toNat = 64 := rfl
    unfold Separate at apart
    dsimp only at apart
    unfold sramStart sramEnd at range prot
    refine ⟨by decide, ?_⟩
    rw [gt_iff_lt, BitVec.lt_def, BitVec.lt_def, BitVec.toNat_add, BitVec.toNat_add, sixteen, block]
    omega
  · intro index below
    have inside := within_byteAt layout.challenge 16 index below (by omega)
    exact ⟨sram_responds platform .read _ _ 16 range inside,
      sram_responds platform .write _ _ 16 range inside⟩

include shows in
theorem challenge_signed (index : Nat)
    (bytes : ∀ index < 16, ideal.mem (byteAt layout.challenge index) = BitVec.ofNat 8 (index + 1)) :
    ∃ after, Shows layout words counter key
        (uEcall layout platform code index svcSignNumber layout.challenge 16 machine).1 after ∧
      ∀ index : Fin 16, after.mem (byteAt layout.challenge index.val) =
        BitVec.ofNat 8 (index.val + 1) ^^^ key index := by
  obtain ⟨accepted, responsive⟩ := challenge_accepted layout platform
  have notCounter : svcSignNumber ≠ svcGetCounter := by decide
  have realises := (called layout platform code words counter key machine ideal shows index
    svcSignNumber layout.challenge 16 fun fault => fault.2.2.2 responsive).1
  have answered (regs : Regs) (number : regs a7 = svcSignNumber) (buf : regs a0 = layout.challenge)
      (len : regs a1 = 16) :
      idealCall layout.toLayout ideal regs =
        ⟨store32 (signedMemory ideal.key layout.challenge 16 (savedMemory layout.toLayout ideal.mem regs))
          (frameSlot (trapFrame layout.toLayout) a0) 0, ideal.counter, ideal.key, ideal.halted⟩ := by
    rw [idealCall, idealServe, number, if_neg notCounter, if_pos rfl, buf, len, if_pos accepted]
    rfl
  have kept (regs : Regs) (object : Word × Nat) (member : object ∈ layout.toPlacement.objects)
      (address : Word) (inside : Within object.1 object.2 address)
      (outside : ¬ Within layout.gMTrapStack 512 address) :
      store32 (signedMemory ideal.key layout.challenge 16 (savedMemory layout.toLayout ideal.mem regs))
        (frameSlot (trapFrame layout.toLayout) a0) 0 address = ideal.mem address := by
    rw [frame_elsewhere layout _ _ _ outside,
      signed_outside _ _ _ _ _ (challenge_apart layout object member address inside),
      saved_outside_stack layout.toLayout _ _ _ outside]
  obtain rfl := shows.counter
  rw [answered (code.call index svcSignNumber layout.challenge 16).regs rfl rfl rfl] at realises
  refine ⟨_, shown_elsewhere layout words _ key machine ideal shows _ _ _ realises ?_ ?_, ?_⟩
  · exact fun address inside => kept _ (layout.gStage, 4) (by simp [Placement.objects]) address inside
      (stage_not_stack layout.toLayout address inside)
  · exact fun address inside => kept _ (layout.gMb, 64) (by simp [Placement.objects]) address inside
      (mb_not_stack layout.toLayout address inside)
  · intro place
    have inside := within_byteAt layout.challenge 16 place.val place.isLt (by omega)
    have outside : ¬ Within layout.gMTrapStack 512 (byteAt layout.challenge place.val) := fun stack =>
      challenge_apart layout (layout.gMTrapStack, 512) (by simp [Placement.objects]) _ stack inside
    dsimp only
    rw [frame_elsewhere layout _ _ _ outside, signedMemory, if_pos inside,
      saved_outside_stack layout.toLayout _ _ _ outside, bytes place.val place.isLt, shows.key]
    congr 2
    apply Fin.ext
    change (byteAt layout.challenge place.val - layout.challenge).toNat % 16 = place.val
    rw [offset_byteAt _ _ (by omega), Nat.mod_eq_of_lt place.isLt]

include shows in
theorem byte_loaded (index place : Nat) (below : place < 16) :
    Shows layout words counter key
        (uLoad layout platform code index .byte (byteAt layout.challenge place) machine).1 ideal ∧
      (uLoad layout platform code index .byte (byteAt layout.challenge place) machine).2 =
        (ideal.mem (byteAt layout.challenge place)).setWidth 32 := by
  obtain ⟨realises, value⟩ := loaded layout platform code words counter key machine ideal shows index
    .byte (byteAt layout.challenge place) (challenge_reached layout platform .read place below)
  refine ⟨{ shows with realises := realises }, ?_⟩
  rw [value]
  simp [loadBytes, Width.bytes, List.range_succ, zeroExtended]

include shows in
theorem word_read (result : ∀ place : Fin 16, ideal.mem (byteAt layout.challenge place.val) =
      BitVec.ofNat 8 (place.val + 1) ^^^ key place) :
    let first := uLoad layout platform code 22 .byte (byteAt layout.challenge 0) machine
    let second := uLoad layout platform code 23 .byte (byteAt layout.challenge 1) first.1
    let third := uLoad layout platform code 24 .byte (byteAt layout.challenge 2) second.1
    let fourth := uLoad layout platform code 25 .byte (byteAt layout.challenge 3) third.1
    Shows layout words counter key fourth.1 ideal ∧
      first.2 ||| second.2 <<< 8 ||| third.2 <<< 16 ||| fourth.2 <<< 24 = signedWord key := by
  have load := byte_loaded layout platform code words counter key
  obtain ⟨shown1, value1⟩ := load machine ideal shows 22 0 (by decide)
  obtain ⟨shown2, value2⟩ := load _ ideal shown1 23 1 (by decide)
  obtain ⟨shown3, value3⟩ := load _ ideal shown2 24 2 (by decide)
  obtain ⟨shown4, value4⟩ := load _ ideal shown3 25 3 (by decide)
  refine ⟨shown4, ?_⟩
  rw [value1, value2, value3, value4, packed_word]
  exact congrArg₂ _ (congrArg₂ _ (congrArg₂ _ (result 3) (result 2)) (result 1)) (result 0)

end Steps

theorem init_mailbox (stored : Word) (key : Fin 16 → Byte) (machine : Machine) :
    MailboxHolds layout (mainInit layout.toLayout stored key machine).mem
      (Function.update (fun _ => 0) mbMagic 0x504D5002) := by
  have block (base : Word) (bytes : List Byte)
      (inside : ∀ address, Within base bytes.length address → Within layout.gProt 64 address)
      (address : Word) (within : Within base bytes.length address) :
      ¬ Within layout.gMb 64 address :=
    prot_not_mb layout.toLayout address (inside address within)
  have zeros : MailboxHolds layout
      (storeWords machine.mem layout.gMb (List.replicate mbN 0)) (fun _ => 0) := by
    intro word small
    have read := load32_storeWords machine.mem layout.gMb (List.replicate mbN 0) (by decide) word
      (by simpa using small)
    rwa [List.getElem_replicate] at read
  have magic := holds_stored layout _ _ zeros mbMagic (by decide) 0x504D5002
  have secret := holds_elsewhere layout _ _ magic layout.secret (wordBytes stored)
    (block _ _ fun address inside => secret_in_prot layout.toLayout address inside)
  have counter := holds_elsewhere layout _ _ secret layout.counter (wordBytes 0)
    (block _ _ fun address inside => counter_in_prot layout.toLayout address inside)
  refine holds_elsewhere layout _ _ counter layout.key (List.ofFn key) (block _ _ ?_)
  intro address inside
  rw [List.length_ofFn, within_iff_index] at inside
  obtain ⟨index, below, rfl⟩ := inside
  exact key_in_prot layout.toLayout ⟨index, below⟩

def dropWords (stored : Word) : Nat → Word :=
  Function.update (Function.update (Function.update (Function.update (Function.update (fun _ => 0)
    mbMagic 0x504D5002) mbXh3Before stored) mbXh3Mcause 5) mbXh3After stored) mbStage 0x00000A11

theorem drop_mailbox (stored : Word) (memory : Memory 32)
    (holds : MailboxHolds layout memory (Function.update (fun _ => 0) mbMagic 0x504D5002)) :
    MailboxHolds layout (dropMemory layout.toLayout platform stored memory) (dropWords stored) := by
  have stage (memory : Memory 32) (words : Nat → Word) (holds : MailboxHolds layout memory words)
      (value : Word) : MailboxHolds layout (store32 memory layout.gStage value) words :=
    holds_elsewhere layout memory words holds layout.gStage (wordBytes value) fun address inside within =>
      mb_not_stage layout.toLayout address within inside
  have before := stage _ _ (holds_stored layout _ _ holds mbXh3Before (by decide) stored) stageXh3
  have saved := holds_congr layout _ (savedMemory layout.toLayout _ (platform.selfTestRegs stored)) _
    before fun address inside =>
      saved_outside_stack layout.toLayout _ _ address (mb_not_stack layout.toLayout address inside)
  have recovered := stage _ _ (holds_stored layout _ _ saved mbXh3Mcause (by decide) 5) stageU
  have tested := holds_elsewhere layout _ _ recovered layout.mainT
    (wordBytes (platform.selfTestStale stored)) fun address inside within =>
      mb_not_test layout.toLayout address within inside
  have after := stage _ _ (holds_stored layout _ _ tested mbXh3After (by decide) stored) stageU
  exact holds_stored layout _ _ after mbStage (by decide) 0x00000A11

theorem drop_stage (stored : Word) (memory : Memory 32) :
    load32 (dropMemory layout.toLayout platform stored memory) layout.gStage = stageU := by
  rw [dropMemory, mailbox_keeps_stage layout _ mbStage (by decide), load32_store32 _ _ _ (by decide)]

theorem main_shows (stored : Word) (key : Fin 16 → Byte) (machine : Machine) :
    let drop := main layout.toLayout platform stored key machine
    Shows layout (dropWords stored) 0 key drop ⟨drop.mem, 0, key, false⟩ := by
  intro drop
  have memory := (main_at_drop layout.toLayout platform stored key machine).mem
  refine ⟨main_realises layout.toLayout platform stored key machine _ (alike_refl layout.toLayout _),
    rfl, rfl, rfl, ?_, ?_⟩
  · exact (congrArg (fun memory => load32 memory layout.gStage) memory).trans
      (drop_stage layout platform stored _)
  · exact memory ▸ drop_mailbox layout platform stored _ (init_mailbox layout stored key machine)

section Run

variable (words : Nat → Word) (counter : Word) (key : Fin 16 → Byte) (machine : Machine)
  (ideal : Ideal) (shows : Shows layout words counter key machine ideal)

include shows in
theorem legitimate_path_shows :
    ∃ after, Shows layout (Function.update (Function.update (Function.update (Function.update words
        mbUUp 0x55) mbCnt1 (counter + 1)) mbCnt2 (counter + 1 + 1)) mbSign0 (signedWord key))
      (counter + 1 + 1) key (legitimatePath layout platform code machine) after := by
  have stored := mailbox_stored layout platform code
  have taken := counter_taken layout platform code
  unfold legitimatePath
  dsimp only
  obtain ⟨ideal1, up⟩ := stored words counter key machine ideal shows 0 mbUUp (by decide) 0x55
  generalize mailboxStore layout platform code 0 mbUUp 0x55 machine = machine1 at up ⊢
  obtain ⟨value, ideal2, one⟩ := taken _ counter key machine1 ideal1 up 1
  rw [value]
  obtain ⟨ideal3, first⟩ := stored _ _ key _ ideal2 one 2 mbCnt1 (by decide) (counter + 1)
  generalize mailboxStore layout platform code 2 mbCnt1 (counter + 1) _ = machine2 at first ⊢
  obtain ⟨value, ideal4, two⟩ := taken _ _ key machine2 ideal3 first 3
  rw [value]
  obtain ⟨ideal5, second⟩ := stored _ _ key _ ideal4 two 4 mbCnt2 (by decide) (counter + 1 + 1)
  generalize mailboxStore layout platform code 4 mbCnt2 (counter + 1 + 1) _ = machine3 at second ⊢
  obtain ⟨ideal6, filled, bytes⟩ :=
    challenge_filled layout platform code _ _ key machine3 ideal5 second 16 (Nat.le_refl 16)
  generalize (List.range 16).foldl _ machine3 = machine4 at filled ⊢
  obtain ⟨ideal7, signed, result⟩ :=
    challenge_signed layout platform code _ _ key machine4 ideal6 filled 21 bytes
  generalize uEcall layout platform code 21 svcSignNumber layout.challenge 16 machine4 = after
    at signed ⊢
  obtain ⟨loaded, word⟩ := word_read layout platform code _ _ key after.1 ideal7 signed result
  rw [word]
  exact stored _ _ key _ ideal7 loaded 26 mbSign0 (by decide) (signedWord key)

theorem halted_stays (halted : machine.halted = true) (index word : Nat) (value : Word) :
    mailboxStore layout platform code index word value machine = machine := by
  rw [mailboxStore, uStore, userStep, if_pos halted]

include shows in
theorem illegal_path_caught :
    let final := illegalPath layout platform code machine
    final.halted = true ∧ load32 final.mem layout.counter = counter ∧
      keyBytes final.mem layout.toPlacement = key ∧
      MailboxHolds layout final.mem (Function.update (Function.update (Function.update
        (Function.update words mbStage 0x0000BAD0) mbMcause 5) mbMtval
        (platform.mtvalOf layout.secret)) mbStage 0x0000600D) := by
  obtain ⟨ideal1, staged⟩ := mailbox_stored layout platform code words counter key machine ideal shows
    27 mbStage (by decide) 0x0000BAD0
  unfold illegalPath
  dsimp only
  generalize mailboxStore layout platform code 27 mbStage 0x0000BAD0 machine = machine1 at staged ⊢
  have refused : userCan layout.toLayout platform .read layout.secret 4 = false := by
    have touched : touches (protBlock layout.toLayout) layout.secret 4 = true :=
      (touches_iff _ _).mpr ⟨0, by decide, secret_touches layout.toLayout 0 (by decide)⟩
    rw [userCan, touched]
    rfl
  have notTest : load32 ideal1.mem layout.gStage ≠ stageXh3 := by
    rw [staged.stage]
    decide
  have caught : idealOp layout.toLayout platform ideal1 (code.regs 28) (.load .word layout.secret) =
      (⟨recordedMemory layout.toLayout (savedMemory layout.toLayout ideal1.mem (code.regs 28)) 5
        (platform.mtvalOf layout.secret), ideal1.counter, ideal1.key, true⟩, .faulted) := by
    have recorded : faultView layout.toLayout ideal1.mem (code.regs 28) 5
        (platform.mtvalOf layout.secret) = ⟨recordedMemory layout.toLayout
          (savedMemory layout.toLayout ideal1.mem (code.regs 28)) 5 (platform.mtvalOf layout.secret),
          true⟩ := if_neg notTest
    rw [idealOp, show Width.bytes .word = 4 from rfl, refused, if_neg Bool.false_ne_true, recorded]
    rfl
  have realises := (advanced layout platform _ counter key machine1 ideal1 staged
    (code.step 28 (.load .word layout.secret)) fun fault => by cases fault.1).2
  change Realises layout.toLayout (uLoad layout platform code 28 .word layout.secret machine1).1
    (idealOp layout.toLayout platform ideal1 (code.regs 28) (.load .word layout.secret)).1 at realises
  rw [caught] at realises
  generalize uLoad layout platform code 28 .word layout.secret machine1 = leaked at realises ⊢
  obtain ⟨mem, counted, keyed, halted⟩ := realises.represents
  have halted : leaked.1.halted = true := halted
  rw [halted_stays layout platform code leaked.1 halted,
    halted_stays layout platform code leaked.1 halted]
  refine ⟨halted, counted.trans staged.counter, keyed.trans staged.key, ?_⟩
  have saved := holds_congr layout _ (savedMemory layout.toLayout ideal1.mem (code.regs 28)) _
    staged.mailbox fun address inside =>
      saved_outside_stack layout.toLayout _ _ address (mb_not_stack layout.toLayout address inside)
  have recorded := holds_stored layout _ _ (holds_stored layout _ _ (holds_stored layout _ _ saved
    mbMcause (by decide) 5) mbMtval (by decide) (platform.mtvalOf layout.secret)) mbStage (by decide)
    0x0000600D
  exact holds_congr layout _ _ _ recorded fun address inside =>
    mem.eq address fun block => prot_not_mb layout.toLayout address block inside

end Run

/-- The mailbox of the README, for a secret, a key and what `mtval` reports. -/
def expected (stored tval : Word) (key : Fin 16 → Byte) : List Word :=
  [0x504D5002, stored, 5, stored, 0x55, 1, 2, signedWord key, 5, tval, 0, 0x600D]

/-- The program from reset, for every placement the linker can produce, every board, secret and
key, every state M-mode finds and whatever the compiled U-mode code has in its registers:
the self-test recovers, the services answer, the read of the secret stops U-mode for good
before it leaks, and the counter and the key are in the block as they should be. -/
theorem u_mode_entry_caught (stored : Word) (key : Fin 16 → Byte) (machine : Machine) :
    let final := uModeEntry layout platform code (main layout.toLayout platform stored key machine)
    final.halted = true ∧ load32 final.mem layout.counter = 2 ∧
      keyBytes final.mem layout.toPlacement = key ∧ ∀ word < mbN,
        (expected stored (platform.mtvalOf layout.secret) key)[word]? =
          some (load32 final.mem (layout.mailbox word)) := by
  have start := main_shows layout platform stored key machine
  obtain ⟨ideal, shows⟩ := legitimate_path_shows layout platform code _ _ _ _ _ start
  obtain ⟨halted, counter, kept, mailbox⟩ := illegal_path_caught layout platform code _ _ _ _ ideal shows
  refine ⟨halted, counter, kept, fun word small => ?_⟩
  rw [uModeEntry, mailbox word small]
  have below : word < 12 := small
  interval_cases word <;> rfl

def sampleUserLayout : UserLayout where
  toLayout := sampleLayout
  challenge := 0x20000300
  challengeInSram := by decide
  challengeApart := by decide

def sampleCompiled : Compiled := ⟨fun _ _ => 0, fun _ => 0x20081000, fun _ => 0x20001400, fun _ => 0⟩

theorem reset_run_caught :
    let final := uModeEntry sampleUserLayout flatBoard sampleCompiled
      (main sampleLayout flatBoard secretValue keyValue resetMachine)
    final.halted = true ∧ load32 final.mem sampleLayout.counter = 2 ∧
      keyBytes final.mem sampleLayout.toPlacement = keyValue ∧ ∀ word < mbN,
        (expected secretValue (flatBoard.mtvalOf sampleLayout.secret) keyValue)[word]? =
          some (load32 final.mem (sampleLayout.mailbox word)) :=
  u_mode_entry_caught sampleUserLayout flatBoard sampleCompiled secretValue keyValue resetMachine

example : signedWord keyValue = 0xACA4A4A4 := by decide

end Rp2350Tee.MinimalPmp
