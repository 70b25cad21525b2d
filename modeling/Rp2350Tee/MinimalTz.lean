import Rp2350Tee.BusFilter
import Rp2350Tee.FaultEvidence
import Rp2350Tee.NonSecureImage
import Rp2350Tee.SecureSign

/-!
The demonstration of minimal-tz from end to end: `main` in `secure/main_s.c` sets up the
isolation and launches the Non-Secure image, `ns_main` in `nonsecure/main_ns.c` calls the
services and then reads Secure RAM, and the fault handler takes the evidence.
-/

namespace Rp2350Tee.MinimalTz

open ByteMemory TzConfig BusFilter SecureService WorldIsolation SecureSign NonSecureImage FaultEvidence

def acAll : Word :=
  accessctrlDbg ||| accessctrlDma ||| accessctrlCore1 ||| accessctrlCore0 ||| accessctrlSp |||
    accessctrlSu ||| accessctrlNsp ||| accessctrlNsu

def acPeriphFirst : Nat := 0x14
def acPeriphLast : Nat := 0xe8

/-- `for (off = AC_PERIPH_FIRST; off <= AC_PERIPH_LAST; off += 4u)` -/
def acPeriphOffsets : List Nat :=
  (List.range ((acPeriphLast - acPeriphFirst) / 4 + 1)).map fun index => acPeriphFirst + 4 * index

variable (chip : Chip Nat)

def tzAccessctrlOpenNs (ac : AccessCtrl Nat) : AccessCtrl Nat :=
  -- Reset ACCESSCTRL config to defaults
  let ac := ac.write chip .core0 (.cfgreset (passwordBits ||| 0x1))
  -- Allow all GPIOs to be driven from Non-Secure
  let ac := ac.write chip .core0 (.gpioNsmask0 0xFFFFFFFF)
  let ac := ac.write chip .core0 (.gpioNsmask1 0xFFFFFFFF)
  -- Grant NS access on every peripheral register
  acPeriphOffsets.foldl
    (fun ac off => ac.write chip .core0 (.grant off (passwordBits ||| acAll))) ac

/-- Its arrays, on the Non-Secure stack above the mailbox. -/
structure NsStack where
  challenge : Word
  result : Word
  inStack : ∀ array ∈ [challenge, result],
    nsMailboxAddr.toNat + 28 ≤ array.toNat ∧ array.toNat + 16 ≤ nsStackTop.toNat
  apart : Separate (challenge, 16) (result, 16)

variable (image : SecureImage) (cmse : CmseCheck) (soc : Soc) (stack : NsStack)

/-- `NS_MB[index] = value` -/
def mailboxStore (index : Nat) (value : Word) (world : World) : World :=
  (nsStep image cmse soc world (.store .word (byteAt nsMailboxAddr (4 * index)) value)).1

def byteStore (address value : Word) (world : World) : World :=
  (nsStep image cmse soc world (.store .byte address value)).1

def returned : NsResult → Word
  | .loaded bytes => bytes.foldr (fun byte word => word <<< 8 ||| byte.setWidth 32) 0
  | .counter value => value
  | .signed code => BitVec.ofInt 32 code
  | _ => 0

theorem returned_counter (value : Word) : returned (.counter value) = value := rfl

theorem returned_signed : returned (.signed 0) = 0 := rfl

def byteLoad (address : Word) (world : World) : Word :=
  returned (nsStep image cmse soc world (.load .byte address)).2

/-- Legitimate path: call Secure services through the veneers. -/
def legitimatePath (world : World) : World :=
  let store := mailboxStore image cmse soc
  let counted := nsStep image cmse soc world .getCounter
  let world := store 1 (returned counted.2) counted.1
  let counted := nsStep image cmse soc world .getCounter
  let world := store 2 (returned counted.2) counted.1
  let world := store 6 2 world
  let world := (List.range 16).foldl (fun world index =>
    byteStore image cmse soc (byteAt stack.result index) 0
      (byteStore image cmse soc (byteAt stack.challenge index) (BitVec.ofNat 32 (index + 1)) world)) world
  let signed := nsStep image cmse soc world (.sign stack.challenge stack.result 16)
  let world := store 3 (returned signed.2) signed.1
  let load (index : Nat) := byteLoad image cmse soc (byteAt stack.result index) world
  let world := store 4 (load 0 ||| load 1 <<< 8 ||| load 2 <<< 16 ||| load 3 <<< 24) world
  store 6 3 world

/-- Illegal path: read Secure RAM directly. -/
def illegalPath (world : World) : World :=
  let store := mailboxStore image cmse soc
  let world := store 6 0xBAD0 world
  let leaked := nsStep image cmse soc world (.load .word sRamStart)
  -- only reached if isolation failed
  let world := store 5 (returned leaked.2) leaked.1
  store 6 0xFA11 world

def nsMain (world : World) : World :=
  let store := mailboxStore image cmse soc
  let world := (List.range 7).foldl (fun world index => store index 0 world) world
  let world := store 0 0x4E530001 world
  let world := store 6 1 world
  illegalPath image cmse soc (legitimatePath image cmse soc stack world)

structure Machine where
  soc : Soc
  accessCtrl : AccessCtrl Nat
  mem : Memory 32

variable (nsImage : NsImage)

/-- Up to the end of `ns_main`; `fuel` bounds the `.bss` loop of the Non-Secure start-up. -/
def main (fuel : Nat) (machine : Machine) : Option (Machine × World) :=
  let soc := tzIsolationConfig machine.soc
  let accessCtrl := tzAccessctrlOpenNs chip machine.accessCtrl
  (nsMainBegins nsImage fuel machine.mem).map fun boot =>
    (⟨soc, accessCtrl, boot.mem⟩, nsMain image cmse soc stack ⟨boot.mem, false⟩)

def RamOpen : Prop :=
  ∀ address : Word, 0x20040000 ≤ address.toNat → address.toNat < 0x20080000 →
    soc.sau.attribution address = .nonSecure

theorem configured_ram_open (unused : UnusedDisabled soc) : RamOpen (tzIsolationConfig soc) := by
  intro address low high
  have ram : (decide (nsRamStart ≤ address) && decide (address ≤ nsRamLimit)) = true := by
    rw [Bool.and_eq_true, decide_eq_true_eq, decide_eq_true_eq, BitVec.le_def, BitVec.le_def]
    exact ⟨low, Nat.le_of_lt_succ high⟩
  have veneer : isVeneer address = false := by
    rw [isVeneer, Bool.and_eq_false_iff, decide_eq_false_iff_not, decide_eq_false_iff_not,
      BitVec.le_def, BitVec.le_def]
    right
    exact Nat.not_le.mpr (Nat.lt_of_lt_of_le (by decide) low)
  have same : (tzIsolationConfig soc).sau = (tzSauConfig soc).sau := rfl
  rw [same, unused_attribution soc unused, partition, veneer, isNonSecure, ram]
  simp

def InPage (base : Word) (count : Nat) : Prop :=
  nsMailboxAddr.toNat ≤ base.toNat ∧ base.toNat + count ≤ nsStackTop.toNat

/-- The state of the demonstration while it goes well: the mailbox, the counter, and everything
outside the page, the counter and the buffers of the service as in `start`. -/
structure Shows (start : Memory 32) (mailbox : Nat → Word) (counter : Word) (world : World) : Prop where
  running : world.faulted = false
  mailbox : ∀ index < 7, load32 world.mem (byteAt nsMailboxAddr (4 * index)) = mailbox index
  counter : load32 world.mem image.sCounter = counter
  elsewhere : ∀ address, ¬ Within nsMailboxAddr 0x4000 address → ¬ Within image.sCounter 4 address →
    ¬ Temporary image address → world.mem address = start address

section Steps

variable (ram : RamOpen soc) (hidden : Hidden image soc) (start : Memory 32) (mailbox : Nat → Word)
  (counter : Word) (world : World) (sofar : Shows image start mailbox counter world)

theorem page_within (base : Word) (count : Nat) (page : InPage base count) (address : Word)
    (inside : Within base count address) :
    nsMailboxAddr.toNat ≤ address.toNat ∧ address.toNat < nsStackTop.toNat := by
  have limits := page.2
  rw [within_iff_interval _ _ _ (by omega)] at inside
  exact ⟨Nat.le_trans page.1 inside.1, Nat.lt_of_lt_of_le inside.2 limits⟩

theorem page_iff (address : Word) :
    Within nsMailboxAddr 0x4000 address ↔
      nsMailboxAddr.toNat ≤ address.toNat ∧ address.toNat < nsStackTop.toNat := by
  have fits : nsMailboxAddr.toNat + 0x4000 = nsStackTop.toNat := by decide
  rw [within_iff_interval _ _ _ (by rw [fits]; decide), fits]

theorem mailbox_within (index : Nat) (few : index < 7) (address : Word) :
    Within (byteAt nsMailboxAddr (4 * index)) 4 address ↔
      0x2007C000 + 4 * index ≤ address.toNat ∧ address.toNat < 0x2007C000 + 4 * index + 4 := by
  have mailboxAt : nsMailboxAddr.toNat = 0x2007C000 := by decide
  have place : (byteAt nsMailboxAddr (4 * index)).toNat = 0x2007C000 + 4 * index := by
    rw [byteAt_toNat _ _ (by omega), mailboxAt]
  rw [within_iff_interval _ _ _ (by omega), place]

include ram in
theorem page_open (base : Word) (count : Nat) (page : InPage base count) :
    nonSecureRange soc base count = true := by
  simp only [nonSecureRange, List.all_eq_true, List.mem_range, beq_iff_eq]
  intro index below
  have inside := page_within base count page _ ((within_iff_index _ _ _).mpr ⟨index, below, rfl⟩)
  exact ram _ (Nat.le_trans (by decide) inside.1) inside.2

include ram in
theorem page_store (running : world.faulted = false) (width : Width) (address value : Word)
    (page : InPage address width.bytes) :
    (nsStep image cmse soc world (.store width address value)).1 =
      ⟨storeBytes world.mem address (storeValue width value), false⟩ := by
  rw [nsStep, running, if_neg Bool.false_ne_true, nsOp, page_open soc ram address _ page, if_pos rfl]

include ram hidden sofar in
theorem page_store_frame (address : Word) (bytes : List Byte) (page : InPage address bytes.length) :
    load32 (storeBytes world.mem address bytes) image.sCounter = counter ∧
      ∀ target, ¬ Within nsMailboxAddr 0x4000 target → ¬ Within image.sCounter 4 target →
        ¬ Temporary image target → storeBytes world.mem address bytes target = start target := by
  have inside (target : Word) (written : Within address bytes.length target) :=
    page_within address bytes.length page target written
  have top : nsStackTop.toNat = 0x20080000 := by decide
  have mailboxAt : nsMailboxAddr.toNat = 0x2007C000 := by decide
  constructor
  · rw [← sofar.counter]
    apply load32_congr
    intro target inCounter
    apply storeBytes_outside
    intro written
    have range := inside target written
    exact hidden target (Or.inr (Or.inl inCounter)) (ram target (by omega) (by omega))
  · intro target outside notCounter notTemporary
    rw [← sofar.elsewhere target outside notCounter notTemporary]
    apply storeBytes_outside
    intro written
    exact outside ((page_iff target).mpr (inside target written))

include ram hidden sofar in
theorem mailbox_stored (index : Nat) (few : index < 7) (value : Word) :
    Shows image start (Function.update mailbox index value) counter
      (mailboxStore image cmse soc index value world) := by
  have mailboxAt : nsMailboxAddr.toNat = 0x2007C000 := by decide
  have top : nsStackTop.toNat = 0x20080000 := by decide
  have page : InPage (byteAt nsMailboxAddr (4 * index)) 4 := by
    rw [InPage, byteAt_toNat _ _ (by omega)]
    omega
  obtain ⟨counterKept, elsewhere⟩ := page_store_frame image soc ram hidden start mailbox counter world
    sofar _ (wordBytes value) page
  rw [mailboxStore, page_store image cmse soc ram world sofar.running .word _ value page]
  refine ⟨rfl, fun i small => ?_, counterKept, elsewhere⟩
  by_cases here : i = index
  · subst here
    rw [Function.update_self]
    exact load32_store32 world.mem _ value (by decide)
  · rw [Function.update_of_ne here, ← sofar.mailbox i small]
    apply load32_congr
    intro target inWord
    apply storeBytes_outside
    rw [mailbox_within i small] at inWord
    rw [storeValue_length, Width.bytes, mailbox_within index few]
    omega

include sofar in
theorem counter_taken :
    (nsStep image cmse soc world .getCounter).2 = .counter (counter + 1) ∧
      Shows image start mailbox (counter + 1) (nsStep image cmse soc world .getCounter).1 := by
  have place := image.inRam (image.sCounter, 4) (by simp [SecurePlacement.data])
  dsimp only at place
  rw [nsStep, sofar.running, if_neg Bool.false_ne_true, nsOp, secureGetCounter, secretNextCounter,
    sofar.counter]
  refine ⟨rfl, rfl, fun index few => ?_, load32_store32 _ _ _ (by decide), ?_⟩
  · rw [← sofar.mailbox index few]
    apply load32_congr
    intro target inWord
    apply store32_outside
    rw [mailbox_within index few] at inWord
    rw [within_iff_interval _ _ _ (counter_range image)]
    omega
  · intro target outside notCounter notTemporary
    rw [← sofar.elsewhere target outside notCounter notTemporary]
    exact store32_outside _ _ _ _ notCounter

include ram hidden sofar in
theorem byte_stored (address value : Word) (low : nsMailboxAddr.toNat + 28 ≤ address.toNat)
    (high : address.toNat < nsStackTop.toNat) :
    (byteStore image cmse soc address value world).mem =
        Function.update world.mem address (value.extractLsb' 0 8) ∧
      Shows image start mailbox counter (byteStore image cmse soc address value world) := by
  have mailboxAt : nsMailboxAddr.toNat = 0x2007C000 := by decide
  have page : InPage address 1 := ⟨by omega, high⟩
  obtain ⟨counterKept, elsewhere⟩ := page_store_frame image soc ram hidden start mailbox counter world
    sofar address [value.extractLsb' 0 8] page
  rw [byteStore, page_store image cmse soc ram world sofar.running .byte address value page]
  refine ⟨rfl, rfl, fun index few => ?_, counterKept, elsewhere⟩
  rw [← sofar.mailbox index few]
  apply load32_congr
  intro target inWord
  rw [mailbox_within index few] at inWord
  apply Function.update_of_ne
  rintro rfl
  omega

theorem array_byte (array : Word) (member : array ∈ [stack.challenge, stack.result]) (index : Nat)
    (below : index < 16) : (byteAt array index).toNat = array.toNat + index ∧
      nsMailboxAddr.toNat + 28 ≤ array.toNat + index ∧ array.toNat + index < nsStackTop.toNat := by
  obtain ⟨low, high⟩ := stack.inStack array member
  exact ⟨byteAt_toNat _ _ (by omega), by omega, by omega⟩

include ram hidden sofar in
theorem arrays_filled (count : Nat) (bounded : count ≤ 16) :
    let filled := (List.range count).foldl (fun world index =>
      byteStore image cmse soc (byteAt stack.result index) 0
        (byteStore image cmse soc (byteAt stack.challenge index) (BitVec.ofNat 32 (index + 1)) world)) world
    Shows image start mailbox counter filled ∧
      ∀ index < count, filled.mem (byteAt stack.challenge index) = BitVec.ofNat 8 (index + 1) := by
  induction count with
  | zero => exact ⟨sofar, fun index below => absurd below (Nat.not_lt_zero index)⟩
  | succ count ih =>
      obtain ⟨before, bytes⟩ := ih (by omega)
      rw [List.range_succ, List.foldl_append, List.foldl_cons, List.foldl_nil]
      generalize (List.range count).foldl _ world = filled at before bytes ⊢
      have challenge := array_byte stack stack.challenge (by simp)
      have result := array_byte stack stack.result (by simp) count (by omega)
      obtain ⟨firstMem, first⟩ := byte_stored image cmse soc ram hidden start mailbox counter filled
        before (byteAt stack.challenge count) (BitVec.ofNat 32 (count + 1))
        (by rw [(challenge count (by omega)).1]; exact (challenge count (by omega)).2.1)
        (by rw [(challenge count (by omega)).1]; exact (challenge count (by omega)).2.2)
      obtain ⟨secondMem, second⟩ := byte_stored image cmse soc ram hidden start mailbox counter _
        first (byteAt stack.result count) 0 (by rw [result.1]; exact result.2.1)
        (by rw [result.1]; exact result.2.2)
      refine ⟨second, fun index below => ?_⟩
      have place := (challenge index (by omega)).1
      have notResult : byteAt stack.challenge index ≠ byteAt stack.result count := by
        intro same
        have apart := stack.apart
        have offsets := congrArg BitVec.toNat same
        rw [place, result.1] at offsets
        unfold Separate at apart
        dsimp only at apart
        omega
      rw [secondMem, Function.update_of_ne notResult, firstMem]
      by_cases here : index = count
      · subst here
        rw [Function.update_self]
        apply BitVec.eq_of_toNat_eq
        simp
      · rw [Function.update_of_ne, bytes index (by omega)]
        intro same
        have offsets := congrArg BitVec.toNat same
        rw [place, (challenge count (by omega)).1] at offsets
        omega

include hidden ram in
theorem key_elsewhere (index : Nat) :
    let address := byteAt image.sKey (index % secretKeyLen)
    ¬ Within nsMailboxAddr 0x4000 address ∧ ¬ Within image.sCounter 4 address ∧
      ¬ Temporary image address := by
  intro address
  have inside : Within image.sKey 16 address :=
    within_byteAt _ 16 _ (Nat.mod_lt _ (by decide)) (by unfold secretKeyLen; omega)
  refine ⟨fun page => ?_, key_not_counter image _ inside, key_not_temporary image _ inside⟩
  have range := page_within nsMailboxAddr 0x4000 (by unfold InPage; decide) address page
  exact hidden address (Or.inl inside) (ram address (Nat.le_trans (by decide) range.1) range.2)

include ram in
theorem array_accessible (permission : CmsePermission) (array : Word)
    (member : array ∈ [stack.challenge, stack.result]) :
    AccessibleRange (attributed soc) permission array 16 := by
  obtain ⟨low, high⟩ := stack.inStack array member
  refine ⟨Nat.le_trans high (by decide), fun address inside => ?_⟩
  have range := page_within array 16 ⟨by omega, high⟩ address inside
  exact ram address (Nat.le_trans (by decide) range.1) range.2

include ram hidden sofar in
/-- What the demonstration shows, from a change that spares the mailbox, the counter and what
is neither on the Non-Secure stack nor a buffer of the service. -/
theorem shown_after (after : Memory 32) (counterKept : load32 after image.sCounter = counter)
    (elsewhere : ∀ address, ¬ Temporary image address →
      ¬ (nsMailboxAddr.toNat + 28 ≤ address.toNat ∧ address.toNat < nsStackTop.toNat) →
        after address = world.mem address) :
    Shows image start mailbox counter ⟨after, false⟩ := by
  have mailboxAt : nsMailboxAddr.toNat = 0x2007C000 := by decide
  refine ⟨rfl, fun index few => ?_, counterKept, fun address outside notCounter notTemporary => ?_⟩
  · rw [← sofar.mailbox index few]
    apply load32_congr
    intro address inWord
    rw [mailbox_within index few] at inWord
    apply elsewhere
    · intro temporary
      exact hidden address (Or.inr (Or.inr (Or.inr temporary))) (ram address (by omega) (by omega))
    · omega
  · rw [← sofar.elsewhere address outside notCounter notTemporary]
    apply elsewhere address notTemporary
    intro range
    exact outside ((page_iff address).mpr ⟨by omega, range.2⟩)

include ram hidden sofar in
theorem challenge_signed (exactly : CmseExact cmse (attributed soc))
    (bytes : ∀ index < 16, world.mem (byteAt stack.challenge index) = BitVec.ofNat 8 (index + 1)) :
    let signed := nsStep image cmse soc world (.sign stack.challenge stack.result 16)
    signed.2 = .signed 0 ∧ Shows image start mailbox counter signed.1 ∧
      ∀ index < 16, signed.1.mem (byteAt stack.result index) =
        BitVec.ofNat 8 (index + 1) ^^^ keyByte image start index := by
  have challengeRange := array_accessible soc stack ram .read stack.challenge (by simp)
  have resultRange := array_accessible soc stack ram .readWrite stack.result (by simp)
  have accepted : SignAccepted cmse stack.challenge stack.result 16 :=
    ⟨by decide, (exactly _ _ _).mpr challengeRange, (exactly _ _ _).mpr resultRange⟩
  have signed := sign_apart_spec image stack.challenge stack.result 16 (by decide)
    (accessible_apart image (attributed soc) (fun _ => hidden) .read _ _ challengeRange)
    (accessible_apart image (attributed soc) (fun _ => hidden) .readWrite _ _ resultRange) world.mem
  rw [nsStep, sofar.running, if_neg Bool.false_ne_true, nsOp,
    secure_sign_accepted image cmse stack.challenge stack.result 16 world.mem accepted]
  refine ⟨rfl, ?_, ?_⟩
  · apply shown_after image soc ram hidden start mailbox counter world sofar
    · rw [← sofar.counter]
      exact load32_congr _ _ _ signed.counter
    · intro address notTemporary outside
      apply signed.elsewhere address notTemporary
      intro inside
      obtain ⟨low, high⟩ := stack.inStack stack.result (by simp)
      have range := (within_iff_interval stack.result address 16 (by omega)).mp inside
      exact outside (by omega)
  · intro index below
    obtain ⟨page, notCounter, notTemporary⟩ := key_elsewhere image soc ram hidden index
    have key : world.mem (byteAt image.sKey (index % 16)) = keyByte image start index :=
      sofar.elsewhere _ page notCounter notTemporary
    exact (signed.output index below).trans (congrArg₂ (· ^^^ ·) (bytes index below) key)

include ram hidden sofar in
theorem mailbox_cleared (count : Nat) (bounded : count ≤ 7) :
    Shows image start (fun index => if index < count then 0 else mailbox index) counter
      ((List.range count).foldl (fun world index => mailboxStore image cmse soc index 0 world) world) := by
  induction count with
  | zero => exact sofar
  | succ count ih =>
      rw [List.range_succ, List.foldl_append, List.foldl_cons, List.foldl_nil]
      have next := mailbox_stored image cmse soc ram hidden start _ counter _ (ih (by omega)) count
        (by omega) 0
      have cleared : Function.update (fun index => if index < count then 0 else mailbox index) count 0 =
          fun index => if index < count + 1 then 0 else mailbox index := by
        funext index
        by_cases here : index = count
        · subst here
          rw [Function.update_self, if_pos (Nat.lt_succ_self index)]
        · rw [Function.update_of_ne here]
          exact if_congr (by omega) rfl rfl
      rwa [cleared] at next

include ram in
theorem mailbox_stored_above (running : world.faulted = false) (index : Nat) (few : index < 7)
    (value address : Word) (low : nsMailboxAddr.toNat + 28 ≤ address.toNat) :
    (mailboxStore image cmse soc index value world).mem address = world.mem address := by
  have mailboxAt : nsMailboxAddr.toNat = 0x2007C000 := by decide
  have top : nsStackTop.toNat = 0x20080000 := by decide
  have place : (byteAt nsMailboxAddr (4 * index)).toNat = 0x2007C000 + 4 * index := by
    rw [byteAt_toNat _ _ (by omega), mailboxAt]
  have page : InPage (byteAt nsMailboxAddr (4 * index)) 4 := by
    rw [InPage, place]
    omega
  rw [mailboxStore, page_store image cmse soc ram world running .word _ value page]
  apply storeBytes_outside
  rw [storeValue_length, Width.bytes, within_iff_interval _ _ _ (by omega), place]
  omega

include ram in
theorem byte_loaded (running : world.faulted = false) (address : Word)
    (low : nsMailboxAddr.toNat ≤ address.toNat) (high : address.toNat < nsStackTop.toNat) :
    byteLoad image cmse soc address world = (world.mem address).setWidth 32 := by
  rw [byteLoad, nsStep, running, if_neg Bool.false_ne_true, nsOp,
    page_open soc ram address _ ⟨low, high⟩, if_pos rfl]
  have bytes : loadBytes world.mem address (Width.bytes .byte) = [world.mem address] := by
    simp [loadBytes, Width.bytes, List.range_succ]
  rw [bytes]
  simp [returned]

end Steps

def signedWord (key : Nat → Byte) : Word :=
  (4 ^^^ key 3) ++ (3 ^^^ key 2) ++ (2 ^^^ key 1) ++ (1 ^^^ key 0)

section Run

variable (ram : RamOpen soc) (hidden : Hidden image soc) (exactly : CmseExact cmse (attributed soc))
  (start : Memory 32) (mailbox : Nat → Word) (counter : Word) (world : World)
  (sofar : Shows image start mailbox counter world)

include ram hidden exactly sofar in
theorem legitimate_path_shows :
    ∃ after, (after 1 = counter + 1 ∧ after 2 = counter + 2 ∧ after 3 = 0 ∧
        after 4 = signedWord (keyByte image start) ∧ after 5 = mailbox 5) ∧
      Shows image start after (counter + 2) (legitimatePath image cmse soc stack world) := by
  have twice : counter + 1 + 1 = counter + 2 := by rw [BitVec.add_assoc]; rfl
  have stored := mailbox_stored image cmse soc ram hidden start
  unfold legitimatePath
  dsimp only
  obtain ⟨value, one⟩ := counter_taken image cmse soc start mailbox counter world sofar
  rw [value, returned_counter]
  have first := stored _ _ _ one 1 (by decide) (counter + 1)
  generalize mailboxStore image cmse soc 1 (counter + 1) _ = world1 at first ⊢
  obtain ⟨value, two⟩ := counter_taken image cmse soc start _ _ world1 first
  rw [value, returned_counter]
  have second := stored _ _ _ two 2 (by decide) (counter + 1 + 1)
  have staged := stored _ _ _ second 6 (by decide) 2
  generalize mailboxStore image cmse soc 6 2 _ = world2 at staged ⊢
  obtain ⟨filled, bytes⟩ :=
    arrays_filled image cmse soc stack ram hidden start _ _ world2 staged 16 (Nat.le_refl 16)
  generalize (List.range 16).foldl _ world2 = world3 at filled bytes ⊢
  obtain ⟨code, signed, result⟩ :=
    challenge_signed image cmse soc stack ram hidden start _ _ world3 filled exactly bytes
  rw [code, returned_signed]
  have third := stored _ _ _ signed 3 (by decide) 0
  have result (index : Nat) (below : index < 16) :=
    (mailbox_stored_above image cmse soc ram _ signed.running 3 (by decide) 0
      (byteAt stack.result index) (by
        rw [(array_byte stack stack.result (by simp) index below).1]
        exact (array_byte stack stack.result (by simp) index below).2.1)).trans (result index below)
  generalize mailboxStore image cmse soc 3 _ _ = world4 at third result ⊢
  have load (index : Nat) (below : index < 16) :
      byteLoad image cmse soc (byteAt stack.result index) world4 =
        (BitVec.ofNat 8 (index + 1) ^^^ keyByte image start index).setWidth 32 := by
    obtain ⟨place, low, high⟩ := array_byte stack stack.result (by simp) index below
    rw [← result index below]
    exact byte_loaded image cmse soc ram world4 third.running _ (by omega) (by omega)
  rw [load 0 (by decide), load 1 (by decide), load 2 (by decide), load 3 (by decide), packed_word]
  have fourth := stored _ _ _ third 4 (by decide) (signedWord (keyByte image start))
  have last := stored _ _ _ fourth 6 (by decide) 3
  rw [← twice]
  refine ⟨_, ?_, last⟩
  exact ⟨rfl, rfl, rfl, rfl, rfl⟩

include ram hidden sofar in
theorem illegal_path_caught (closed : soc.sau.attribution sRamStart ≠ .nonSecure) :
    ∃ memory, illegalPath image cmse soc world = ⟨refusedAccess image memory, true⟩ ∧
      Shows image start (Function.update mailbox 6 0xBAD0) counter ⟨memory, false⟩ := by
  have staged := mailbox_stored image cmse soc ram hidden start mailbox counter world sofar 6
    (by decide) 0xBAD0
  have refused : nonSecureRange soc sRamStart (Width.bytes .word) = false := by
    rw [nonSecureRange, List.all_eq_false]
    refine ⟨0, by decide, ?_⟩
    rw [byteAt_zero, beq_iff_eq]
    exact closed
  unfold illegalPath
  dsimp only
  generalize mailboxStore image cmse soc 6 0xBAD0 world = last at staged ⊢
  obtain ⟨memory, faulted⟩ := last
  obtain rfl : faulted = false := staged.running
  refine ⟨memory, ?_, staged⟩
  have caught : (nsStep image cmse soc ⟨memory, false⟩ (.load .word sRamStart)).1 =
      ⟨refusedAccess image memory, true⟩ := by
    rw [nsStep, if_neg Bool.false_ne_true, nsOp, refused, if_neg Bool.false_ne_true]
  rw [caught]
  rfl

end Run

/-- What `s_result` shows at the end, from the counter, SFSR and the key that `ns_main` began
with. -/
def expected (counter sfsr : Word) (key : Nat → Byte) : List Word :=
  [0x5ECF0000, sfsr ||| 0x48, counter + 1, counter + 2, 0, signedWord key, 0, 0xBAD0]

theorem ns_main_caught (ram : RamOpen soc) (hidden : Hidden image soc)
    (closed : soc.sau.attribution sRamStart ≠ .nonSecure) (exactly : CmseExact cmse (attributed soc))
    (start : Memory 32) :
    let final := nsMain image cmse soc stack ⟨start, false⟩
    final.faulted = true ∧ ∀ index < 8,
      (expected (load32 start image.sCounter) (load32 start sfsrAddr) (keyByte image start))[index]? =
        some (resultWord image final.mem index) := by
  have first : Shows image start (fun index => load32 start (byteAt nsMailboxAddr (4 * index)))
      (load32 start image.sCounter) ⟨start, false⟩ :=
    ⟨rfl, fun _ _ => rfl, rfl, fun _ _ _ _ => rfl⟩
  have cleared := mailbox_cleared image cmse soc ram hidden start _ _ _ first 7 (Nat.le_refl 7)
  have stored := mailbox_stored image cmse soc ram hidden start
  have begun := stored _ _ _ (stored _ _ _ cleared 0 (by decide) 0x4E530001) 6 (by decide) 1
  obtain ⟨mailbox, ⟨one, two, three, four, five⟩, called⟩ :=
    legitimate_path_shows image cmse soc stack ram hidden exactly start _ _ _ begun
  obtain ⟨memory, caught, last⟩ :=
    illegal_path_caught image cmse soc ram hidden start _ _ _ called closed
  have word (index : Nat) (few : index < 7) :
      load32 memory (byteAt nsMailboxAddr (4 * index)) = Function.update mailbox 6 0xBAD0 index :=
    last.mailbox index few
  have status : load32 memory sfsrAddr = load32 start sfsrAddr := by
    apply load32_congr
    intro address inside
    have place : sfsrAddr.toNat = 0xE000EDE4 := by decide
    have top : nsStackTop.toNat = 0x20080000 := by decide
    rw [within_iff_interval _ _ _ (by omega)] at inside
    apply last.elsewhere address
    · rw [page_iff]
      omega
    · intro counter
      have range := image.inRam (image.sCounter, 4) (by simp [SecurePlacement.data])
      dsimp only at range
      rw [within_iff_interval _ _ _ (counter_range image)] at counter
      omega
    · exact off_stack_not_temporary image address fun stack => by
        unfold OnSecureStack at stack
        omega
  have shown : evidence memory = expected (load32 start image.sCounter) (load32 start sfsrAddr)
      (keyByte image start) := by
    rw [evidence]
    dsimp only
    rw [status, word 1 (by decide), word 2 (by decide), word 3 (by decide), word 4 (by decide),
      word 5 (by decide), word 6 (by decide), Function.update_self, Function.update_of_ne (by decide),
      Function.update_of_ne (by decide), Function.update_of_ne (by decide),
      Function.update_of_ne (by decide), Function.update_of_ne (by decide), one, two, three, four, five]
    rfl
  intro final
  have ended : final = ⟨refusedAccess image memory, true⟩ := caught
  refine ⟨congrArg World.faulted ended, fun index below => ?_⟩
  rw [congrArg World.mem ended, ← shown]
  exact evidence_recorded image memory index below

theorem offsets_distinct : acPeriphOffsets.Nodup := by
  apply List.Nodup.map _ List.nodup_range
  intro first second same
  dsimp only at same
  omega

theorem open_ns_grants (ac : AccessCtrl Nat) (free : ac.locked .core0 = false) (off : Nat)
    (member : off ∈ acPeriphOffsets) :
    (tzAccessctrlOpenNs chip ac).grants off = chip.keep off (chip.reset off) acAll := by
  have unit (offsets : List Nat) (progress : Progress Nat) :
      offsets.foldl (fun ac off => ac.write chip .core0 (.grant off (passwordBits ||| acAll)))
          progress.unit =
        ((offsets.map fun off => (off, acAll)).foldl (writeBack chip) progress).unit := by
    induction offsets generalizing progress with
    | nil => rfl
    | cons off rest ih =>
        simp only [List.foldl_cons, BitVec.or_comm passwordBits acAll] at ih ⊢
        exact ih (writeBack chip progress (off, acAll))
  let defaults : AccessCtrl Nat :=
    { ac with grants := chip.reset, gpioNsmask0 := chip.resetGpioNsmask
              gpioNsmask1 := chip.resetGpioNsmask }
  let opened : AccessCtrl Nat :=
    { defaults with gpioNsmask0 := 0xFFFFFFFF, gpioNsmask1 := 0xFFFFFFFF }
  have reset : ac.write chip .core0 (.cfgreset (passwordBits ||| 0x1)) = defaults := by
    rw [AccessCtrl.write, free, if_neg Bool.false_ne_true]
    exact if_pos (by decide)
  have masked (unit : AccessCtrl Nat) (unlocked : unit.locked .core0 = false) :
      unit.write chip .core0 (.gpioNsmask0 0xFFFFFFFF) = { unit with gpioNsmask0 := 0xFFFFFFFF } ∧
        unit.write chip .core0 (.gpioNsmask1 0xFFFFFFFF) = { unit with gpioNsmask1 := 0xFFFFFFFF } := by
    rw [AccessCtrl.write, AccessCtrl.write, unlocked, if_neg Bool.false_ne_true,
      if_neg Bool.false_ne_true]
    exact ⟨rfl, rfl⟩
  have prepared : tzAccessctrlOpenNs chip ac = acPeriphOffsets.foldl
      (fun ac off => ac.write chip .core0 (.grant off (passwordBits ||| acAll))) opened := by
    rw [tzAccessctrlOpenNs, reset, (masked defaults free).1,
      (masked { defaults with gpioNsmask0 := 0xFFFFFFFF } free).2]
  rw [prepared, unit acPeriphOffsets ⟨opened, false⟩]
  refine (write_back_grants chip ⟨opened, false⟩ _ ?_ free (off, acAll) ?_ ?_).trans ?_
  · rw [List.map_map]
    exact List.Nodup.map (fun _ _ same => same) offsets_distinct
  · exact List.mem_map_of_mem member
  · intro entry entered
    obtain ⟨_, _, rfl⟩ := List.mem_map.mp entered
    exact (by decide : hasPassword (acAll ||| passwordBits) = true)
  · exact congrArg (chip.keep off (chip.reset off))
      (by decide : (acAll ||| passwordBits) &&& 0xffff = acAll)

theorem open_ns_all (holds : chip.HoldsGrants) (ac : AccessCtrl Nat)
    (free : ac.locked .core0 = false) (off : Nat) (member : off ∈ acPeriphOffsets) :
    (tzAccessctrlOpenNs chip ac).grants off &&& 0xff = acAll := by
  rw [open_ns_grants chip ac free off member, holds]
  decide

theorem launch_kept (memory : Memory 32) (boot : NsBoot)
    (mem : boot.mem = storeWords (launchNonsecure ⟨memory, []⟩).1.mem nsImage.bssStart
      (List.replicate nsImage.bssWords 0)) (address : Word)
    (outer : address.toNat < 0x20040000 ∨ 0x20080000 ≤ address.toNat) :
    boot.mem address = memory address := by
  have room := image_room nsImage
  have start : nsRamStart.toNat = 0x20040000 := by decide
  have copied : nsImageCopyBytes.toNat = 0x10000 := by decide
  rw [mem, storeWords_outside, launched_outside]
  · rw [within_iff_interval _ _ _ (by omega)]
    omega
  · have place : nsImage.bssStart.toNat = 0x20040000 + nsImage.loadable.length := by
      rw [NsSections.bssStart, byteAt_toNat _ _ (by omega), start]
    rw [List.length_replicate, within_iff_interval _ _ _ (by omega)]
    omega

/-- The demonstration, for every Secure image and key, every counter and memory, any chip that
implements the grants and has not locked core 0 out of ACCESSCTRL, and every Non-Secure image that
the copy loop holds: it starts as linked with its peripherals opened, and ends in the fault
handler, which shows the violation, two counter values, the signature, nothing leaked, and that
the illegal read came last. -/
theorem demonstration_caught (holds : chip.HoldsGrants) (fuel : Nat)
    (enough : nsImage.bssWords ≤ fuel)
    (short : nsImage.loadable.length ≤ nsImageCopyBytes.toNat) (machine : Machine)
    (stored : StoredAt nsImage machine.mem) (unused : UnusedDisabled machine.soc)
    (free : machine.accessCtrl.locked .core0 = false)
    (exactly : CmseExact cmse (attributed (tzIsolationConfig machine.soc))) :
    ∃ boot, nsMainBegins nsImage fuel machine.mem = some boot ∧ Started nsImage boot ∧
      ∃ launched world, main chip image cmse stack nsImage fuel machine = some (launched, world) ∧
        (∀ off ∈ acPeriphOffsets, launched.accessCtrl.grants off &&& 0xff = acAll) ∧
        world.faulted = true ∧ ∀ index < 8,
          (expected (load32 machine.mem image.sCounter) (load32 machine.mem sfsrAddr)
              (keyByte image machine.mem))[index]? = some (resultWord image world.mem index) := by
  obtain ⟨boot, begins, mem, _⟩ := ns_main_reached nsImage machine.mem fuel stored enough
  obtain ⟨other, same, started⟩ := started_iff nsImage machine.mem fuel stored enough
  obtain rfl : boot = other := Option.some.inj (begins.symm.trans same)
  have kept := launch_kept nsImage machine.mem boot mem
  have hidden : Hidden image (tzIsolationConfig machine.soc) :=
    configured_hidden image machine.soc unused
  have closed : (tzIsolationConfig machine.soc).sau.attribution sRamStart ≠ .nonSecure := by
    rw [show (tzIsolationConfig machine.soc).sau = (tzSauConfig machine.soc).sau from rfl,
      unused_attribution machine.soc unused]
    decide
  have caught := ns_main_caught image cmse (tzIsolationConfig machine.soc) stack
    (configured_ram_open machine.soc unused) hidden closed exactly boot.mem
  have inData (base : Word) (count : Nat) (member : (base, count) ∈ image.data) (address : Word)
      (inside : Within base count address) : boot.mem address = machine.mem address := by
    have range := image.inRam (base, count) member
    rw [within_iff_interval _ _ _ (data_range image (base, count) member)] at inside
    dsimp only at range inside
    exact kept address (Or.inl (by omega))
  have counter : load32 boot.mem image.sCounter = load32 machine.mem image.sCounter :=
    load32_congr _ _ _ (inData image.sCounter 4 (by simp [SecurePlacement.data]))
  have status : load32 boot.mem sfsrAddr = load32 machine.mem sfsrAddr := by
    apply load32_congr
    intro address inside
    have place : sfsrAddr.toNat = 0xE000EDE4 := by decide
    rw [within_iff_interval _ _ _ (by omega)] at inside
    exact kept address (Or.inr (by omega))
  have key : keyByte image boot.mem = keyByte image machine.mem := by
    funext index
    exact inData image.sKey 16 (by simp [SecurePlacement.data]) _
      (within_byteAt _ 16 _ (Nat.mod_lt _ (by decide)) (by unfold secretKeyLen; omega))
  rw [counter, status, key] at caught
  let launched : Machine :=
    ⟨tzIsolationConfig machine.soc, tzAccessctrlOpenNs chip machine.accessCtrl, boot.mem⟩
  refine ⟨boot, begins, started.mpr fun index beyond inside =>
    absurd (Nat.lt_of_lt_of_le inside short) (Nat.not_lt.mpr beyond), launched, _, ?_,
    open_ns_all chip holds machine.accessCtrl free, caught⟩
  rw [main, begins]
  rfl

def sampleStack : NsStack where
  challenge := 0x2007FFC0
  result := 0x2007FFD0
  inStack := by simp [nsMailboxAddr, nsStackTop]
  apart := by decide

def sampleChip : Chip Nat := ⟨fun _ => 0xFC, 0, fun _ _ value => value &&& 0xff⟩

theorem sample_holds_grants : sampleChip.HoldsGrants := fun _ _ new =>
  (BitVec.and_assoc new 0xff 0xff).trans (congrArg (new &&& ·) BitVec.and_self)

def resetMachine : Machine :=
  ⟨resetSoc, ⟨fun _ => 0xFC, 0, 0, 0⟩, flashed smallImage blankMemory⟩

theorem reset_machine_caught :
    let cmse := attributionCheck (tzIsolationConfig resetSoc)
    ∃ boot, nsMainBegins smallImage 4 resetMachine.mem = some boot ∧ Started smallImage boot ∧
      ∃ launched world,
        main sampleChip sampleImage cmse sampleStack smallImage 4 resetMachine =
            some (launched, world) ∧
        (∀ off ∈ acPeriphOffsets, launched.accessCtrl.grants off &&& 0xff = acAll) ∧
        world.faulted = true ∧ ∀ index < 8,
          (expected (load32 resetMachine.mem sampleImage.sCounter) (load32 resetMachine.mem sfsrAddr)
              (keyByte sampleImage resetMachine.mem))[index]? =
            some (resultWord sampleImage world.mem index) :=
  demonstration_caught sampleChip sampleImage (attributionCheck (tzIsolationConfig resetSoc)) sampleStack
    smallImage sample_holds_grants 4 (by decide) (by decide) resetMachine
    (flashed_stored smallImage blankMemory) reset_unused (by decide)
    (attribution_check_exact (tzIsolationConfig resetSoc))

/-- The key of `secret.c`, and what the board shows for it in the word of `SR_NS_SIGN_R0`. -/
def demoKey : List Byte :=
  [0xA5, 0x5A, 0xDE, 0xAD, 0xBE, 0xEF, 0x00, 0x11, 0x22, 0x33, 0x44, 0x55, 0x66, 0x77, 0x88, 0x99]

example : expected 0 0 (fun index => demoKey.getD index 0) =
    [0x5ECF0000, 0x48, 1, 2, 0, 0xA9DD58A4, 0, 0xBAD0] := by decide

end Rp2350Tee.MinimalTz
