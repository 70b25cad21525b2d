import Rp2350Tee.ByteMemory
import Rp2350Tee.TzConfig

/-!
The services of the Secure image of minimal-tz, `secure/secret.c` and
`secure/secure_service.c`, its fault handler in `secure/main_s.c`, and the
Non-Secure processor that calls them. `cmse_check_address_range` belongs to the
compiler and is a parameter; the registers that a veneer clears on its way back
are not modelled, so that a call shows its return value and nothing else. An access to
the PPB, which the SAU does not check, is taken like any other, and of the fault
registers only SFSR is kept.
-/

namespace Rp2350Tee.SecureService

open ByteMemory TzConfig

/-- What the services use of the Secure image. `tmpIn` and `tmpOut` are the stack
buffers of `secure_sign`. -/
structure SecurePlacement where
  sKey : Word
  sCounter : Word
  sResult : Word
  tmpIn : Word
  tmpOut : Word

def secretKeyLen : Nat := 16
def secureSignMax : Word := 256

def SecurePlacement.data (place : SecurePlacement) : List (Word × Nat) :=
  [(place.sKey, 16), (place.sCounter, 4), (place.sResult, 32)]

def SecurePlacement.temporaries (place : SecurePlacement) : List (Word × Nat) :=
  [(place.tmpIn, 256), (place.tmpOut, 256)]

/-- A placement of `linker_s.ld`: data in Secure RAM, the stack of core 0 in SCRATCH_Y. -/
structure SecureImage extends SecurePlacement where
  inRam : ∀ object ∈ toSecurePlacement.data,
    0x20000000 ≤ object.1.toNat ∧ object.1.toNat + object.2 ≤ 0x20040000
  onStack : ∀ object ∈ toSecurePlacement.temporaries,
    0x20081000 ≤ object.1.toNat ∧ object.1.toNat + object.2 ≤ 0x20082000
  apart : (toSecurePlacement.data ++ toSecurePlacement.temporaries).Pairwise Separate

/-- `cmse_check_address_range(p, size, CMSE_NONSECURE | ..)`. -/
inductive CmsePermission where
  | read | readWrite
  deriving DecidableEq

/-- Whether the check returns anything but `NULL`. -/
abbrev CmseCheck := Word → Word → CmsePermission → Bool

/-- What its documentation promises of a range that passes. -/
def CmseSound (soc : Soc) (cmse : CmseCheck) : Prop :=
  ∀ p size permission, cmse p size permission = true →
    p.toNat + size.toNat ≤ 2 ^ 32 ∧
      ∀ address, Within p size.toNat address → soc.sau.attribution address = .nonSecure

variable (image : SecureImage) (cmse : CmseCheck)

def keyByte (memory : Memory 32) (index : Nat) : Byte :=
  memory (byteAt image.sKey (index % secretKeyLen))

def secretNextCounter (memory : Memory 32) : Memory 32 × Word :=
  let value := load32 memory image.sCounter + 1
  (store32 memory image.sCounter value, value)

def secretKeyedTransform (input out len : Word) (memory : Memory 32) : Memory 32 :=
  fillBytes out (fun index now => now (byteAt input index) ^^^ keyByte image now index) memory
    len.toNat

def copyBytes (target source len : Word) (memory : Memory 32) : Memory 32 :=
  fillBytes target (fun index now => now (byteAt source index)) memory len.toNat

def secureGetCounter (memory : Memory 32) : Memory 32 × Word := secretNextCounter image memory

def secureSign (challenge out len : Word) (memory : Memory 32) : Memory 32 × Int :=
  if len = 0 ∨ len > secureSignMax then (memory, -1)
  else if cmse challenge len .read = false then (memory, -2)
  else if cmse out len .readWrite = false then (memory, -3)
  else
    let memory := copyBytes image.tmpIn challenge len memory
    let memory := secretKeyedTransform image image.tmpIn image.tmpOut len memory
    (copyBytes out image.tmpOut len memory, 0)

def sfsrAddr : Word := 0xE000EDE4

/-- The fault status of an access that the SAU refuses: AUVIOL and SFARVALID, beside whatever
SFSR still shows of earlier faults. -/
def secureFault (memory : Memory 32) : Memory 32 :=
  Function.update memory sfsrAddr (memory sfsrAddr ||| 0x48)

/-- `isr_hardfault` up to its endless loop, as far as it writes memory. -/
def isrHardfault (memory : Memory 32) : Memory 32 :=
  let nsWord (index : Nat) := load32 memory (byteAt nsMailboxAddr (4 * index))
  storeWords memory image.sResult
    [0x5ECF0000, load32 memory sfsrAddr, nsWord 1, nsWord 2, nsWord 3, nsWord 4, nsWord 5, nsWord 6]

/-- A refused access: the SecureFault, escalated to the HardFault that the image handles. -/
def refusedAccess (memory : Memory 32) : Memory 32 := isrHardfault image (secureFault memory)

structure World where
  mem : Memory 32
  faulted : Bool

inductive NsOp where
  | load (width : Width) (address : Word)
  | store (width : Width) (address value : Word)
  | getCounter
  | sign (challenge out len : Word)

inductive NsResult where
  | loaded (bytes : List Byte)
  | stored
  | counter (value : Word)
  | signed (code : Int)
  | faulted
  | stopped

variable (soc : Soc)

def nonSecureRange (base : Word) (count : Nat) : Bool :=
  (List.range count).all fun index => soc.sau.attribution (byteAt base index) == .nonSecure

def nsOp (memory : Memory 32) : NsOp → World × NsResult
  | .load width address =>
      if nonSecureRange soc address width.bytes then
        (⟨memory, false⟩, .loaded (loadBytes memory address width.bytes))
      else (⟨refusedAccess image memory, true⟩, .faulted)
  | .store width address value =>
      if nonSecureRange soc address width.bytes then
        (⟨storeBytes memory address (storeValue width value), false⟩, .stored)
      else (⟨refusedAccess image memory, true⟩, .faulted)
  | .getCounter =>
      let counted := secureGetCounter image memory
      (⟨counted.1, false⟩, .counter counted.2)
  | .sign challenge out len =>
      let signed := secureSign image cmse challenge out len memory
      (⟨signed.1, false⟩, .signed signed.2)

def nsStep (world : World) (op : NsOp) : World × NsResult :=
  if world.faulted then (world, .stopped) else nsOp image cmse soc world.mem op

/-- SCRATCH_Y, with the stack of core 0. -/
def OnSecureStack (address : Word) : Prop :=
  0x20081000 ≤ address.toNat ∧ address.toNat < 0x20082000

instance (address : Word) : Decidable (OnSecureStack address) := inferInstanceAs (Decidable (_ ∧ _))

def Temporary (address : Word) : Prop :=
  Within image.tmpIn 256 address ∨ Within image.tmpOut 256 address

def Owned (address : Word) : Prop :=
  Within image.sKey 16 address ∨ Within image.sCounter 4 address ∨
    Within image.sResult 32 address ∨ Temporary image address

theorem data_range (object : Word × Nat) (member : object ∈ image.data) :
    object.1.toNat + object.2 ≤ 2 ^ 32 :=
  Nat.le_trans (image.inRam object member).2 (by decide)

theorem temporary_range (object : Word × Nat) (member : object ∈ image.temporaries) :
    object.1.toNat + object.2 ≤ 2 ^ 32 :=
  Nat.le_trans (image.onStack object member).2 (by decide)

theorem image_separate :
    (Separate (image.sKey, 16) (image.sCounter, 4) ∧ Separate (image.sKey, 16) (image.sResult, 32) ∧
      Separate (image.sKey, 16) (image.tmpIn, 256) ∧ Separate (image.sKey, 16) (image.tmpOut, 256)) ∧
    (Separate (image.sCounter, 4) (image.sResult, 32) ∧
      Separate (image.sCounter, 4) (image.tmpIn, 256) ∧
      Separate (image.sCounter, 4) (image.tmpOut, 256)) ∧
    Separate (image.tmpIn, 256) (image.tmpOut, 256) := by
  have apart := image.apart
  simp only [SecurePlacement.data, SecurePlacement.temporaries, List.cons_append, List.nil_append,
    List.pairwise_cons, List.mem_cons, List.not_mem_nil, or_false, forall_eq_or_imp, forall_eq]
    at apart
  tauto

theorem key_range : image.sKey.toNat + 16 ≤ 2 ^ 32 :=
  data_range image (image.sKey, 16) (by simp [SecurePlacement.data])

theorem counter_range : image.sCounter.toNat + 4 ≤ 2 ^ 32 :=
  data_range image (image.sCounter, 4) (by simp [SecurePlacement.data])

theorem result_range : image.sResult.toNat + 32 ≤ 2 ^ 32 :=
  data_range image (image.sResult, 32) (by simp [SecurePlacement.data])

theorem tmp_in_range : image.tmpIn.toNat + 256 ≤ 2 ^ 32 :=
  temporary_range image (image.tmpIn, 256) (by simp [SecurePlacement.temporaries])

theorem tmp_out_range : image.tmpOut.toNat + 256 ≤ 2 ^ 32 :=
  temporary_range image (image.tmpOut, 256) (by simp [SecurePlacement.temporaries])

theorem off_stack_not_temporary (address : Word) (off : ¬ OnSecureStack address) :
    ¬ Temporary image address := by
  rw [OnSecureStack, not_and_or, Nat.not_le, Nat.not_lt] at off
  have input := image.onStack (image.tmpIn, 256) (by simp [SecurePlacement.temporaries])
  have output := image.onStack (image.tmpOut, 256) (by simp [SecurePlacement.temporaries])
  dsimp only at input output
  rintro (inside | inside)
  · rw [within_iff_interval _ _ _ (tmp_in_range image)] at inside
    omega
  · rw [within_iff_interval _ _ _ (tmp_out_range image)] at inside
    omega

theorem key_not_temporary (address : Word) (inside : Within image.sKey 16 address) :
    ¬ Temporary image address := by
  rintro (input | output)
  · exact separate_apart (image.sKey, 16) (image.tmpIn, 256) (key_range image) (tmp_in_range image)
      (image_separate image).1.2.2.1 address inside input
  · exact separate_apart (image.sKey, 16) (image.tmpOut, 256) (key_range image) (tmp_out_range image)
      (image_separate image).1.2.2.2 address inside output

theorem key_not_counter (address : Word) (inside : Within image.sKey 16 address) :
    ¬ Within image.sCounter 4 address :=
  separate_apart (image.sKey, 16) (image.sCounter, 4) (key_range image) (counter_range image)
    (image_separate image).1.1 address inside

theorem key_not_result (address : Word) (inside : Within image.sKey 16 address) :
    ¬ Within image.sResult 32 address :=
  separate_apart (image.sKey, 16) (image.sResult, 32) (key_range image) (result_range image)
    (image_separate image).1.2.1 address inside

theorem counter_not_result (address : Word) (inside : Within image.sCounter 4 address) :
    ¬ Within image.sResult 32 address :=
  separate_apart (image.sCounter, 4) (image.sResult, 32) (counter_range image) (result_range image)
    (image_separate image).2.1.1 address inside

theorem counter_not_temporary (address : Word) (inside : Within image.sCounter 4 address) :
    ¬ Temporary image address := by
  rintro (input | output)
  · exact separate_apart (image.sCounter, 4) (image.tmpIn, 256) (counter_range image)
      (tmp_in_range image) (image_separate image).2.1.2.1 address inside input
  · exact separate_apart (image.sCounter, 4) (image.tmpOut, 256) (counter_range image)
      (tmp_out_range image) (image_separate image).2.1.2.2 address inside output

theorem tmp_in_not_tmp_out (address : Word) (inside : Within image.tmpIn 256 address) :
    ¬ Within image.tmpOut 256 address :=
  separate_apart (image.tmpIn, 256) (image.tmpOut, 256) (tmp_in_range image) (tmp_out_range image)
    (image_separate image).2.2 address inside

theorem data_not_on_stack (object : Word × Nat) (member : object ∈ image.data) (address : Word)
    (inside : Within object.1 object.2 address) : ¬ OnSecureStack address := by
  have range := image.inRam object member
  rw [within_iff_interval _ _ _ (data_range image object member)] at inside
  unfold OnSecureStack
  omega

theorem data_not_sfsr (object : Word × Nat) (member : object ∈ image.data) (address : Word)
    (inside : Within object.1 object.2 address) : address ≠ sfsrAddr := by
  rintro rfl
  have range := image.inRam object member
  rw [within_iff_interval _ _ _ (data_range image object member)] at inside
  have place : sfsrAddr.toNat = 0xE000EDE4 := by decide
  omega

theorem counter_not_sfsr (address : Word) (inside : Within image.sCounter 4 address) :
    address ≠ sfsrAddr :=
  data_not_sfsr image (image.sCounter, 4) (by simp [SecurePlacement.data]) address inside

theorem refused_access_outside (memory : Memory 32) (address : Word)
    (outside : ¬ Within image.sResult 32 address) (notStatus : address ≠ sfsrAddr) :
    refusedAccess image memory address = memory address :=
  (storeWords_outside _ _ _ _ outside).trans (Function.update_of_ne notStatus _ _)

theorem secure_fault_congr (left right : Memory 32) (address : Word)
    (same : left address = right address) :
    secureFault left address = secureFault right address := by
  by_cases status : address = sfsrAddr
  · subst status
    rw [secureFault, secureFault, Function.update_self, Function.update_self, same]
  · rw [secureFault, secureFault, Function.update_of_ne status, Function.update_of_ne status, same]

theorem refused_access_congr (left right : Memory 32) (address : Word)
    (outside : ¬ Within image.sResult 32 address) (same : left address = right address) :
    refusedAccess image left address = refusedAccess image right address := by
  rw [refusedAccess, refusedAccess, isrHardfault, isrHardfault, storeWords_outside _ _ _ _ outside,
    storeWords_outside _ _ _ _ outside, secure_fault_congr left right address same]

end Rp2350Tee.SecureService
