import Rp2350Tee.WorldIsolation

/-!
`secure_sign` as its callers see it, for every pair of pointers. The challenge is
read in full before the first byte of the output is written, and both go through
buffers on the Secure stack that no request can name, so the two ranges may lie
in any way to each other.
-/

namespace Rp2350Tee.SecureSign

open ByteMemory TzConfig SecureService WorldIsolation

variable (image : SecureImage) (cmse : CmseCheck)

abbrev Accessible := CmsePermission → Word → Prop

/-- A range that ends below the top of the address space, accessible throughout. -/
def AccessibleRange (accessible : Accessible) (permission : CmsePermission) (p size : Word) : Prop :=
  p.toNat + size.toNat ≤ 2 ^ 32 ∧
    ∀ address, Within p size.toNat address → accessible permission address

/-- `cmse_check_address_range` passes those ranges and no others. -/
def CmseExact (accessible : Accessible) : Prop :=
  ∀ p size permission, cmse p size permission = true ↔ AccessibleRange accessible permission p size

def Inaccessible (accessible : Accessible) : Prop :=
  ∀ permission address, Owned image address → ¬ accessible permission address

def ValidLength (len : Word) : Prop := 1 ≤ len.toNat ∧ len.toNat ≤ 256

theorem valid_length_iff (len : Word) : ValidLength len ↔ ¬ (len = 0 ∨ len > secureSignMax) := by
  have zero : len = 0 ↔ len.toNat = 0 := BitVec.toNat_inj.symm
  have limit : secureSignMax.toNat = 256 := rfl
  rw [ValidLength, zero, gt_iff_lt, BitVec.lt_def, limit]
  omega

section Rejected

variable {image cmse} {challenge out len : Word} (memory : Memory 32)

theorem sign_bad_length (bad : ¬ ValidLength len) :
    secureSign image cmse challenge out len memory = (memory, -1) := by
  rw [valid_length_iff, not_not] at bad
  rw [secureSign, if_pos bad]

theorem sign_bad_challenge (valid : ValidLength len) (refused : cmse challenge len .read = false) :
    secureSign image cmse challenge out len memory = (memory, -2) := by
  rw [valid_length_iff] at valid
  rw [secureSign, if_neg valid, if_pos refused]

theorem sign_bad_out (valid : ValidLength len) (passed : cmse challenge len .read = true)
    (refused : cmse out len .readWrite = false) :
    secureSign image cmse challenge out len memory = (memory, -3) := by
  rw [valid_length_iff] at valid
  rw [secureSign, if_neg valid, if_neg (by rw [passed]; decide), if_pos refused]

end Rejected

/-- What an accepted request leaves behind, whether or not the ranges overlap. -/
structure Signed (memory after : Memory 32) (challenge out : Word) (count : Nat) : Prop where
  output : ∀ index < count, after (byteAt out index) =
    memory (byteAt challenge index) ^^^ memory (byteAt image.sKey (index % 16))
  elsewhere : ∀ address, ¬ Temporary image address → ¬ Within out count address →
    after address = memory address
  key : ∀ address, Within image.sKey 16 address → after address = memory address
  counter : ∀ address, Within image.sCounter 4 address → after address = memory address

theorem accessible_apart (accessible : Accessible) (secured : Inaccessible image accessible)
    (permission : CmsePermission) (p size : Word)
    (range : AccessibleRange accessible permission p size) (address : Word)
    (owned : Owned image address) : ¬ Within p size.toNat address := fun inside =>
  secured permission address owned (range.2 address inside)

theorem sign_apart_spec (challenge out len : Word) (short : len.toNat ≤ 256)
    (challengeApart : ∀ address, Owned image address → ¬ Within challenge len.toNat address)
    (outApart : ∀ address, Owned image address → ¬ Within out len.toNat address) (memory : Memory 32) :
    Signed image memory (signMemory image challenge out len memory) challenge out len.toNat := by
  have visible := sign_memory_apart image short challengeApart outApart memory
  refine ⟨?_, ?_, ?_, ?_⟩
  · intro index below
    have inside : Within out len.toNat (byteAt out index) := within_byteAt out _ index below (by omega)
    have notTemporary : ¬ Temporary image (byteAt out index) := fun temporary =>
      outApart _ (Or.inr (Or.inr (Or.inr temporary))) inside
    rw [visible _ notTemporary, if_pos inside, offset_byteAt out index (by omega)]
    rfl
  · intro address notTemporary beyond
    rw [visible address notTemporary, if_neg beyond]
  · intro address inside
    rw [visible address (key_not_temporary image address inside), if_neg (outApart address (Or.inl inside))]
  · intro address inside
    rw [visible address (counter_not_temporary image address inside),
      if_neg (outApart address (Or.inr (Or.inl inside)))]

/-- `secure_sign` in full: three kinds of request are turned away in this order and change nothing
outside the Secure stack, and every other one is signed. -/
theorem secure_sign_spec (accessible : Accessible) (exactly : CmseExact cmse accessible)
    (secured : Inaccessible image accessible) (challenge out len : Word) (memory : Memory 32) :
    let after := (secureSign image cmse challenge out len memory).1
    let code := (secureSign image cmse challenge out len memory).2
    let unchanged := ∀ address, ¬ Temporary image address → after address = memory address
    (¬ ValidLength len → code = -1 ∧ unchanged) ∧
    (ValidLength len → ¬ AccessibleRange accessible .read challenge len → code = -2 ∧ unchanged) ∧
    (ValidLength len → AccessibleRange accessible .read challenge len →
      ¬ AccessibleRange accessible .readWrite out len → code = -3 ∧ unchanged) ∧
    (ValidLength len → AccessibleRange accessible .read challenge len →
      AccessibleRange accessible .readWrite out len →
      code = 0 ∧ Signed image memory after challenge out len.toNat) := by
  have refuses (p : Word) (permission : CmsePermission)
      (closed : ¬ AccessibleRange accessible permission p len) : cmse p len permission = false := by
    rwa [← exactly, Bool.not_eq_true] at closed
  refine ⟨?_, ?_, ?_, ?_⟩
  · intro bad
    rw [sign_bad_length memory bad]
    exact ⟨rfl, fun _ _ => rfl⟩
  · intro valid closed
    rw [sign_bad_challenge memory valid (refuses challenge .read closed)]
    exact ⟨rfl, fun _ _ => rfl⟩
  · intro valid readable closed
    have passed := (exactly challenge len .read).mpr readable
    rw [sign_bad_out memory valid passed (refuses out .readWrite closed)]
    exact ⟨rfl, fun _ _ => rfl⟩
  · intro valid readable writable
    have accepted : SignAccepted cmse challenge out len :=
      ⟨(valid_length_iff len).mp valid, (exactly _ _ _).mpr readable, (exactly _ _ _).mpr writable⟩
    rw [secure_sign_accepted image cmse challenge out len memory accepted]
    exact ⟨rfl, sign_apart_spec image challenge out len valid.2
      (accessible_apart image accessible secured .read challenge len readable)
      (accessible_apart image accessible secured .readWrite out len writable) memory⟩

def attributed (soc : Soc) : Accessible := fun _ address => soc.sau.attribution address = .nonSecure

theorem attribution_check_exact (soc : Soc) : CmseExact (attributionCheck soc) (attributed soc) := by
  intro p size permission
  constructor
  · intro passed
    exact attribution_check_sound soc p size permission passed
  · rintro ⟨fits, all⟩
    rw [attributionCheck, Bool.and_eq_true, decide_eq_true_eq]
    refine ⟨fits, ?_⟩
    simp only [nonSecureRange, List.all_eq_true, List.mem_range, beq_iff_eq]
    intro index below
    exact all _ ((within_iff_index _ _ _).mpr ⟨index, below, rfl⟩)

/-- An output that starts in the middle of its own challenge. -/
theorem overlapping_sign_spec :
    let cmse := attributionCheck (tzSauConfig resetSoc)
    let accessible := attributed (tzSauConfig resetSoc)
    let after := (secureSign sampleImage cmse 0x20041000 0x20041008 16 signingMemory).1
    let code := (secureSign sampleImage cmse 0x20041000 0x20041008 16 signingMemory).2
    let unchanged := ∀ address, ¬ Temporary sampleImage address → after address = signingMemory address
    (¬ ValidLength 16 → code = -1 ∧ unchanged) ∧
    (ValidLength 16 → ¬ AccessibleRange accessible .read 0x20041000 16 → code = -2 ∧ unchanged) ∧
    (ValidLength 16 → AccessibleRange accessible .read 0x20041000 16 →
      ¬ AccessibleRange accessible .readWrite 0x20041008 16 → code = -3 ∧ unchanged) ∧
    (ValidLength 16 → AccessibleRange accessible .read 0x20041000 16 →
      AccessibleRange accessible .readWrite 0x20041008 16 →
      code = 0 ∧ Signed sampleImage signingMemory after 0x20041000 0x20041008 (16 : Word).toNat) :=
  secure_sign_spec sampleImage (attributionCheck (tzSauConfig resetSoc))
    (attributed (tzSauConfig resetSoc)) (attribution_check_exact (tzSauConfig resetSoc))
    (fun _ => configured_hidden sampleImage resetSoc reset_unused) 0x20041000 0x20041008 16 signingMemory

end Rp2350Tee.SecureSign
