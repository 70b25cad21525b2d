import Mathlib.Data.BitVec
import Mathlib.Logic.Function.Basic

/-!
Byte-addressed memory over a wrapping address space. An address range is given
by its first byte and a count, and membership is taken modulo the size of the
address space, so a range that runs past the top continues at zero exactly as
pointer arithmetic does.
-/

namespace Rp2350Tee.ByteMemory

abbrev Byte := BitVec 8

abbrev Memory (w : Nat) := BitVec w → Byte

variable {w : Nat}

/-- `address` is one of the `count` bytes that start at `base`. -/
def Within (base : BitVec w) (count : Nat) (address : BitVec w) : Prop :=
  (address - base).toNat < count

instance (base : BitVec w) (count : Nat) (address : BitVec w) :
    Decidable (Within base count address) :=
  inferInstanceAs (Decidable ((address - base).toNat < count))

def byteAt (base : BitVec w) (index : Nat) : BitVec w := base + BitVec.ofNat w index

@[simp] theorem byteAt_zero (base : BitVec w) : byteAt base 0 = base := by
  simp [byteAt]

theorem byteAt_byteAt (base : BitVec w) (i j : Nat) :
    byteAt (byteAt base i) j = byteAt base (i + j) := by
  simp only [byteAt, BitVec.add_assoc, BitVec.ofNat_add]

theorem byteAt_offset (base address : BitVec w) :
    byteAt base (address - base).toNat = address := by
  rw [byteAt, BitVec.ofNat_toNat, BitVec.setWidth_eq, BitVec.add_comm, BitVec.sub_add_cancel]

theorem offset_byteAt (base : BitVec w) (index : Nat) (bounded : index < 2 ^ w) :
    (byteAt base index - base).toNat = index := by
  rw [byteAt, BitVec.add_comm, BitVec.add_sub_cancel, BitVec.toNat_ofNat, Nat.mod_eq_of_lt bounded]

theorem byteAt_toNat (base : BitVec w) (index : Nat) (fits : base.toNat + index < 2 ^ w) :
    (byteAt base index).toNat = base.toNat + index := by
  rw [byteAt, BitVec.toNat_add, BitVec.toNat_ofNat, Nat.add_mod_mod, Nat.mod_eq_of_lt fits]

theorem within_byteAt (base : BitVec w) (count index : Nat) (inside : index < count)
    (bounded : index < 2 ^ w) : Within base count (byteAt base index) := by
  rw [Within, offset_byteAt base index bounded]
  exact inside

theorem within_iff_index (base address : BitVec w) (count : Nat) :
    Within base count address ↔ ∃ index < count, address = byteAt base index := by
  constructor
  · intro inside
    exact ⟨_, inside, (byteAt_offset base address).symm⟩
  · rintro ⟨index, inside, rfl⟩
    rw [Within, byteAt, BitVec.add_comm, BitVec.add_sub_cancel, BitVec.toNat_ofNat]
    exact Nat.lt_of_le_of_lt (Nat.mod_le index _) inside

theorem within_iff_interval (base address : BitVec w) (count : Nat)
    (fits : base.toNat + count ≤ 2 ^ w) :
    Within base count address ↔
      base.toNat ≤ address.toNat ∧ address.toNat < base.toNat + count := by
  rw [Within]
  by_cases below : base ≤ address
  · have ordered : base.toNat ≤ address.toNat := below
    rw [BitVec.toNat_sub_of_le below]
    omega
  · have ordered : address.toNat < base.toNat := Nat.lt_of_not_le below
    rw [BitVec.toNat_sub_of_lt (BitVec.lt_def.mpr ordered)]
    omega

theorem within_of_part (base address : BitVec w) (offset count whole : Nat)
    (part : offset + count ≤ whole) (inside : Within (byteAt base offset) count address) :
    Within base whole address := by
  obtain ⟨index, below, rfl⟩ := (within_iff_index _ _ _).mp inside
  rw [within_iff_index]
  exact ⟨offset + index, by omega, byteAt_byteAt base offset index⟩

theorem parts_apart (base address : BitVec w) (first count second otherCount : Nat)
    (ordered : first + count ≤ second) (fits : second + otherCount ≤ 2 ^ w)
    (inside : Within (byteAt base first) count address) :
    ¬ Within (byteAt base second) otherCount address := by
  obtain ⟨i, small, rfl⟩ := (within_iff_index _ _ _).mp inside
  intro overlap
  obtain ⟨j, below, same⟩ := (within_iff_index _ _ _).mp overlap
  have offsets := congrArg (fun a : BitVec w => (a - base).toNat) same
  simp only [byteAt_byteAt, offset_byteAt base (first + i) (by omega),
    offset_byteAt base (second + j) (by omega)] at offsets
  omega

theorem apart_of_le (base other address : BitVec w) (count otherCount : Nat)
    (ordered : base.toNat + count ≤ other.toNat)
    (fits : other.toNat + otherCount ≤ 2 ^ w)
    (inside : Within base count address) : ¬ Within other otherCount address := by
  rw [within_iff_interval _ _ _ (by omega)] at inside ⊢
  omega

theorem apart_of_ge (base other address : BitVec w) (count otherCount : Nat)
    (ordered : other.toNat + otherCount ≤ base.toNat)
    (fits : base.toNat + count ≤ 2 ^ w)
    (inside : Within base count address) : ¬ Within other otherCount address := by
  rw [within_iff_interval _ _ _ (by omega)] at inside ⊢
  omega

def Separate (first second : BitVec w × Nat) : Prop :=
  first.1.toNat + first.2 ≤ second.1.toNat ∨ second.1.toNat + second.2 ≤ first.1.toNat

instance (first second : BitVec w × Nat) : Decidable (Separate first second) :=
  inferInstanceAs (Decidable (_ ∨ _))

theorem separate_apart (first second : BitVec w × Nat)
    (firstFits : first.1.toNat + first.2 ≤ 2 ^ w) (secondFits : second.1.toNat + second.2 ≤ 2 ^ w)
    (separate : Separate first second) (address : BitVec w) (inside : Within first.1 first.2 address) :
    ¬ Within second.1 second.2 address := by
  rcases separate with before | after
  · exact apart_of_le _ _ _ _ _ before secondFits inside
  · exact apart_of_ge _ _ _ _ _ after firstFits inside

def storeBytes (memory : Memory w) (base : BitVec w) : List Byte → Memory w
  | [] => memory
  | byte :: rest => storeBytes (Function.update memory base byte) (byteAt base 1) rest

def loadBytes (memory : Memory w) (base : BitVec w) (count : Nat) : List Byte :=
  (List.range count).map fun index => memory (byteAt base index)

theorem storeBytes_outside (memory : Memory w) (base address : BitVec w) (bytes : List Byte)
    (outside : ¬ Within base bytes.length address) :
    storeBytes memory base bytes address = memory address := by
  induction bytes generalizing memory base with
  | nil => rfl
  | cons byte rest ih =>
      rw [within_iff_index] at outside
      push Not at outside
      have fresh : address ≠ base := by simpa using outside 0 (by simp)
      rw [storeBytes, ih, Function.update_of_ne fresh]
      rw [within_iff_index]
      rintro ⟨index, inside, rfl⟩
      exact outside (1 + index) (by rw [List.length_cons]; omega)
        (byteAt_byteAt base 1 index)

theorem storeBytes_inside (memory : Memory w) (base : BitVec w) (bytes : List Byte)
    (bounded : bytes.length ≤ 2 ^ w) (index : Nat) (inside : index < bytes.length) :
    storeBytes memory base bytes (byteAt base index) = bytes[index] := by
  induction bytes generalizing memory base index with
  | nil => simp at inside
  | cons byte rest ih =>
      have restBounded : rest.length + 1 ≤ 2 ^ w := by simpa using bounded
      cases index with
      | zero =>
          have beyond : ¬ Within (byteAt base 1) rest.length base := by
            rw [within_iff_index]
            rintro ⟨index, below, wraps⟩
            have offset := offset_byteAt base (1 + index) (by omega)
            rw [← byteAt_byteAt, ← wraps, BitVec.sub_self, BitVec.toNat_zero] at offset
            omega
          simp [storeBytes, storeBytes_outside _ _ _ _ beyond]
      | succ index =>
          have tail := ih (Function.update memory base byte) (byteAt base 1) (by omega) index
            (by simpa using inside)
          rw [byteAt_byteAt, Nat.add_comm] at tail
          simpa [storeBytes] using tail

/-- Whatever a store leaves at an address, it is decided by the stored bytes alone
inside the range and by the memory alone outside it. -/
theorem storeBytes_congr (left right : Memory w) (base address : BitVec w) (bytes : List Byte)
    (bounded : bytes.length ≤ 2 ^ w)
    (agree : ¬ Within base bytes.length address → left address = right address) :
    storeBytes left base bytes address = storeBytes right base bytes address := by
  by_cases inside : Within base bytes.length address
  · obtain ⟨index, below, rfl⟩ := (within_iff_index _ _ _).mp inside
    rw [storeBytes_inside left base bytes bounded index below,
      storeBytes_inside right base bytes bounded index below]
  · rw [storeBytes_outside _ _ _ _ inside, storeBytes_outside _ _ _ _ inside, agree inside]

theorem loadBytes_congr (left right : Memory w) (base : BitVec w) (count : Nat)
    (agree : ∀ index < count, left (byteAt base index) = right (byteAt base index)) :
    loadBytes left base count = loadBytes right base count := by
  apply List.map_congr_left
  intro index member
  exact agree index (List.mem_range.mp member)

def wordBytes (value : BitVec 32) : List Byte :=
  [value.extractLsb' 0 8, value.extractLsb' 8 8, value.extractLsb' 16 8, value.extractLsb' 24 8]

def load32 (memory : Memory w) (base : BitVec w) : BitVec 32 :=
  memory (byteAt base 3) ++ memory (byteAt base 2) ++ memory (byteAt base 1) ++ memory base

def store32 (memory : Memory w) (base : BitVec w) (value : BitVec 32) : Memory w :=
  storeBytes memory base (wordBytes value)

@[simp] theorem wordBytes_length (value : BitVec 32) : (wordBytes value).length = 4 := rfl

theorem store32_outside (memory : Memory w) (base address : BitVec w) (value : BitVec 32)
    (outside : ¬ Within base 4 address) : store32 memory base value address = memory address :=
  storeBytes_outside memory base address (wordBytes value) outside

theorem load32_congr (left right : Memory w) (base : BitVec w)
    (agree : ∀ address, Within base 4 address → left address = right address) :
    load32 left base = load32 right base := by
  have byte (index : Nat) (below : index < 4) :
      left (byteAt base index) = right (byteAt base index) :=
    agree _ ((within_iff_index _ _ _).mpr ⟨index, below, rfl⟩)
  have first := byte 0 (by decide)
  rw [byteAt_zero] at first
  simp only [load32, byte 1 (by decide), byte 2 (by decide), byte 3 (by decide), first]

theorem word_of_bytes (value : BitVec 32) :
    value.extractLsb' 24 8 ++ value.extractLsb' 16 8 ++ value.extractLsb' 8 8 ++
      value.extractLsb' 0 8 = value := by
  apply BitVec.eq_of_getLsbD_eq
  intro bit inside
  simp only [BitVec.getLsbD_append, BitVec.getLsbD_extractLsb']
  grind

theorem load32_store32 (memory : Memory w) (base : BitVec w) (value : BitVec 32)
    (bounded : 4 ≤ 2 ^ w) : load32 (store32 memory base value) base = value := by
  have byte (index : Nat) (below : index < 4) :=
    storeBytes_inside memory base (wordBytes value) bounded index below
  have first := byte 0 (by decide)
  rw [byteAt_zero] at first
  rw [load32, store32, byte 1 (by decide), byte 2 (by decide), byte 3 (by decide), first]
  exact word_of_bytes value

/-- Consecutive words, stored one after the other as a register save does. -/
def storeWords (memory : Memory w) (base : BitVec w) : List (BitVec 32) → Memory w
  | [] => memory
  | word :: rest => storeWords (store32 memory base word) (byteAt base 4) rest

theorem storeWords_outside (memory : Memory w) (base address : BitVec w)
    (words : List (BitVec 32)) (outside : ¬ Within base (4 * words.length) address) :
    storeWords memory base words address = memory address := by
  induction words generalizing memory base with
  | nil => rfl
  | cons word rest ih =>
      rw [within_iff_index] at outside
      push Not at outside
      have head : ¬ Within base 4 address := by
        rw [within_iff_index]
        rintro ⟨index, below, same⟩
        exact outside index (by rw [List.length_cons]; omega) same
      rw [storeWords, ih, store32_outside _ _ _ _ head]
      rw [within_iff_index]
      rintro ⟨index, below, same⟩
      exact outside (4 + index) (by rw [List.length_cons]; omega) (by rw [same, byteAt_byteAt])

theorem load32_storeWords (memory : Memory w) (base : BitVec w) (words : List (BitVec 32))
    (bounded : 4 * words.length ≤ 2 ^ w) (index : Nat) (inside : index < words.length) :
    load32 (storeWords memory base words) (byteAt base (4 * index)) = words[index] := by
  induction words generalizing memory base index with
  | nil => simp at inside
  | cons word rest ih =>
      have roomy : 4 * rest.length + 4 ≤ 2 ^ w := by
        have := bounded
        rw [List.length_cons] at this
        omega
      cases index with
      | zero =>
          have kept : load32 (storeWords (store32 memory base word) (byteAt base 4) rest) base =
              load32 (store32 memory base word) base := by
            apply load32_congr
            intro address inWord
            apply storeWords_outside
            obtain ⟨i, small, rfl⟩ := (within_iff_index _ _ _).mp inWord
            rw [within_iff_index]
            rintro ⟨j, below, same⟩
            rw [byteAt_byteAt] at same
            have distinct := congrArg (fun a => (a - base).toNat) same
            simp only [offset_byteAt base i (by omega), offset_byteAt base (4 + j) (by omega)]
              at distinct
            omega
          simpa [storeWords, kept] using load32_store32 memory base word (by omega)
      | succ index =>
          have tail := ih (store32 memory base word) (byteAt base 4) (by omega) index
            (by simpa using inside)
          rw [byteAt_byteAt] at tail
          simpa [storeWords, Nat.mul_add, Nat.add_comm] using tail

theorem storeWords_congr (left right : Memory w) (base address : BitVec w)
    (words : List (BitVec 32)) (bounded : 4 * words.length ≤ 2 ^ w)
    (agree : ¬ Within base (4 * words.length) address → left address = right address) :
    storeWords left base words address = storeWords right base words address := by
  induction words generalizing left right base with
  | nil => exact agree (by simp [Within])
  | cons word rest ih =>
      rw [List.length_cons] at bounded agree
      apply ih _ _ _ (by omega)
      intro pastHead
      apply storeBytes_congr _ _ _ _ _ (by rw [wordBytes_length]; omega)
      intro outside
      apply agree
      rw [within_iff_index]
      rintro ⟨index, below, rfl⟩
      by_cases small : index < 4
      · exact outside ((within_iff_index _ _ _).mpr ⟨index, small, rfl⟩)
      · apply pastHead
        rw [within_iff_index]
        exact ⟨index - 4, by omega, by rw [byteAt_byteAt]; congr 1; omega⟩

def fillBytes (base : BitVec w) (value : Nat → Memory w → Byte) (memory : Memory w) :
    Nat → Memory w
  | 0 => memory
  | count + 1 =>
      let filled := fillBytes base value memory count
      Function.update filled (byteAt base count) (value count filled)

theorem fillBytes_outside (base : BitVec w) (value : Nat → Memory w → Byte) (memory : Memory w)
    (count : Nat) (address : BitVec w) (outside : ¬ Within base count address) :
    fillBytes base value memory count address = memory address := by
  induction count with
  | zero => rfl
  | succ count ih =>
      rw [within_iff_index] at outside
      push Not at outside
      rw [fillBytes, Function.update_of_ne (outside count (Nat.lt_succ_self count)), ih]
      rw [within_iff_index]
      rintro ⟨index, below, same⟩
      exact outside index (Nat.lt_succ_of_lt below) same

/-- If the values do not depend on the bytes being written, each byte gets its value. -/
theorem fillBytes_inside (base : BitVec w) (value : Nat → Memory w → Byte) (memory : Memory w)
    (count : Nat) (bounded : count ≤ 2 ^ w)
    (stable : ∀ index < count, ∀ other : Memory w,
      (∀ address, ¬ Within base count address → other address = memory address) →
      value index other = value index memory)
    (index : Nat) (inside : index < count) :
    fillBytes base value memory count (byteAt base index) = value index memory := by
  have filled (done : Nat) (some : done ≤ count) (later : index < done) :
      fillBytes base value memory done (byteAt base index) = value index memory := by
    induction done with
    | zero => exact absurd later (Nat.not_lt_zero index)
    | succ done ih =>
        rw [fillBytes]
        by_cases last : index = done
        · subst last
          rw [Function.update_self]
          apply stable index inside
          intro address outside
          apply fillBytes_outside
          rw [within_iff_index] at outside ⊢
          rintro ⟨position, below, same⟩
          exact outside ⟨position, by omega, same⟩
        · have other : byteAt base index ≠ byteAt base done := by
            intro same
            have offsets := congrArg (fun a : BitVec w => (a - base).toNat) same
            simp only [offset_byteAt base index (by omega), offset_byteAt base done (by omega)]
              at offsets
            exact last offsets
          rw [Function.update_of_ne other, ih (by omega) (by omega)]
  exact filled count (Nat.le_refl count) inside

theorem load32_bytes (memory : Memory w) (base : BitVec w) :
    wordBytes (load32 memory base) = [memory base, memory (byteAt base 1), memory (byteAt base 2),
      memory (byteAt base 3)] := by
  simp only [wordBytes, load32, List.cons.injEq, and_true]
  refine ⟨?_, ?_, ?_, ?_⟩ <;>
  · apply BitVec.eq_of_getLsbD_eq
    intro bit inside
    simp only [BitVec.getLsbD_extractLsb', BitVec.getLsbD_append]
    grind

theorem packed_word (first second third fourth : Byte) :
    first.setWidth 32 ||| second.setWidth 32 <<< 8 ||| third.setWidth 32 <<< 16 |||
      fourth.setWidth 32 <<< 24 = fourth ++ third ++ second ++ first := by
  apply BitVec.eq_of_getLsbD_eq
  intro bit inside
  simp only [BitVec.getLsbD_or, BitVec.getLsbD_append, BitVec.getLsbD_shiftLeft,
    BitVec.getLsbD_setWidth]
  grind

theorem load32_eq_iff (left right : Memory w) (base : BitVec w) :
    load32 left base = load32 right base ↔
      ∀ address, Within base 4 address → left address = right address := by
  constructor
  · intro same address inside
    have bytes := congrArg wordBytes same
    simp only [load32_bytes, List.cons.injEq, and_true] at bytes
    obtain ⟨index, below, rfl⟩ := (within_iff_index _ _ _).mp inside
    match index, below with
    | 0, _ => rw [byteAt_zero]; exact bytes.1
    | 1, _ => exact bytes.2.1
    | 2, _ => exact bytes.2.2.1
    | 3, _ => exact bytes.2.2.2
  · exact load32_congr left right base

theorem store32_load32_inside (memory other : Memory w) (target source : BitVec w)
    (bounded : 4 ≤ 2 ^ w) (index : Nat) (inside : index < 4) :
    store32 memory target (load32 other source) (byteAt target index) =
      other (byteAt source index) := by
  rw [store32, storeBytes_inside memory target (wordBytes _) bounded index inside]
  simp only [load32_bytes]
  match index, inside with
  | 0, _ => simp
  | 1, _ => rfl
  | 2, _ => rfl
  | 3, _ => rfl

def copyWords (target source : BitVec w) (memory : Memory w) : Nat → Memory w
  | 0 => memory
  | count + 1 =>
      let copied := copyWords target source memory count
      store32 copied (byteAt target (4 * count)) (load32 copied (byteAt source (4 * count)))

theorem copyWords_outside (target source : BitVec w) (memory : Memory w) (count : Nat)
    (address : BitVec w) (outside : ¬ Within target (4 * count) address) :
    copyWords target source memory count address = memory address := by
  induction count with
  | zero => rfl
  | succ count ih =>
      rw [copyWords, store32_outside, ih]
      · intro inside
        exact outside (within_of_part target address 0 (4 * count) _ (by omega) (by simpa using inside))
      · intro inside
        exact outside (within_of_part target address (4 * count) 4 _ (by omega) inside)

/-- Every byte arrives, if the loop does not write what it has yet to read. -/
theorem copyWords_inside (target source : BitVec w) (memory : Memory w) (count : Nat)
    (bounded : 4 * count ≤ 2 ^ w)
    (apart : ∀ address, Within source (4 * count) address → ¬ Within target (4 * count) address)
    (index : Nat) (inside : index < 4 * count) :
    copyWords target source memory count (byteAt target index) = memory (byteAt source index) := by
  have copied (done : Nat) (some : done ≤ count) (later : index < 4 * done) :
      copyWords target source memory done (byteAt target index) = memory (byteAt source index) := by
    induction done with
    | zero => omega
    | succ done ih =>
        by_cases last : index < 4 * done
        · have before : ¬ Within (byteAt target (4 * done)) 4 (byteAt target index) := by
            apply parts_apart target _ 0 (4 * done) (4 * done) 4 (by omega) (by omega)
            rw [byteAt_zero]
            exact within_byteAt target _ index last (by omega)
          rw [copyWords, store32_outside _ _ _ _ before, ih (by omega) last]
        · obtain ⟨rest, rfl⟩ := Nat.exists_eq_add_of_le (Nat.le_of_not_lt last)
          rw [copyWords, ← byteAt_byteAt, store32_load32_inside _ _ _ _ (by omega) rest (by omega),
            byteAt_byteAt]
          -- the source byte is still what it was
          apply copyWords_outside
          intro written
          exact apart _ (within_byteAt source _ _ inside (by omega))
            (within_of_part target _ 0 (4 * done) _ (by omega) (by simpa using written))
  exact copied count (Nat.le_refl count) inside

inductive Width where
  | byte | half | word
  deriving DecidableEq

def Width.bytes : Width → Nat
  | .byte => 1
  | .half => 2
  | .word => 4

theorem width_positive (width : Width) : 0 < width.bytes := by
  cases width <;> decide

def storeValue (width : Width) (value : BitVec 32) : List Byte := (wordBytes value).take width.bytes

theorem storeValue_length (width : Width) (value : BitVec 32) :
    (storeValue width value).length = width.bytes := by
  cases width <;> rfl

end Rp2350Tee.ByteMemory
