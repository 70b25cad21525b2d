import Rp2350Tee.ByteMemory

/-!
Two memories compared byte by byte. `DifferOn hidden copies` says where they
differ outside a region that nobody reads: exactly on `copies`. Equal stores
remove bytes from `copies`, and a load tells the memories apart exactly when it
reaches one of them.
-/

namespace Rp2350Tee.MemoryDiff

open ByteMemory

variable {w : Nat}

def DifferOn (hidden copies : BitVec w → Prop) (left right : Memory w) : Prop :=
  ∀ address, ¬ hidden address → (left address = right address ↔ ¬ copies address)

/-- What is left of `copies` when a range has been overwritten. -/
def cleared (copies : BitVec w → Prop) (base : BitVec w) (count : Nat) : BitVec w → Prop :=
  fun address => copies address ∧ ¬ Within base count address

theorem cleared_false (base : BitVec w) (count : Nat) :
    cleared (fun _ => False) base count = fun _ => False :=
  funext fun _ => propext ⟨And.left, False.elim⟩

variable {hidden copies : BitVec w → Prop} {left right : Memory w}

theorem DifferOn.congr {other : BitVec w → Prop} (differ : DifferOn hidden copies left right)
    (same : ∀ address, other address ↔ copies address) : DifferOn hidden other left right := by
  intro address visible
  rw [differ address visible, same address]

theorem DifferOn.load32_eq (differ : DifferOn hidden copies left right) (base : BitVec w)
    (visible : ∀ address, Within base 4 address → ¬ hidden address)
    (clean : ∀ address, Within base 4 address → ¬ copies address) :
    load32 left base = load32 right base :=
  load32_congr left right base fun address inside =>
    (differ address (visible address inside)).mpr (clean address inside)

theorem loadBytes_eq_iff (base : BitVec w) (count : Nat) :
    loadBytes left base count = loadBytes right base count ↔
      ∀ index < count, left (byteAt base index) = right (byteAt base index) := by
  simp [loadBytes]

theorem DifferOn.loadBytes_iff (differ : DifferOn hidden copies left right) (base : BitVec w)
    (count : Nat) (visible : ∀ index < count, ¬ hidden (byteAt base index)) :
    loadBytes left base count = loadBytes right base count ↔
      ∀ index < count, ¬ copies (byteAt base index) := by
  rw [loadBytes_eq_iff]
  exact forall_congr' fun index => forall_congr' fun below => differ _ (visible index below)

theorem DifferOn.storeBytes (differ : DifferOn hidden copies left right) (base : BitVec w)
    (bytes : List Byte) (bounded : bytes.length ≤ 2 ^ w) :
    DifferOn hidden (cleared copies base bytes.length)
      (storeBytes left base bytes) (storeBytes right base bytes) := by
  intro address visible
  by_cases inside : Within base bytes.length address
  · have same := storeBytes_congr left right base address bytes bounded fun outside =>
      absurd inside outside
    simp [same, cleared, inside]
  · rw [storeBytes_outside _ _ _ _ inside, storeBytes_outside _ _ _ _ inside,
      differ address visible]
    simp [cleared, inside]

theorem DifferOn.storeWords (differ : DifferOn hidden copies left right) (base : BitVec w)
    (words : List (BitVec 32)) (bounded : 4 * words.length ≤ 2 ^ w) :
    DifferOn hidden (cleared copies base (4 * words.length))
      (storeWords left base words) (storeWords right base words) := by
  intro address visible
  by_cases inside : Within base (4 * words.length) address
  · have same := storeWords_congr left right base address words bounded fun outside =>
      absurd inside outside
    simp [same, cleared, inside]
  · rw [storeWords_outside _ _ _ _ inside, storeWords_outside _ _ _ _ inside,
      differ address visible]
    simp [cleared, inside]

theorem DifferOn.store32_kept (differ : DifferOn hidden copies left right) (base : BitVec w)
    (value : BitVec 32) (bounded : 4 ≤ 2 ^ w)
    (clean : ∀ address, Within base 4 address → ¬ copies address) :
    DifferOn hidden copies (store32 left base value) (store32 right base value) := by
  apply (differ.storeBytes base (wordBytes value) bounded).congr
  intro address
  exact ⟨fun copied => ⟨copied, fun inside => clean address inside copied⟩, And.left⟩

theorem DifferOn.map (differ : DifferOn hidden copies left right)
    (change : BitVec w → Byte → Byte) (injective : ∀ address, Function.Injective (change address)) :
    DifferOn hidden copies (fun address => change address (left address))
      (fun address => change address (right address)) := by
  intro address visible
  rw [(injective address).eq_iff, differ address visible]

def seen (visible : BitVec w → Bool) (memory : Memory w) (address : BitVec w) : Option Byte :=
  if visible address then some (memory address) else none

theorem DifferOn.seen_iff (differ : DifferOn hidden copies left right) (visible : BitVec w → Bool)
    (shown : ∀ address, visible address = true → ¬ hidden address) :
    seen visible left = seen visible right ↔ ∀ address, visible address = true → ¬ copies address := by
  constructor
  · intro same address sees
    have here := congrFun same address
    rw [seen, seen, if_pos sees, if_pos sees, Option.some.injEq] at here
    exact (differ address (shown address sees)).mp here
  · intro clean
    funext address
    by_cases sees : visible address = true
    · rw [seen, seen, if_pos sees, if_pos sees,
        (differ address (shown address sees)).mpr (clean address sees)]
    · rw [seen, seen, if_neg sees, if_neg sees]

end Rp2350Tee.MemoryDiff
