import Mathlib.Algebra.Order.Ring.Nat
import Mathlib.Data.List.FinRange
import Rp2350Tee.ByteMemory

/-!
RISC-V physical memory protection with the Xh3pmpm extension of Hazard3. An
access is decided by the lowest-numbered entry that matches one of its bytes,
and fails when that entry does not match all of them. `PMPCFGM0` bit `i` makes
entry `i` apply to M-mode without locking it. Address comparisons are made on
natural numbers, since `pmpaddr` holds bits 33 to 2 of an address.
-/

namespace Rp2350Tee.PmpUnit

open ByteMemory

inductive Mode where
  | machine | user
  deriving DecidableEq

inductive Access where
  | read | write | execute
  deriving DecidableEq

/-- Numerals for the sixteen entries, and for the sixteen words of a trap frame. -/
instance sixteenEntries : NeZero 16 := ⟨by decide⟩

/-- Numerals for the four `pmpcfg` words. -/
instance fourWords : NeZero 4 := ⟨by decide⟩

structure Pmp where
  pmpaddr : Fin 16 → BitVec 32
  pmpcfg : Fin 4 → BitVec 32
  pmpcfgm0 : BitVec 32

/-- The configuration byte of an entry, four of which are packed in a `pmpcfg` word. -/
def Pmp.cfg (pmp : Pmp) (entry : Fin 16) : BitVec 8 :=
  (pmp.pmpcfg ⟨entry / 4, by omega⟩ >>> (8 * (entry.val % 4))).setWidth 8

def trailingOnes : Nat → Nat → Nat
  | 0, _ => 0
  | fuel + 1, value => if value % 2 = 1 then trailingOnes fuel (value / 2) + 1 else 0

/-- NAPOT: `t` trailing ones select a naturally aligned block of `2 ^ (t + 3)` bytes. -/
def napotMatches (pmpaddr address : BitVec 32) : Bool :=
  let ones := trailingOnes 32 pmpaddr.toNat
  address.toNat / 2 ^ (ones + 3) == pmpaddr.toNat / 2 ^ (ones + 1)

def Pmp.entryMatches (pmp : Pmp) (entry : Fin 16) (address : BitVec 32) : Bool :=
  match (pmp.cfg entry >>> 3 &&& 3).toNat with
  | 0 => false
  | 1 =>
      let bottom := if entry.val = 0 then 0 else (pmp.pmpaddr (entry - 1)).toNat
      decide (bottom * 4 ≤ address.toNat) && decide (address.toNat < (pmp.pmpaddr entry).toNat * 4)
  | 2 => address.toNat / 4 == (pmp.pmpaddr entry).toNat
  | _ => napotMatches (pmp.pmpaddr entry) address

def Access.bit : Access → Nat
  | .read => 0
  | .write => 1
  | .execute => 2

def Pmp.permits (pmp : Pmp) (mode : Mode) (access : Access) (entry : Fin 16) : Bool :=
  (mode == .machine && !(pmp.cfg entry).getLsbD 7 && !pmp.pmpcfgm0.getLsbD entry.val) ||
    (pmp.cfg entry).getLsbD access.bit

def Pmp.grants (pmp : Pmp) (mode : Mode) (access : Access) (base : BitVec 32) (count : Nat) : Bool :=
  match (List.finRange 16).find? (fun entry =>
      (List.range count).any fun index => pmp.entryMatches entry (byteAt base index)) with
  | none => mode == .machine
  | some entry =>
      (List.range count).all (fun index => pmp.entryMatches entry (byteAt base index)) &&
        pmp.permits mode access entry

theorem trailing_ones_run (fuel ones upper : Nat) (enough : ones < fuel) :
    trailingOnes fuel (upper * 2 ^ (ones + 1) + (2 ^ ones - 1)) = ones := by
  induction ones generalizing fuel with
  | zero =>
      cases fuel with
      | zero => exact absurd enough (by decide)
      | succ fuel => simp [trailingOnes]
  | succ ones ih =>
      cases fuel with
      | zero => exact absurd enough (Nat.not_lt_zero _)
      | succ fuel =>
          have positive : 0 < 2 ^ ones := Nat.two_pow_pos ones
          have split : upper * 2 ^ (ones + 1 + 1) + (2 ^ (ones + 1) - 1) =
              2 * (upper * 2 ^ (ones + 1) + (2 ^ ones - 1)) + 1 := by
            rw [Nat.pow_succ 2 (ones + 1), Nat.pow_succ 2 ones, ← Nat.mul_assoc upper]
            omega
          rw [split, trailingOnes, if_pos (by omega)]
          rw [show (2 * (upper * 2 ^ (ones + 1) + (2 ^ ones - 1)) + 1) / 2 =
            upper * 2 ^ (ones + 1) + (2 ^ ones - 1) by omega, ih fuel (by omega)]

theorem napot_matches_run (pmpaddr address : BitVec 32) (ones upper : Nat) (few : ones < 32)
    (encoded : pmpaddr.toNat = upper * 2 ^ (ones + 1) + (2 ^ ones - 1)) :
    napotMatches pmpaddr address = true ↔ address.toNat / 2 ^ (ones + 3) = upper := by
  have below : 2 ^ ones - 1 < 2 ^ (ones + 1) := by
    have := Nat.two_pow_pos ones
    rw [Nat.pow_succ]
    omega
  rw [napotMatches, encoded, trailing_ones_run 32 ones upper few, Nat.mul_comm upper,
    beq_iff_eq,
    Nat.mul_add_div (Nat.two_pow_pos _), Nat.div_eq_of_lt below]
  exact Iff.rfl

theorem napot_matches_all (address : BitVec 32) : napotMatches 0xFFFFFFFF address = true := by
  have ones : trailingOnes 32 (0xFFFFFFFF : BitVec 32).toNat = 32 := by decide
  have small := address.isLt
  rw [napotMatches, ones, beq_iff_eq, Nat.div_eq_of_lt (by omega)]
  decide

section DenyThenAllow

/-- Entry 0 matches the block and gives nothing, entry 1 matches everything and gives all. -/
structure DenyThenAllow (pmp : Pmp) (block : BitVec 32 → Bool) : Prop where
  deny : ∀ address, pmp.entryMatches 0 address = block address
  allow : ∀ address, pmp.entryMatches 1 address = true
  denyCfg : ∀ access : Access, (pmp.cfg 0).getLsbD access.bit = false
  denyUnlocked : (pmp.cfg 0).getLsbD 7 = false
  allowCfg : ∀ access : Access, (pmp.cfg 1).getLsbD access.bit = true

variable {pmp : Pmp} {block : BitVec 32 → Bool}

def touches (block : BitVec 32 → Bool) (base : BitVec 32) (count : Nat) : Bool :=
  (List.range count).any fun index => block (byteAt base index)

theorem touches_iff (base : BitVec 32) (count : Nat) :
    touches block base count = true ↔ ∃ index < count, block (byteAt base index) = true := by
  simp [touches]

theorem touches_false (base : BitVec 32) (count : Nat) :
    touches block base count = false ↔ ∀ index < count, block (byteAt base index) = false := by
  simp [touches]

theorem DenyThenAllow.first_entry (pair : DenyThenAllow pmp block)
    (base : BitVec 32) (count : Nat) (positive : 0 < count) :
    (List.finRange 16).find? (fun entry =>
        (List.range count).any fun index => pmp.entryMatches entry (byteAt base index)) =
      some (if touches block base count then 0 else 1) := by
  have entries : List.finRange 16 = (0 : Fin 16) :: 1 :: (List.finRange 16).drop 2 := by decide
  have allowed : ((List.range count).any fun index => pmp.entryMatches 1 (byteAt base index)) = true :=
    List.any_eq_true.mpr ⟨0, List.mem_range.mpr positive, pair.allow _⟩
  rw [entries, List.find?_cons, List.find?_cons, allowed]
  simp only [pair.deny]
  change (match touches block base count with | true => _ | false => _) = _
  cases touches block base count <;> rfl

theorem DenyThenAllow.grants_outside (pair : DenyThenAllow pmp block) (mode : Mode)
    (access : Access) (base : BitVec 32) (count : Nat) (positive : 0 < count)
    (outside : touches block base count = false) : pmp.grants mode access base count = true := by
  rw [Pmp.grants, pair.first_entry base count positive, outside]
  simp [Pmp.permits, pair.allowCfg, pair.allow]

theorem DenyThenAllow.user_grants (pair : DenyThenAllow pmp block) (access : Access)
    (base : BitVec 32) (count : Nat) (positive : 0 < count) :
    pmp.grants .user access base count = !touches block base count := by
  rw [Pmp.grants, pair.first_entry base count positive]
  cases touches block base count with
  | true => simp [Pmp.permits, pair.denyCfg]
  | false => simp [Pmp.permits, pair.allowCfg, pair.allow]

theorem DenyThenAllow.machine_grants (pair : DenyThenAllow pmp block) (access : Access)
    (base : BitVec 32) (count : Nat) (positive : 0 < count)
    (lifted : pmp.pmpcfgm0.getLsbD 0 = false)
    (whole : touches block base count = true → ∀ index < count, block (byteAt base index) = true) :
    pmp.grants .machine access base count = true := by
  rw [Pmp.grants, pair.first_entry base count positive]
  cases touched : touches block base count with
  | true =>
      have permitted : pmp.permits .machine access 0 = true := by
        simp only [Pmp.permits, pair.denyUnlocked, Fin.val_zero, lifted]
        rfl
      simpa [permitted, pair.deny] using whole touched
  | false => simp [Pmp.permits, pair.allowCfg, pair.allow]

/-- While `PMPCFGM0` names it, the closing entry also holds for M-mode. -/
theorem DenyThenAllow.machine_restricted (pair : DenyThenAllow pmp block) (access : Access)
    (base : BitVec 32) (count : Nat) (positive : 0 < count)
    (applied : pmp.pmpcfgm0.getLsbD 0 = true) :
    pmp.grants .machine access base count = !touches block base count := by
  rw [Pmp.grants, pair.first_entry base count positive]
  cases touches block base count with
  | true => simp [Pmp.permits, pair.denyCfg, applied]
  | false => simp [Pmp.permits, pair.allowCfg, pair.allow]

end DenyThenAllow

end Rp2350Tee.PmpUnit
