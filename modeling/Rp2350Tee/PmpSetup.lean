import Mathlib.Tactic.Ring
import Mathlib.Tactic.Tauto
import Rp2350Tee.PmpProgram

/-!
What the set-up of `main` establishes: the two PMP entries of
`pmp_isolate_secret` close the block of `g_prot` to U-mode and nothing else, and
the recovered self-test leaves the machine ready for U-mode.
-/

namespace Rp2350Tee.PmpSetup

open ByteMemory PmpUnit PmpProgram

variable (layout : Layout)

theorem prot_range : sramStart ≤ layout.gProt.toNat ∧ layout.gProt.toNat + 64 ≤ sramEnd :=
  layout.inSram (layout.gProt, 64) (by simp [Placement.objects])

theorem mb_range : sramStart ≤ layout.gMb.toNat ∧ layout.gMb.toNat + 64 ≤ sramEnd :=
  layout.inSram (layout.gMb, 64) (by simp [Placement.objects])

theorem stage_range : sramStart ≤ layout.gStage.toNat ∧ layout.gStage.toNat + 4 ≤ sramEnd :=
  layout.inSram (layout.gStage, 4) (by simp [Placement.objects])

theorem stack_range :
    sramStart ≤ layout.gMTrapStack.toNat ∧ layout.gMTrapStack.toNat + 512 ≤ sramEnd :=
  layout.inSram (layout.gMTrapStack, 512) (by simp [Placement.objects])

theorem test_range : sramStart ≤ layout.mainT.toNat ∧ layout.mainT.toNat + 4 ≤ sramEnd :=
  layout.inSram (layout.mainT, 4) (by simp [Placement.objects])

theorem objects_apart (first second : Word × Nat)
    (firstFits : first.1.toNat + first.2 ≤ sramEnd) (secondFits : second.1.toNat + second.2 ≤ sramEnd)
    (separate : Separate first second) (address : Word) (inside : Within first.1 first.2 address) :
    ¬ Within second.1 second.2 address :=
  separate_apart first second (Nat.le_trans firstFits (by decide))
    (Nat.le_trans secondFits (by decide)) separate address inside

theorem layout_separate :
    (Separate (layout.gProt, 64) (layout.gMb, 64) ∧
      Separate (layout.gProt, 64) (layout.gStage, 4) ∧
      Separate (layout.gProt, 64) (layout.gMTrapStack, 512) ∧
      Separate (layout.gProt, 64) (layout.mainT, 4)) ∧
    (Separate (layout.gMb, 64) (layout.gStage, 4) ∧
      Separate (layout.gMb, 64) (layout.gMTrapStack, 512) ∧
      Separate (layout.gMb, 64) (layout.mainT, 4)) ∧
    (Separate (layout.gStage, 4) (layout.gMTrapStack, 512) ∧
      Separate (layout.gStage, 4) (layout.mainT, 4)) ∧
    Separate (layout.gMTrapStack, 512) (layout.mainT, 4) := by
  have apart := layout.apart
  simp only [Placement.objects, List.pairwise_cons, List.mem_cons, List.not_mem_nil, or_false,
    forall_eq_or_imp, forall_eq] at apart
  tauto

theorem prot_not_mb (address : Word) (inside : Within layout.gProt 64 address) :
    ¬ Within layout.gMb 64 address :=
  objects_apart (layout.gProt, 64) (layout.gMb, 64) (prot_range layout).2 (mb_range layout).2
    (layout_separate layout).1.1 address inside

theorem prot_not_stage (address : Word) (inside : Within layout.gProt 64 address) :
    ¬ Within layout.gStage 4 address :=
  objects_apart (layout.gProt, 64) (layout.gStage, 4) (prot_range layout).2 (stage_range layout).2
    (layout_separate layout).1.2.1 address inside

theorem prot_not_stack (address : Word) (inside : Within layout.gProt 64 address) :
    ¬ Within layout.gMTrapStack 512 address :=
  objects_apart (layout.gProt, 64) (layout.gMTrapStack, 512) (prot_range layout).2
    (stack_range layout).2 (layout_separate layout).1.2.2.1 address inside

theorem prot_not_test (address : Word) (inside : Within layout.gProt 64 address) :
    ¬ Within layout.mainT 4 address :=
  objects_apart (layout.gProt, 64) (layout.mainT, 4) (prot_range layout).2 (test_range layout).2
    (layout_separate layout).1.2.2.2 address inside

theorem mb_not_stage (address : Word) (inside : Within layout.gMb 64 address) :
    ¬ Within layout.gStage 4 address :=
  objects_apart (layout.gMb, 64) (layout.gStage, 4) (mb_range layout).2 (stage_range layout).2
    (layout_separate layout).2.1.1 address inside

theorem mb_not_stack (address : Word) (inside : Within layout.gMb 64 address) :
    ¬ Within layout.gMTrapStack 512 address :=
  objects_apart (layout.gMb, 64) (layout.gMTrapStack, 512) (mb_range layout).2
    (stack_range layout).2 (layout_separate layout).2.1.2.1 address inside

theorem mb_not_test (address : Word) (inside : Within layout.gMb 64 address) :
    ¬ Within layout.mainT 4 address :=
  objects_apart (layout.gMb, 64) (layout.mainT, 4) (mb_range layout).2 (test_range layout).2
    (layout_separate layout).2.1.2.2 address inside

theorem stage_not_stack (address : Word) (inside : Within layout.gStage 4 address) :
    ¬ Within layout.gMTrapStack 512 address :=
  objects_apart (layout.gStage, 4) (layout.gMTrapStack, 512) (stage_range layout).2
    (stack_range layout).2 (layout_separate layout).2.2.1.1 address inside

theorem stage_not_test (address : Word) (inside : Within layout.gStage 4 address) :
    ¬ Within layout.mainT 4 address :=
  objects_apart (layout.gStage, 4) (layout.mainT, 4) (stage_range layout).2 (test_range layout).2
    (layout_separate layout).2.2.1.2 address inside

theorem stack_not_test (address : Word) (inside : Within layout.gMTrapStack 512 address) :
    ¬ Within layout.mainT 4 address :=
  objects_apart (layout.gMTrapStack, 512) (layout.mainT, 4) (stack_range layout).2
    (test_range layout).2 (layout_separate layout).2.2.2 address inside

theorem mailbox_word (index : Nat) (small : index < 16) (address : Word)
    (inside : Within (layout.mailbox index) 4 address) : Within layout.gMb 64 address :=
  within_of_part layout.gMb address (4 * index) 4 64 (by omega) inside

def trapFrame : Word := layout.trapStackTop - 64

theorem trapFrame_eq : trapFrame layout = byteAt layout.gMTrapStack 448 := by
  apply BitVec.eq_of_toNat_eq
  have range := stack_range layout
  unfold sramEnd at range
  have frameSize : (64 : Word).toNat = 64 := rfl
  simp only [trapFrame, Placement.trapStackTop, byteAt, BitVec.toNat_sub, BitVec.toNat_add,
    BitVec.toNat_ofNat, frameSize]
  omega

theorem frame_in_stack (address : Word) (inside : Within (trapFrame layout) 64 address) :
    Within layout.gMTrapStack 512 address := by
  rw [trapFrame_eq] at inside
  exact within_of_part layout.gMTrapStack address 448 64 512 (by omega) inside

/-- `pmp_napot` puts a run of ones directly under the base bits. -/
theorem pmp_napot_toNat (base : Word) (bits : Nat) (low : 3 ≤ bits) (high : bits ≤ 31)
    (aligned : base.toNat % 2 ^ bits = 0) :
    (pmpNapot base (BitVec.ofNat 32 (2 ^ bits))).toNat =
      base.toNat / 2 ^ bits * 2 ^ (bits - 3 + 1) + (2 ^ (bits - 3) - 1) := by
  obtain ⟨ones, rfl⟩ : ∃ ones, bits = ones + 3 := ⟨bits - 3, by omega⟩
  obtain ⟨block, position⟩ : ∃ block, base.toNat = 2 ^ (ones + 3) * block :=
    Nat.dvd_of_mod_eq_zero aligned
  have positive : 0 < 2 ^ (ones + 3) := Nat.two_pow_pos _
  have fits : 2 ^ (ones + 3) < 2 ^ 32 := Nat.pow_lt_pow_right (by decide) (by omega)
  have quarter : base.toNat >>> 2 = block <<< (ones + 1) := by
    rw [Nat.shiftRight_eq_div_pow, Nat.shiftLeft_eq, position, Nat.pow_add 2 ones 3,
      Nat.pow_succ 2 ones, show 2 ^ ones * 2 ^ 3 * block = block * (2 ^ ones * 2) * 2 ^ 2 by ring,
      Nat.mul_div_cancel _ (by decide)]
  have run : ((BitVec.ofNat 32 (2 ^ (ones + 3)) >>> 3) - 1 : Word).toNat = 2 ^ ones - 1 := by
    have eighth : (BitVec.ofNat 32 (2 ^ (ones + 3)) >>> 3 : Word).toNat = 2 ^ ones := by
      rw [BitVec.toNat_ushiftRight, BitVec.toNat_ofNat, Nat.mod_eq_of_lt fits,
        Nat.shiftRight_eq_div_pow, Nat.pow_add, Nat.mul_div_cancel _ (by decide)]
    have atLeast : 1 ≤ 2 ^ ones := Nat.one_le_two_pow
    rw [BitVec.toNat_sub_of_le (by rw [BitVec.le_def, eighth]; exact atLeast), eighth]
    rfl
  have below : 2 ^ ones - 1 < 2 ^ (ones + 1) := by
    have atLeast : 1 ≤ 2 ^ ones := Nat.one_le_two_pow
    rw [Nat.pow_succ]
    omega
  rw [pmpNapot, BitVec.toNat_or, run, BitVec.toNat_ushiftRight, quarter,
    ← Nat.shiftLeft_add_eq_or_of_lt below, Nat.shiftLeft_eq, Nat.add_sub_cancel, position,
    Nat.mul_div_cancel_left _ positive]

theorem pmp_napot_matches (base address : Word) (bits : Nat) (low : 3 ≤ bits) (high : bits ≤ 31)
    (aligned : base.toNat % 2 ^ bits = 0) :
    napotMatches (pmpNapot base (BitVec.ofNat 32 (2 ^ bits))) address = true ↔
      address.toNat / 2 ^ bits = base.toNat / 2 ^ bits := by
  have decoded := napot_matches_run _ address (bits - 3) _ (by omega)
    (pmp_napot_toNat base bits low high aligned)
  rwa [Nat.sub_add_cancel low] at decoded

def protBlock (address : Word) : Bool := decide (Within layout.gProt 64 address)

theorem napot_block (p address : Word) (aligned : p.toNat % 64 = 0) :
    napotMatches (pmpNapot p 64) address = decide (Within p 64 address) := by
  have top := p.isLt
  have decoded := pmp_napot_matches p address 6 (by decide) (by decide) aligned
  rw [Bool.eq_iff_iff, show (64 : Word) = BitVec.ofNat 32 (2 ^ 6) from rfl, decoded,
    decide_eq_true_eq, within_iff_interval _ _ _ (by omega)]
  omega

/-- The PMP registers as `pmp_isolate_secret` leaves them. -/
structure Isolated (pmp : Pmp) : Prop where
  addr0 : pmp.pmpaddr 0 = pmpNapot layout.gProt 64
  addr1 : pmp.pmpaddr 1 = 0xFFFFFFFF
  cfg0 : pmp.pmpcfg 0 = 0x1F18

/-- Entry 0 closes the block at `p` and entry 1 opens the rest, whatever the other registers hold. -/
theorem closing_pair (p : Word) (aligned : p.toNat % 64 = 0) (pmp : Pmp)
    (addr0 : pmp.pmpaddr 0 = pmpNapot p 64) (addr1 : pmp.pmpaddr 1 = 0xFFFFFFFF)
    (cfg0 : pmp.pmpcfg 0 = 0x1F18) :
    DenyThenAllow pmp (fun address => decide (Within p 64 address)) where
  deny address := by
    have cfg : pmp.cfg 0 = 0x18 := by
      rw [Pmp.cfg, show (⟨(0 : Fin 16) / 4, by decide⟩ : Fin 4) = 0 from rfl, cfg0]
      decide
    rw [Pmp.entryMatches, cfg, addr0]
    exact napot_block p address aligned
  allow address := by
    have cfg : pmp.cfg 1 = 0x1F := by
      rw [Pmp.cfg, show (⟨(1 : Fin 16) / 4, by decide⟩ : Fin 4) = 0 from rfl, cfg0]
      decide
    rw [Pmp.entryMatches, cfg, addr1]
    exact napot_matches_all address
  denyCfg access := by
    rw [Pmp.cfg, show (⟨(0 : Fin 16) / 4, by decide⟩ : Fin 4) = 0 from rfl, cfg0]
    cases access <;> decide
  denyUnlocked := by
    rw [Pmp.cfg, show (⟨(0 : Fin 16) / 4, by decide⟩ : Fin 4) = 0 from rfl, cfg0]
    decide
  allowCfg access := by
    rw [Pmp.cfg, show (⟨(1 : Fin 16) / 4, by decide⟩ : Fin 4) = 0 from rfl, cfg0]
    cases access <;> decide

theorem Isolated.pair {layout : Layout} {pmp : Pmp} (isolated : Isolated layout pmp) :
    DenyThenAllow pmp (protBlock layout) :=
  closing_pair layout.gProt layout.aligned pmp isolated.addr0 isolated.addr1 isolated.cfg0

theorem isolate_isolated (machine : Machine) :
    Isolated layout (pmpIsolateSecret layout machine).pmp where
  addr0 := by simp [pmpIsolateSecret]
  addr1 := by simp [pmpIsolateSecret]
  cfg0 := by simp [pmpIsolateSecret, pmpANapot, pmpR, pmpW, pmpX]

def sampleLayout : Layout where
  gProt := 0x20000000
  gMb := 0x20000040
  gStage := 0x20000080
  gMTrapStack := 0x20000100
  mainT := 0x20081FF0
  aligned := by decide
  inSram := by decide
  apart := by decide

def sampleBoard (responds : Word → Bool)
    (sram : ∀ address : Word, sramStart ≤ address.toNat → address.toNat < sramEnd →
      responds address = true) : Platform where
  responds _ := responds
  sramResponds _ := sram
  mtvalOf address := address
  selfTestPc := 0x20001000
  selfTestRegs stored := fun _ => stored
  selfTestStale _ := 0
  signPc _ := 0x20001100
  signRegs regs _ _ _ := regs
  signStale _ _ _ := 0
  entryPc := 0x20001200
  uModeEntry := 0x20001300

def sramBoard : Platform :=
  sampleBoard (fun address => decide (sramStart ≤ address.toNat ∧ address.toNat < sramEnd))
    (fun _ low high => decide_eq_true ⟨low, high⟩)

def flatBoard : Platform := sampleBoard (fun _ => true) (fun _ _ _ => rfl)

def resetMachine : Machine where
  mem _ := 0
  pmp := ⟨fun _ => 0, fun _ => 0, 0⟩
  regs _ := 0
  sp := 0x20082000
  pc := 0
  mscratch := 0
  mepc := 0
  mcause := 0
  mtval := 0
  mpp := .machine
  mode := .machine
  halted := false
  traps := []

end Rp2350Tee.PmpSetup
