import Rp2350Tee.TrapStack

/-!
What the two PMP entries grant. `pmp_napot` and the NAPOT decoding are inverse to
each other, and `pmp_isolate_secret` closes exactly the 64 bytes it is given to
U-mode, wherever they are and whatever the registers held before; the writes of
`PMPCFGM0` that follow only decide whether M-mode is shut out as well.
-/

namespace Rp2350Tee.PmpPermissions

open ByteMemory PmpUnit PmpProgram PmpSetup TrapHandler PmpDrop Runs TrapStack

/-- First address and size of the block that a NAPOT register selects: `t` trailing ones stand
for `2 ^ (t + 3)` bytes, and the base is the register without them, shifted left by two. -/
def napotRange (pmpaddr : Word) : Nat × Nat :=
  let ones := trailingOnes 32 pmpaddr.toNat
  (pmpaddr.toNat / 2 ^ (ones + 1) * 2 ^ (ones + 1) * 4, 2 ^ (ones + 3))

theorem napot_matches_range (pmpaddr address : Word) :
    napotMatches pmpaddr address = true ↔
      (napotRange pmpaddr).1 ≤ address.toNat ∧
        address.toNat < (napotRange pmpaddr).1 + (napotRange pmpaddr).2 := by
  generalize counted : trailingOnes 32 pmpaddr.toNat = ones
  have size : 2 ^ (ones + 1) * 4 = 2 ^ (ones + 3) := by rw [Nat.pow_add 2 ones 3, Nat.pow_succ]; ring
  have positive : 0 < 2 ^ (ones + 3) := Nat.two_pow_pos _
  simp only [napotMatches, napotRange, counted, Nat.mul_assoc, size, beq_iff_eq]
  rw [Nat.div_eq_iff positive]
  omega

/-- `pmp_napot` encodes every naturally aligned block of at least eight bytes so that decoding
gives it back. -/
theorem napot_decodes_encoding (base : Word) (bits : Nat) (low : 3 ≤ bits) (high : bits ≤ 31)
    (aligned : base.toNat % 2 ^ bits = 0) :
    napotRange (pmpNapot base (BitVec.ofNat 32 (2 ^ bits))) = (base.toNat, 2 ^ bits) := by
  have encoded := pmp_napot_toNat base bits low high aligned
  have ones := trailing_ones_run 32 (bits - 3) (base.toNat / 2 ^ bits) (by omega)
  have below : 2 ^ (bits - 3) - 1 < 2 ^ (bits - 3 + 1) := by
    have atLeast : 1 ≤ 2 ^ (bits - 3) := Nat.one_le_two_pow
    rw [Nat.pow_succ]
    omega
  have upper : (base.toNat / 2 ^ bits * 2 ^ (bits - 3 + 1) + (2 ^ (bits - 3) - 1)) /
      2 ^ (bits - 3 + 1) = base.toNat / 2 ^ bits := by
    rw [Nat.mul_comm, Nat.mul_add_div (Nat.two_pow_pos _), Nat.div_eq_of_lt below, add_zero]
  have size : 2 ^ (bits - 3 + 1) * 4 = 2 ^ bits := by
    calc 2 ^ (bits - 3 + 1) * 4 = 2 ^ (bits - 3 + 3) := by rw [Nat.pow_add 2 _ 3, Nat.pow_succ]; ring
      _ = 2 ^ bits := by rw [Nat.sub_add_cancel low]
  have whole : base.toNat / 2 ^ bits * 2 ^ bits = base.toNat :=
    Nat.div_mul_cancel (Nat.dvd_of_mod_eq_zero aligned)
  simp only [napotRange, encoded, ones, upper, Nat.mul_assoc, size, whole, Nat.sub_add_cancel low]

/-- Decoding undoes `pmp_napot`: the block it was given, and exactly its addresses. -/
theorem pmp_napot_inverse (base : Word) (bits : Nat) (low : 3 ≤ bits) (high : bits ≤ 31)
    (aligned : base.toNat % 2 ^ bits = 0) :
    napotRange (pmpNapot base (BitVec.ofNat 32 (2 ^ bits))) = (base.toNat, 2 ^ bits) ∧
      ∀ address, napotMatches (pmpNapot base (BitVec.ofNat 32 (2 ^ bits))) address = true ↔
        base.toNat ≤ address.toNat ∧ address.toNat < base.toNat + 2 ^ bits := by
  have decoded := napot_decodes_encoding base bits low high aligned
  constructor
  · exact decoded
  · intro address
    rw [napot_matches_range, decoded]

/-- The upper half of the address space. -/
theorem pmp_napot_inverse_upper_half :
    napotRange (pmpNapot 0x80000000 (BitVec.ofNat 32 (2 ^ 31))) =
        ((0x80000000 : Word).toNat, 2 ^ 31) ∧
      ∀ address, napotMatches (pmpNapot 0x80000000 (BitVec.ofNat 32 (2 ^ 31))) address = true ↔
        (0x80000000 : Word).toNat ≤ address.toNat ∧
          address.toNat < (0x80000000 : Word).toNat + 2 ^ 31 :=
  pmp_napot_inverse 0x80000000 31 (by decide) (by decide) (by decide)

/-- The CSR writes of `pmp_isolate_secret` for `g_prot` at `p`, on entries that are not locked. -/
def isolatePmp (p : Word) (pmp : Pmp) : Pmp :=
  let pmpaddr := Function.update pmp.pmpaddr 0 (pmpNapot p 64)
  { pmpaddr := Function.update pmpaddr 1 0xFFFFFFFF
    pmpcfg := Function.update pmp.pmpcfg 0
      (((pmpANapot ||| pmpR ||| pmpW ||| pmpX) <<< 8) ||| pmpANapot)
    pmpcfgm0 := 0 }

theorem isolate_secret_pmp (layout : Layout) (machine : Machine) :
    (pmpIsolateSecret layout machine).pmp = isolatePmp layout.gProt machine.pmp := rfl

/-- The PMP registers in the states that follow: `main` writes 1 to `PMPCFGM0` and the access
fault handler writes 0, in any order. -/
inductive Reached (p : Word) (prior : Pmp) : Pmp → Prop
  | isolated : Reached p prior (isolatePmp p prior)
  | restricted {pmp : Pmp} (reached : Reached p prior pmp) : Reached p prior { pmp with pmpcfgm0 := 1 }
  | recovered {pmp : Pmp} (reached : Reached p prior pmp) : Reached p prior { pmp with pmpcfgm0 := 0 }

theorem restricted_reached (layout : Layout) (prior : Pmp) (stored : Word) (machine : Machine)
    (reached : Reached layout.gProt prior machine.pmp) :
    Reached layout.gProt prior (restricted layout stored machine).pmp :=
  Reached.restricted reached

theorem access_fault_reached (layout : Layout) (prior : Pmp) (machine : Machine)
    (reached : Reached layout.gProt prior machine.pmp) :
    Reached layout.gProt prior (accessFault layout machine).pmp := by
  unfold accessFault
  split
  · exact Reached.recovered reached
  · exact reached

theorem reached_registers (p : Word) (prior pmp : Pmp) (reached : Reached p prior pmp) :
    pmp.pmpaddr = (isolatePmp p prior).pmpaddr ∧ pmp.pmpcfg = (isolatePmp p prior).pmpcfg := by
  induction reached with
  | isolated => exact ⟨rfl, rfl⟩
  | restricted _ ih => exact ih
  | recovered _ ih => exact ih

theorem reached_pair (p : Word) (aligned : p.toNat % 64 = 0) (prior pmp : Pmp)
    (reached : Reached p prior pmp) :
    DenyThenAllow pmp (fun address => decide (Within p 64 address)) := by
  obtain ⟨addresses, configs⟩ := reached_registers p prior pmp reached
  apply closing_pair p aligned pmp
  · rw [addresses]
    simp [isolatePmp]
  · rw [addresses]
    simp [isolatePmp]
  · rw [configs]
    simp [isolatePmp, pmpANapot, pmpR, pmpW, pmpX]

def Covers (p base : Word) (count : Nat) : Prop :=
  ∃ index < count, p.toNat ≤ (byteAt base index).toNat ∧ (byteAt base index).toNat < p.toNat + 64

theorem touches_iff_covers (p base : Word) (aligned : p.toNat % 64 = 0) (count : Nat) :
    touches (fun address => decide (Within p 64 address)) base count = true ↔ Covers p base count := by
  have top := p.isLt
  rw [touches_iff, Covers]
  simp only [decide_eq_true_eq, within_iff_interval p _ 64 (by omega)]

theorem covers_whole (p base : Word) (aligned : p.toNat % 64 = 0) (width : Width)
    (natural : base.toNat % width.bytes = 0) (covered : Covers p base width.bytes) (index : Nat)
    (below : index < width.bytes) : Within p 64 (byteAt base index) := by
  have top := p.isLt
  have baseTop := base.isLt
  obtain ⟨touched, small, inside⟩ := covered
  -- an aligned access does not run past the top of the address space
  have place (position : Nat) (fits : position < width.bytes) :
      (byteAt base position).toNat = base.toNat + position := by
    apply byteAt_toNat
    cases width <;> simp only [Width.bytes] at natural fits <;> omega
  rw [place touched small] at inside
  rw [within_iff_interval p _ 64 (by omega), place index below]
  cases width <;> simp only [Width.bytes] at natural below small <;> omega

section Grants

variable {p : Word} {pmp : Pmp}

theorem user_grants_iff (aligned : p.toNat % 64 = 0)
    (pair : DenyThenAllow pmp (fun address => decide (Within p 64 address))) (access : Access)
    (width : Width) (base : Word) :
    pmp.grants .user access base width.bytes = true ↔ ¬ Covers p base width.bytes := by
  rw [pair.user_grants access base _ (width_positive width), Bool.not_eq_true',
    ← touches_iff_covers p base aligned, Bool.not_eq_true]

theorem machine_grants_all (aligned : p.toNat % 64 = 0)
    (pair : DenyThenAllow pmp (fun address => decide (Within p 64 address))) (lifted : pmp.pmpcfgm0 = 0)
    (access : Access) (width : Width) (base : Word) (natural : base.toNat % width.bytes = 0) :
    pmp.grants .machine access base width.bytes = true := by
  apply pair.machine_grants access base _ (width_positive width)
  · rw [lifted]
    rfl
  · intro touched index below
    have covered := (touches_iff_covers p base aligned _).mp touched
    exact decide_eq_true (covers_whole p base aligned width natural covered index below)

theorem machine_grants_iff (aligned : p.toNat % 64 = 0)
    (pair : DenyThenAllow pmp (fun address => decide (Within p 64 address))) (applied : pmp.pmpcfgm0 = 1)
    (access : Access) (width : Width) (base : Word) :
    pmp.grants .machine access base width.bytes = true ↔ ¬ Covers p base width.bytes := by
  have bit : pmp.pmpcfgm0.getLsbD 0 = true := by
    rw [applied]
    rfl
  rw [pair.machine_restricted access base _ (width_positive width) bit, Bool.not_eq_true',
    ← touches_iff_covers p base aligned, Bool.not_eq_true]

end Grants

/-- U-mode may do everything but touch the block, in every state that follows; M-mode may do
everything while `PMPCFGM0` is 0, and no more than U-mode while it is 1. -/
theorem isolate_secret_permissions (p : Word) (aligned : p.toNat % 64 = 0) (prior : Pmp)
    (access : Access) (width : Width) (base : Word) (natural : base.toNat % width.bytes = 0) :
    let isolated := isolatePmp p prior
    ((isolated.grants .user access base width.bytes = true ↔ ¬ Covers p base width.bytes) ∧
      isolated.grants .machine access base width.bytes = true) ∧
    ∀ pmp, Reached p prior pmp →
      pmp.grants .user access base width.bytes = isolated.grants .user access base width.bytes ∧
      (pmp.pmpcfgm0 = 1 →
        (pmp.grants .machine access base width.bytes = true ↔ ¬ Covers p base width.bytes)) ∧
      (pmp.pmpcfgm0 = 0 → pmp.grants .machine access base width.bytes = true) := by
  have start := reached_pair p aligned prior _ Reached.isolated
  refine ⟨⟨user_grants_iff aligned start access width base,
    machine_grants_all aligned start rfl access width base natural⟩, ?_⟩
  intro pmp reached
  have pair := reached_pair p aligned prior pmp reached
  refine ⟨?_, ?_, ?_⟩
  · rw [Bool.eq_iff_iff, user_grants_iff aligned pair, user_grants_iff aligned start]
  · intro applied
    exact machine_grants_iff aligned pair applied access width base
  · intro lifted
    exact machine_grants_all aligned pair lifted access width base natural

/-- A block at the very top of the address space, probed by its last word. -/
theorem isolate_secret_permissions_top :
    let isolated := isolatePmp 0xFFFFFFC0 resetMachine.pmp
    ((isolated.grants .user .write 0xFFFFFFFC Width.word.bytes = true ↔
          ¬ Covers 0xFFFFFFC0 0xFFFFFFFC Width.word.bytes) ∧
      isolated.grants .machine .write 0xFFFFFFFC Width.word.bytes = true) ∧
    ∀ pmp, Reached 0xFFFFFFC0 resetMachine.pmp pmp →
      pmp.grants .user .write 0xFFFFFFFC Width.word.bytes =
        isolated.grants .user .write 0xFFFFFFFC Width.word.bytes ∧
      (pmp.pmpcfgm0 = 1 → (pmp.grants .machine .write 0xFFFFFFFC Width.word.bytes = true ↔
        ¬ Covers 0xFFFFFFC0 0xFFFFFFFC Width.word.bytes)) ∧
      (pmp.pmpcfgm0 = 0 → pmp.grants .machine .write 0xFFFFFFFC Width.word.bytes = true) :=
  isolate_secret_permissions 0xFFFFFFC0 (by decide) resetMachine.pmp .write .word 0xFFFFFFFC
    (by decide)

theorem run_permissions (layout : Layout) (platform : Platform) (stored : Word)
    (key : Fin 16 → Byte) (machine : Machine) (steps : List UStep) (access : Access) (width : Width)
    (base : Word) (natural : base.toNat % width.bytes = 0) :
    let reached := finish (userStep layout platform) (main layout platform stored key machine) steps
    reached.halted = false →
      (reached.pmp.grants .user access base width.bytes = true ↔
        ¬ Covers layout.gProt base width.bytes) ∧
      reached.pmp.grants .machine access base width.bytes = true := by
  intro reached running
  have ready := user_run_ready layout platform _ steps
    (drop_runs_ready layout platform stored key machine) running
  exact ⟨user_grants_iff layout.aligned ready.isolated.pair access width base,
    machine_grants_all layout.aligned ready.isolated.pair ready.lifted access width base natural⟩

end Rp2350Tee.PmpPermissions
