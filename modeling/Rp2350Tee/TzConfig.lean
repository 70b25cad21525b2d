import Mathlib.Algebra.Order.Ring.Nat
import Mathlib.Data.Fintype.Basic
import Mathlib.Data.List.FinRange
import Mathlib.Logic.Function.Basic
import Mathlib.Tactic.FinCases

/-!
`secure/tz_config.c` with the constants of `include/tz_layout.h` and the memory
regions of `secure/linker_s.ld`: the SAU partition of the address map and the
DMA-MPU that has to mirror it. Both units compare whole 32-byte granules and
take inclusive limits. The PPB is exempt from the SAU by architecture; the
attribution below is the answer of the SAU itself.
-/

namespace Rp2350Tee.TzConfig

abbrev Word := BitVec 32

/-! `tz_layout.h` -/

def sFlashStart : Word := 0x10000000
def sFlashSize : Word := 0x00100000
def veneerSize : Word := 0x00001000
def veneerStart : Word := sFlashStart + sFlashSize - veneerSize
def veneerLimit : Word := sFlashStart + sFlashSize - 1
def nsFlashStart : Word := 0x10100000
def nsFlashSize : Word := 0x00100000
def nsFlashLimit : Word := nsFlashStart + nsFlashSize - 1
def sRamStart : Word := 0x20000000
def nsRamStart : Word := 0x20040000
def nsRamSize : Word := 0x00040000
def nsRamLimit : Word := nsRamStart + nsRamSize - 1
def nsMailboxAddr : Word := 0x2007C000

/-- From the SDK's `addressmap.h`. -/
def ppbBase : Word := 0xe0000000

/-- Numerals for the eight regions, of this unit and of the DMA-MPU. -/
instance eightRegions : NeZero 8 := ⟨by decide⟩

structure SauRegion where
  rbar : Word
  rlar : Word

structure Sau where
  ctrl : Word
  rnr : Word
  region : Fin 8 → SauRegion

def sauRlarEnableMsk : Word := 1 <<< 0
def sauRlarNscMsk : Word := 1 <<< 1
def sauRbarBaddrMsk : Word := ~~~ 0x1F
def sauRlarLaddrMsk : Word := ~~~ 0x1F

def SauRegion.enabled (region : SauRegion) : Bool := region.rlar &&& sauRlarEnableMsk != 0

def SauRegion.nsc (region : SauRegion) : Bool := region.rlar &&& sauRlarNscMsk != 0

def SauRegion.covers (region : SauRegion) (address : Word) : Bool :=
  region.enabled && decide (region.rbar ≤ address) && decide (address ≤ region.rlar ||| 0x1F)

/-- A write to `RBAR` or `RLAR`: it reaches the region that `RNR` selects, if there is one. -/
def Sau.writeSelected (sau : Sau) (change : SauRegion → SauRegion) : Sau :=
  if inside : sau.rnr.toNat < 8 then
    let index : Fin 8 := ⟨sau.rnr.toNat, inside⟩
    { sau with region := Function.update sau.region index (change (sau.region index)) }
  else sau

def Sau.writeRbar (sau : Sau) (value : Word) : Sau :=
  sau.writeSelected fun region => { region with rbar := value }

def Sau.writeRlar (sau : Sau) (value : Word) : Sau :=
  sau.writeSelected fun region => { region with rlar := value }

inductive Attribution where
  | secure | nonSecure | nonSecureCallable
  deriving DecidableEq

def Sau.covering (sau : Sau) (address : Word) : List (Fin 8) :=
  (List.finRange 8).filter fun index => (sau.region index).covers address

/-- An address in no enabled region, or in more than one, is Secure. -/
def Sau.attribution (sau : Sau) (address : Word) : Attribution :=
  if sau.ctrl &&& 1 = 0 then
    if sau.ctrl &&& 2 = 0 then .secure else .nonSecure
  else match sau.covering address with
    | [index] => if (sau.region index).nsc then .nonSecureCallable else .nonSecure
    | _ => .secure

structure DmaMpuRegion where
  bar : Word
  lar : Word

structure DmaMpu where
  mpuCtrl : Word
  mpuRegion : Fin 8 → DmaMpuRegion

def dmaMpuBarAddrMsk : Word := ~~~ 0x1F
def dmaMpuLarAddrMsk : Word := ~~~ 0x1F
def dmaMpuLarPMsk : Word := 1 <<< 1
def dmaMpuLarEnMsk : Word := 1 <<< 0

/-- The Secure bit, which `tz_config.c` leaves clear in every region it enables. -/
def dmaMpuSMsk : Word := 1 <<< 2

def DmaMpuRegion.covers (region : DmaMpuRegion) (address : Word) : Bool :=
  region.lar &&& dmaMpuLarEnMsk != 0 && decide (region.bar ≤ address) &&
    decide (address ≤ region.lar ||| 0x1F)

/-- Whether a Non-secure DMA channel may access an address: some region that covers it
is not Secure, or no region does and the default of `MPU_CTRL` is not Secure. -/
def DmaMpu.nonSecureAccess (dma : DmaMpu) (address : Word) : Bool :=
  if (List.finRange 8).any (fun index => (dma.mpuRegion index).covers address) then
    (List.finRange 8).any fun index =>
      (dma.mpuRegion index).covers address && (dma.mpuRegion index).lar &&& dmaMpuSMsk == 0
  else dma.mpuCtrl &&& dmaMpuSMsk == 0

structure Soc where
  sau : Sau
  aircr : Word
  dma : DmaMpu

/-- `SCB_AIRCR_BFHFNMINS_Msk` of the CMSIS header. -/
def scbAircrBfhfnminsMsk : Word := 1 <<< 13

def Soc.sauRegion (soc : Soc) (number base limit : Word) : Soc :=
  { soc with sau := (({ soc.sau with rnr := number } : Sau).writeRbar base).writeRlar limit }

def tzSauConfig (soc : Soc) : Soc :=
  -- Region 0: NSC veneer region (top of Secure flash).
  let soc := soc.sauRegion 0 (veneerStart &&& sauRbarBaddrMsk)
    ((veneerLimit &&& sauRlarLaddrMsk) ||| sauRlarEnableMsk ||| sauRlarNscMsk)
  -- Region 1: Non-Secure flash partition.
  let soc := soc.sauRegion 1 (nsFlashStart &&& sauRbarBaddrMsk)
    ((nsFlashLimit &&& sauRlarLaddrMsk) ||| sauRlarEnableMsk)
  -- Region 2: Non-Secure RAM.
  let soc := soc.sauRegion 2 (nsRamStart &&& sauRbarBaddrMsk)
    ((nsRamLimit &&& sauRlarLaddrMsk) ||| sauRlarEnableMsk)
  -- Region 3: peripherals and the rest of the map up to the PPB.
  let soc := soc.sauRegion 3 (0x40000000 &&& sauRbarBaddrMsk)
    (((ppbBase - 1) &&& sauRlarLaddrMsk) ||| sauRlarEnableMsk)
  { soc with
    sau := { soc.sau with ctrl := 1 }
    aircr := (0x05FA <<< 16) ||| (soc.aircr &&& 0x0000FFFF) ||| scbAircrBfhfnminsMsk }

def tzDmaMpuConfig (soc : Soc) : Soc :=
  let region : Fin 8 → DmaMpuRegion := soc.dma.mpuRegion
  -- region 0: NSC veneer
  let region := Function.update region 0
    ⟨veneerStart &&& dmaMpuBarAddrMsk,
      (veneerLimit &&& dmaMpuLarAddrMsk) ||| dmaMpuLarPMsk ||| dmaMpuLarEnMsk⟩
  -- region 1: NS flash partition
  let region := Function.update region 1
    ⟨nsFlashStart &&& dmaMpuBarAddrMsk,
      (nsFlashLimit &&& dmaMpuLarAddrMsk) ||| dmaMpuLarPMsk ||| dmaMpuLarEnMsk⟩
  -- region 2: NS RAM and, up to the PPB, everything above it
  let region := Function.update region 2
    ⟨nsRamStart &&& dmaMpuBarAddrMsk,
      ((ppbBase - 1) &&& dmaMpuLarAddrMsk) ||| dmaMpuLarPMsk ||| dmaMpuLarEnMsk⟩
  { soc with dma :=
    { mpuCtrl := (1 <<< 0) ||| (1 <<< 1) ||| (1 <<< 2)
      mpuRegion := ([3, 4, 5, 6, 7] : List (Fin 8)).foldl
        (fun region index => Function.update region index ⟨0, 0⟩) region } }

def tzIsolationConfig (soc : Soc) : Soc := tzDmaMpuConfig (tzSauConfig soc)

def isVeneer (address : Word) : Bool :=
  decide (veneerStart ≤ address) && decide (address ≤ veneerLimit)

def isNonSecure (address : Word) : Bool :=
  (decide (nsFlashStart ≤ address) && decide (address ≤ nsFlashLimit)) ||
  (decide (nsRamStart ≤ address) && decide (address ≤ nsRamLimit)) ||
  (decide (0x40000000 ≤ address) && decide (address ≤ ppbBase - 1))

def partition (address : Word) : Attribution :=
  if isVeneer address then .nonSecureCallable
  else if isNonSecure address then .nonSecure
  else .secure

/-- How many of the regions that `tzSauConfig` never writes cover the address. -/
def Sau.staleCount (sau : Sau) (address : Word) : Nat :=
  ([4, 5, 6, 7] : List (Fin 8)).countP fun index => (sau.region index).covers address

def programmed (address : Word) : List (Fin 8) :=
  if isVeneer address then [0]
  else if decide (nsFlashStart ≤ address) && decide (address ≤ nsFlashLimit) then [1]
  else if decide (nsRamStart ≤ address) && decide (address ≤ nsRamLimit) then [2]
  else if decide (0x40000000 ≤ address) && decide (address ≤ ppbBase - 1) then [3]
  else []

theorem sau_config_ctrl (soc : Soc) : (tzSauConfig soc).sau.ctrl = 1 := rfl

theorem sau_config_region (soc : Soc) :
    (tzSauConfig soc).sau.region = fun index => match index with
      | 0 => ⟨0x100FF000, 0x100FFFE3⟩
      | 1 => ⟨0x10100000, 0x101FFFE1⟩
      | 2 => ⟨0x20040000, 0x2007FFE1⟩
      | 3 => ⟨0x40000000, 0xDFFFFFE1⟩
      | index => soc.sau.region index := by
  funext index
  fin_cases index <;> rfl

theorem sau_config_covering (soc : Soc) (address : Word) :
    (tzSauConfig soc).sau.covering address =
      programmed address ++
        ([4, 5, 6, 7] : List (Fin 8)).filter fun index => (soc.sau.region index).covers address := by
  have indices : List.finRange 8 = ([0, 1, 2, 3] : List (Fin 8)) ++ [4, 5, 6, 7] := by decide
  rw [Sau.covering, sau_config_region, indices, List.filter_append]
  congr 1
  have veneer : (⟨0x100FF000, 0x100FFFE3⟩ : SauRegion).covers address = isVeneer address := rfl
  have flash : (⟨0x10100000, 0x101FFFE1⟩ : SauRegion).covers address =
      (decide (nsFlashStart ≤ address) && decide (address ≤ nsFlashLimit)) := rfl
  have ram : (⟨0x20040000, 0x2007FFE1⟩ : SauRegion).covers address =
      (decide (nsRamStart ≤ address) && decide (address ≤ nsRamLimit)) := rfl
  have rest : (⟨0x40000000, 0xDFFFFFE1⟩ : SauRegion).covers address =
      (decide (0x40000000 ≤ address) && decide (address ≤ ppbBase - 1)) := rfl
  simp only [List.filter_cons, List.filter_nil, veneer, flash, ram, rest, programmed]
  simp only [isVeneer, Bool.and_eq_true, decide_eq_true_eq, veneerStart, veneerLimit, nsFlashStart,
    nsFlashLimit, nsRamStart, nsRamLimit, ppbBase, sFlashStart, sFlashSize, veneerSize,
    nsFlashSize, nsRamSize, BitVec.le_def]
  split_ifs <;> simp_all <;> omega

/-- An address has at most one programmed region, and that region says what the
partition says. -/
theorem programmed_cases (soc : Soc) (address : Word) :
    (programmed address = [] ∧ partition address = .secure) ∨
      ∃ index, programmed address = [index] ∧ partition address ≠ .secure ∧
        partition address = if ((tzSauConfig soc).sau.region index).nsc then
          .nonSecureCallable else .nonSecure := by
  have callable : ((tzSauConfig soc).sau.region 0).nsc = true := by
    rw [sau_config_region]
    change (⟨0x100FF000, 0x100FFFE3⟩ : SauRegion).nsc = true
    decide
  have plain (index : Fin 8) (one : index = 1 ∨ index = 2 ∨ index = 3) :
      ((tzSauConfig soc).sau.region index).nsc = false := by
    rw [sau_config_region]
    rcases one with rfl | rfl | rfl
    · change (⟨0x10100000, 0x101FFFE1⟩ : SauRegion).nsc = false; decide
    · change (⟨0x20040000, 0x2007FFE1⟩ : SauRegion).nsc = false; decide
    · change (⟨0x40000000, 0xDFFFFFE1⟩ : SauRegion).nsc = false; decide
  unfold programmed partition isNonSecure
  by_cases veneer : isVeneer address = true
  · exact Or.inr ⟨0, by simp [veneer, callable]⟩
  by_cases flash : (decide (nsFlashStart ≤ address) && decide (address ≤ nsFlashLimit)) = true
  · exact Or.inr ⟨1, by simp only [veneer, flash, plain 1 (by simp)]; simp⟩
  by_cases ram : (decide (nsRamStart ≤ address) && decide (address ≤ nsRamLimit)) = true
  · exact Or.inr ⟨2, by simp only [veneer, flash, ram, plain 2 (by simp)]; simp⟩
  by_cases rest : (decide (0x40000000 ≤ address) && decide (address ≤ ppbBase - 1)) = true
  · exact Or.inr ⟨3, by simp only [veneer, flash, ram, rest, plain 3 (by simp)]; simp⟩
  · exact Or.inl (by simp only [veneer, flash, ram, rest]; simp)

theorem sau_config_attribution (soc : Soc) (address : Word) :
    ∃ stale : List (Fin 8), stale.length = soc.sau.staleCount address ∧
      (tzSauConfig soc).sau.attribution address = match programmed address ++ stale with
        | [index] => if ((tzSauConfig soc).sau.region index).nsc then
            .nonSecureCallable else .nonSecure
        | _ => .secure := by
  refine ⟨_, List.countP_eq_length_filter.symm, ?_⟩
  rw [Sau.attribution, if_neg (by rw [sau_config_ctrl]; decide), sau_config_covering]

theorem sau_config_unused (soc : Soc) (address : Word)
    (none : soc.sau.staleCount address = 0) :
    (tzSauConfig soc).sau.attribution address = partition address := by
  obtain ⟨stale, count, answer⟩ := sau_config_attribution soc address
  obtain rfl := List.length_eq_zero_iff.mp (count.trans none)
  rw [answer, List.append_nil]
  rcases programmed_cases soc address with ⟨outside, secure⟩ | ⟨index, one, _, same⟩
  · rw [outside, secure]
  · rw [one, same]

theorem unused_stale (soc : Soc)
    (unused : ∀ index : Fin 8, 4 ≤ index → (soc.sau.region index).enabled = false)
    (address : Word) : soc.sau.staleCount address = 0 := by
  have uncovered (index : Fin 8) (upper : 4 ≤ index) :
      (soc.sau.region index).covers address = false := by
    simp [SauRegion.covers, unused index upper]
  simp [Sau.staleCount, uncovered 4 (by decide), uncovered 5 (by decide),
    uncovered 6 (by decide), uncovered 7 (by decide)]

theorem sau_config_overlap (soc : Soc) (address : Word) (given : partition address ≠ .secure)
    (covered : soc.sau.staleCount address ≠ 0) :
    (tzSauConfig soc).sau.attribution address = .secure := by
  obtain ⟨stale, count, answer⟩ := sau_config_attribution soc address
  rcases programmed_cases soc address with ⟨_, secure⟩ | ⟨index, one, _, _⟩
  · exact absurd secure given
  · rw [answer, one]
    match stale with
    | [] => exact absurd count.symm covered
    | _ :: _ => rfl

/-- One stale region alone opens a Secure address, two or more close it again. -/
theorem sau_config_outside (soc : Soc) (address : Word) (secure : partition address = .secure)
    (covered : soc.sau.staleCount address ≠ 0) :
    (tzSauConfig soc).sau.attribution address = .secure ↔ 2 ≤ soc.sau.staleCount address := by
  obtain ⟨stale, count, answer⟩ := sau_config_attribution soc address
  rcases programmed_cases soc address with ⟨outside, _⟩ | ⟨_, _, given, _⟩
  · rw [answer, outside, ← count]
    match stale with
    | [] => exact absurd count.symm covered
    | [_] => simp only [List.nil_append, List.length_singleton]; split <;> decide
    | _ :: _ :: _ => simp
  · exact absurd secure given

/-- After the configuration the SAU answers with the partition of the layout exactly at
the addresses that no stale region covers, and at Secure ones that two or more cover. -/
theorem sau_partition_exact (soc : Soc) (address : Word) :
    (tzSauConfig soc).sau.attribution address = partition address ↔
      soc.sau.staleCount address = 0 ∨
        (partition address = .secure ∧ 2 ≤ soc.sau.staleCount address) := by
  by_cases none : soc.sau.staleCount address = 0
  · simp [sau_config_unused soc address none, none]
  by_cases secure : partition address = .secure
  · rw [secure, sau_config_outside soc address secure none]
    simp [none]
  · rw [sau_config_overlap soc address secure none]
    simp [none, secure, Ne.symm secure]

def staleSoc : Soc where
  sau := ⟨0, 0, Function.update (fun _ => ⟨0, 0⟩) 7 ⟨0x20000000, 0x20000001⟩⟩
  aircr := 0
  dma := ⟨0, fun _ => ⟨0, 0⟩⟩

theorem stale_region_opens_secure_ram :
    ¬ ∀ (soc : Soc) (address : Word), ¬ (0xE0000000 ≤ address ∧ address ≤ 0xE00FFFFF) →
      (tzSauConfig soc).sau.attribution address = partition address := by
  intro always
  have opened := always staleSoc 0x20000000 (by decide)
  revert opened
  decide

/-- The memory regions of `linker_s.ld` that hold Secure code, data and stacks. -/
def secureMemory (address : Word) : Prop :=
  (0x10000000 ≤ address.toNat ∧ address.toNat < 0x10000000 + 0x000FF000) ∨
  (0x20000000 ≤ address.toNat ∧ address.toNat < 0x20000000 + 0x00040000) ∨
  (0x20080000 ≤ address.toNat ∧ address.toNat < 0x20080000 + 0x1000) ∨
  (0x20081000 ≤ address.toNat ∧ address.toNat < 0x20081000 + 0x1000)

/-- At this address the DMA view is the SAU's view, and it is closed to Secure memory. -/
def MirrorsAt (soc : Soc) (address : Word) : Prop :=
  (soc.dma.nonSecureAccess address = true ↔
    soc.sau.attribution address = .nonSecure ∨
      soc.sau.attribution address = .nonSecureCallable) ∧
  (secureMemory address → soc.dma.nonSecureAccess address = false)

theorem dma_config_region (soc : Soc) :
    (tzDmaMpuConfig soc).dma.mpuRegion = fun index => match index with
      | 0 => ⟨0x100FF000, 0x100FFFE3⟩
      | 1 => ⟨0x10100000, 0x101FFFE3⟩
      | 2 => ⟨0x20040000, 0xDFFFFFE3⟩
      | _ => ⟨0, 0⟩ := by
  funext index
  fin_cases index <;> rfl

theorem dma_config_access (soc : Soc) (address : Word) :
    (tzDmaMpuConfig soc).dma.nonSecureAccess address = true ↔
      (0x100FF000 ≤ address.toNat ∧ address.toNat ≤ 0x101FFFFF) ∨
        (0x20040000 ≤ address.toNat ∧ address.toNat ≤ 0xDFFFFFFF) := by
  have indices : List.finRange 8 = ([0, 1, 2, 3, 4, 5, 6, 7] : List (Fin 8)) := by decide
  have veneer : (⟨0x100FF000, 0x100FFFE3⟩ : DmaMpuRegion).covers address =
      (decide (0x100FF000 ≤ address) && decide (address ≤ 0x100FFFFF)) := rfl
  have flash : (⟨0x10100000, 0x101FFFE3⟩ : DmaMpuRegion).covers address =
      (decide (0x10100000 ≤ address) && decide (address ≤ 0x101FFFFF)) := rfl
  have above : (⟨0x20040000, 0xDFFFFFE3⟩ : DmaMpuRegion).covers address =
      (decide (0x20040000 ≤ address) && decide (address ≤ 0xDFFFFFFF)) := rfl
  have disabled : (⟨0, 0⟩ : DmaMpuRegion).covers address = false := rfl
  have notSecure (lar : Word) (clear : lar &&& dmaMpuSMsk = 0) :
      (lar &&& dmaMpuSMsk == 0) = true := by simpa using clear
  have default : (tzDmaMpuConfig soc).dma.mpuCtrl = 7 := rfl
  rw [DmaMpu.nonSecureAccess, dma_config_region, indices, default,
    show ((7 : Word) &&& dmaMpuSMsk == 0) = false by decide]
  simp only [List.any_cons, List.any_nil, veneer, flash, above, disabled, Bool.false_and,
    Bool.or_false, notSecure 0x100FFFE3 (by decide), notSecure 0x101FFFE3 (by decide),
    notSecure 0xDFFFFFE3 (by decide), Bool.and_true, BitVec.le_def]
  split_ifs with covered <;> simp at covered ⊢ <;> omega

theorem partition_open (address : Word) :
    (partition address = .nonSecure ∨ partition address = .nonSecureCallable) ↔
      (0x100FF000 ≤ address.toNat ∧ address.toNat ≤ 0x101FFFFF) ∨
        (0x20040000 ≤ address.toNat ∧ address.toNat ≤ 0x2007FFFF) ∨
        (0x40000000 ≤ address.toNat ∧ address.toNat ≤ 0xDFFFFFFF) := by
  have veneer : isVeneer address = true ↔
      0x100FF000 ≤ address.toNat ∧ address.toNat ≤ 0x100FFFFF := by
    simp [isVeneer, veneerStart, veneerLimit, sFlashStart, sFlashSize, veneerSize, BitVec.le_def]
  have given : isNonSecure address = true ↔
      (0x10100000 ≤ address.toNat ∧ address.toNat ≤ 0x101FFFFF) ∨
        (0x20040000 ≤ address.toNat ∧ address.toNat ≤ 0x2007FFFF) ∨
        (0x40000000 ≤ address.toNat ∧ address.toNat ≤ 0xDFFFFFFF) := by
    simp [isNonSecure, nsFlashStart, nsFlashLimit, nsFlashSize, nsRamStart, nsRamLimit, nsRamSize,
      ppbBase, BitVec.le_def, or_assoc]
  unfold partition
  split_ifs with first second
  · rw [veneer] at first
    simp only [or_true, true_iff]
    omega
  · rw [given] at second
    simp only [or_false, true_iff]
    omega
  · rw [veneer] at first
    rw [given] at second
    simp only [or_false, false_iff]
    omega

/-- Below the PPB the DMA view mirrors the SAU everywhere except in the gap between
Non-Secure RAM and the peripherals, where the Secure stacks are. -/
theorem dma_mirrors_sau_exact (soc : Soc)
    (unused : ∀ index : Fin 8, 4 ≤ index → (soc.sau.region index).enabled = false)
    (address : Word) (below : address < ppbBase) :
    MirrorsAt (tzIsolationConfig soc) address ↔
      ¬ (0x20080000 ≤ address.toNat ∧ address.toNat < 0x40000000) := by
  have view := partition_open address
  rw [← sau_config_unused soc address (unused_stale soc unused address)] at view
  have limit : address.toNat < 0xe0000000 := below
  have dma := dma_config_access (tzSauConfig soc) address
  have sau : (tzIsolationConfig soc).sau = (tzSauConfig soc).sau := rfl
  rw [MirrorsAt, sau, view, tzIsolationConfig, ← Bool.not_eq_true, dma, secureMemory]
  omega

def resetSoc : Soc where
  sau := ⟨0, 0, fun _ => ⟨0, 0⟩⟩
  aircr := 0
  dma := ⟨0, fun _ => ⟨0, 0⟩⟩

theorem reset_unused (index : Fin 8) (_ : 4 ≤ index) :
    (resetSoc.sau.region index).enabled = false := by
  change (⟨0, 0⟩ : SauRegion).enabled = false
  decide

theorem dma_mirrors_sau_at_ns_ram :
    MirrorsAt (tzIsolationConfig resetSoc) 0x20040000 ↔
      ¬ (0x20080000 ≤ (0x20040000 : Word).toNat ∧ (0x20040000 : Word).toNat < 0x40000000) :=
  dma_mirrors_sau_exact resetSoc reset_unused 0x20040000 (by decide)

theorem dma_reaches_secure_stack :
    ¬ ∀ soc : Soc, (∀ index : Fin 8, 4 ≤ index → (soc.sau.region index).enabled = false) →
      ∀ address : Word, address < ppbBase → MirrorsAt (tzIsolationConfig soc) address := by
  intro always
  have closed := (always resetSoc reset_unused 0x20081000 (by decide)).2
    (by unfold secureMemory; decide)
  have reached := (dma_config_access (tzSauConfig resetSoc) 0x20081000).mpr (by decide)
  exact Bool.noConfusion (reached.symm.trans closed)

end Rp2350Tee.TzConfig
