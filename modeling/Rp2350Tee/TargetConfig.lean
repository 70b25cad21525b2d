import Rp2350Tee.BusFilter
import Rp2350Tee.RegionTable

/-!
`reference/target_cfg.c`: the SAU, the bus filters and the DMA as the TF-M port sets them
up for its Secure and Non-Secure images. The offsets of the ACCESSCTRL registers are
those of a header of the port and stay names here, as `memory_regions` stays a parameter.
-/

namespace Rp2350Tee.TargetConfig

open TzConfig BusFilter RegionTable

/-- `access_ctrl_reg_offset`, as far as this file names it. -/
inductive AccessCtrlRegOffset where
  | acRom | acXipMain
  | acSram0 | acSram1 | acSram2 | acSram3 | acSram4 | acSram5 | acSram6 | acSram7 | acSram8
  | acSram9 | acDma | acUsbctrl | acPio0 | acPio1 | acPio2 | acCoresightTrace
  | acCoresightPeriph | acSysinfo | acResets | acIoBank0 | acIoBank1 | acPadsBank0
  | acPadsQspi | acBusctrl | acAdc0 | acHstx | acI2c0 | acI2c1 | acPwm | acSpi0 | acSpi1
  | acTimer0 | acTimer1 | acUart0 | acUart1 | acOtp | acTbman | acPowman | acTrng | acSha256
  | acSyscfg | acClocksBankDefault | acXosc | acRosc | acPllSys | acPllUsb | acTicks
  | acWatchdog | acRsm | acXipCtrl | acXipQmi | acXipAux
  | acDoNotConfigure
  deriving DecidableEq

open AccessCtrlRegOffset

abbrev Filter := AccessCtrl AccessCtrlRegOffset

def accessctrlNsPriv : Word :=
  accessctrlDbg ||| accessctrlDma ||| accessctrlCore1 ||| accessctrlCore0 ||| accessctrlSp |||
    accessctrlSu ||| accessctrlNsp

def accessctrlSUnprivC0 : Word :=
  accessctrlDbg ||| accessctrlCore0 ||| accessctrlSp ||| accessctrlSu

/-- `ACCESSCTRL_S_UNPRIV_C0_C1`, which follows `TFM_MULTI_CORE_TOPOLOGY`. -/
def accessctrlSUnprivC0C1 (multiCore : Bool) : Word :=
  if multiCore then
    accessctrlDbg ||| accessctrlCore0 ||| accessctrlCore1 ||| accessctrlSp ||| accessctrlSu
  else accessctrlSUnprivC0

def accessctrlSPrivC0 : Word := accessctrlDbg ||| accessctrlCore0 ||| accessctrlSp

structure MemoryRegionLimits where
  veneerBase : Word
  veneerLimit : Word
  nonSecurePartitionBase : Word
  nonSecurePartitionLimit : Word

/-- From the SDK's `addressmap.h`. -/
def sram4Base : Word := 0x20040000

/-- What the file programs: the SAU and the DMA-MPU, the security of the DMA channels and
the bus filters. -/
structure Platform where
  soc : Soc
  seccfg : Fin 16 → Word
  filter : Filter

/-- There is no PPC on this platform: the mask holds the ACCESSCTRL register. -/
structure PlatformData where
  periphStart : Word
  periphLimit : Word
  periphPpcBank : Word
  periphPpcMask : AccessCtrlRegOffset

/-- From the SDK's `addressmap.h`. -/
def uart0Base : Word := 0x40070000
def timer0Base : Word := 0x400b0000

def tfmPeripheralStdUart : PlatformData := ⟨uart0Base, uart0Base + 0x3FFF, 0, acDoNotConfigure⟩
def tfmPeripheralTimer0 : PlatformData := ⟨timer0Base, timer0Base + 0x3FFF, 0, acTimer0⟩

def sauAndIdauCfg (memoryRegions : MemoryRegionLimits) (soc : Soc) : Soc :=
  -- Configures veneers region to be non-secure callable
  let soc := soc.sauRegion 2 (memoryRegions.veneerBase &&& sauRbarBaddrMsk)
    ((memoryRegions.veneerLimit &&& sauRlarLaddrMsk) ||| sauRlarEnableMsk ||| sauRlarNscMsk)
  -- Configure Non-Secure partition in flash
  let soc := soc.sauRegion 3 (memoryRegions.nonSecurePartitionBase &&& sauRbarBaddrMsk)
    ((memoryRegions.nonSecurePartitionLimit &&& sauRlarLaddrMsk) ||| sauRlarEnableMsk)
  -- Configure the rest of the address map up to PPB
  let soc := soc.sauRegion 4 (sram4Base &&& sauRbarBaddrMsk)
    (((ppbBase - 1) &&& sauRlarLaddrMsk) ||| sauRlarEnableMsk)
  -- Turn off unused bootrom region
  let soc := soc.sauRegion 7 0 0
  { soc with sau := { soc.sau with ctrl := soc.sau.ctrl ||| 1 } }

inductive PlatErr where
  | success | systemErr
  deriving DecidableEq

def c0C1UnprivPeriphOffsets : List AccessCtrlRegOffset := [acSram0, acSram1, acSram2, acSram3]

def c0UnprivPeriphOffsets : List AccessCtrlRegOffset :=
  [acSyscfg, acClocksBankDefault, acRsm, acBusctrl, acOtp, acPowman, acTrng, acXosc, acRosc,
    acPllSys, acPllUsb, acTicks, acXipCtrl, acXipQmi]

def nsPrivPeriphOffsets : List AccessCtrlRegOffset :=
  [acRom, acXipMain, acSram4, acSram5, acSram6, acSram7, acSram8, acSram9, acDma, acUsbctrl,
    acPio0, acPio1, acPio2, acCoresightTrace, acCoresightPeriph, acSysinfo, acResets, acIoBank0,
    acIoBank1, acPadsBank0, acPadsQspi, acAdc0, acHstx, acI2c0, acI2c1, acPwm, acSpi0, acSpi1,
    acTimer0, acTimer1, acUart0, acUart1, acTbman, acSha256, acWatchdog, acXipAux]

variable (chip : Chip AccessCtrlRegOffset) (multiCore : Bool)

/-- One of the three loops: every register of a list gets the same value and is read back. -/
def configurePeripherals (value : Word) (offsets : List AccessCtrlRegOffset)
    (progress : Progress AccessCtrlRegOffset) : Progress AccessCtrlRegOffset :=
  (offsets.map fun offset => (offset, value)).foldl (writeBack chip) progress

def busFilterCfg (filter : Filter) : Filter × PlatErr :=
  let filter := filter.write chip .core0 (.cfgreset (passwordBits ||| 0x1))
  let filter := filter.write chip .core0 (.gpioNsmask0 0xFFFFFFFC)
  let filter := filter.write chip .core0 (.gpioNsmask1 0xFF00FFFF)
  -- Peripherals controlled by Secure Core0 and Core1
  let progress := configurePeripherals chip (accessctrlSUnprivC0C1 multiCore)
    c0C1UnprivPeriphOffsets ⟨filter, false⟩
  -- Peripherals controlled by Secure Core0
  let progress := configurePeripherals chip accessctrlSUnprivC0 c0UnprivPeriphOffsets progress
  -- Peripherals accessable to all bus actors
  let progress := configurePeripherals chip accessctrlNsPriv nsPrivPeriphOffsets progress
  -- Core0 must retain control for mmio control.
  (progress.unit.write chip .core0 (.lock (passwordBits ||| 0x6)),
    if progress.failed then .systemErr else .success)

def accessCtrlConfigureToSecurePrivileged (offset : AccessCtrlRegOffset) (filter : Filter) :
    Filter :=
  if offset ≠ acDoNotConfigure then
    filter.write chip .core0 (.grant offset (accessctrlSPrivC0 ||| passwordBits))
  else filter

def accessCtrlConfigureToSecureUnprivileged (offset : AccessCtrlRegOffset) (filter : Filter) :
    Filter :=
  if offset ≠ acDoNotConfigure then
    filter.write chip .core0 (.grant offset (accessctrlSUnprivC0 ||| passwordBits))
  else filter

/-- `DMA_SECCFG_CH0_P_BITS`; the Secure bit of a channel is the next one. -/
def dmaSeccfgPBits : Word := 1 <<< 0

def dmaMpuCtrlPBits : Word := 1 <<< 1
def dmaMpuCtrlNsHideAddrBits : Word := 1 <<< 3

def dmaSecurityConfig (memoryRegions : MemoryRegionLimits) (platform : Platform) :
    Platform × PlatErr :=
  -- Configure every DMA channel as Nonsecure Privileged since TF-M uses no DMA
  let seccfg := (List.finRange 16).foldl
    (fun seccfg channel => Function.update seccfg channel dmaSeccfgPBits) platform.seccfg
  let region := platform.soc.dma.mpuRegion
  let region := Function.update region 0
    ⟨memoryRegions.veneerBase &&& dmaMpuBarAddrMsk,
      (memoryRegions.veneerLimit &&& dmaMpuLarAddrMsk) ||| dmaMpuLarPMsk ||| dmaMpuLarEnMsk⟩
  -- The limit is the one of the veneers here too.
  let region := Function.update region 1
    ⟨memoryRegions.nonSecurePartitionBase &&& dmaMpuBarAddrMsk,
      (memoryRegions.veneerLimit &&& dmaMpuLarAddrMsk) ||| dmaMpuLarPMsk ||| dmaMpuLarEnMsk⟩
  let region := Function.update region 2
    ⟨sram4Base &&& dmaMpuBarAddrMsk,
      ((ppbBase - 1) &&& dmaMpuLarAddrMsk) ||| dmaMpuLarPMsk ||| dmaMpuLarEnMsk⟩
  let region := ([3, 4, 5, 6, 7] : List (Fin 8)).foldl
    (fun region index => Function.update region index ⟨0, 0⟩) region
  let dma : DmaMpu := ⟨dmaMpuCtrlNsHideAddrBits ||| dmaMpuSMsk ||| dmaMpuCtrlPBits, region⟩
  ({ platform with seccfg := seccfg, soc := { platform.soc with dma := dma } }, .success)

/-- Veneers and the Non-Secure partition lie in flash, in whole granules, and the partition
follows the Secure image that holds the veneers. -/
structure FlashRegions extends MemoryRegionLimits where
  veneerAligned : veneerBase.toNat % 32 = 0 ∧ veneerLimit.toNat % 32 = 31
  partitionAligned :
    nonSecurePartitionBase.toNat % 32 = 0 ∧ nonSecurePartitionLimit.toNat % 32 = 31
  ordered : veneerLimit.toNat < nonSecurePartitionBase.toNat
  inFlash : veneerLimit.toNat < 0x20000000 ∧ nonSecurePartitionLimit.toNat < 0x20000000

def inVeneers (regions : MemoryRegionLimits) (address : Word) : Bool :=
  decide (regions.veneerBase ≤ address) && decide (address ≤ regions.veneerLimit)

def inPartition (regions : MemoryRegionLimits) (address : Word) : Bool :=
  decide (regions.nonSecurePartitionBase ≤ address) &&
    decide (address ≤ regions.nonSecurePartitionLimit)

/-- SRAM4 and everything above it up to the PPB. -/
def inRest (address : Word) : Bool := decide (sram4Base ≤ address) && decide (address ≤ ppbBase - 1)

/-- The partition of the address map that the port asks for. -/
def portPartition (regions : MemoryRegionLimits) (address : Word) : Attribution :=
  if inVeneers regions address then .nonSecureCallable
  else if inPartition regions address || inRest address then .nonSecure
  else .secure

theorem sau_cfg_on (regions : MemoryRegionLimits) (soc : Soc) :
    (sauAndIdauCfg regions soc).sau.ctrl &&& 1 ≠ 0 := by
  change (soc.sau.ctrl ||| 1) &&& 1 ≠ 0
  rw [show (soc.sau.ctrl ||| 1) &&& 1 = 1 by
    ext index below
    simp only [BitVec.getElem_and, BitVec.getElem_or]
    cases soc.sau.ctrl[index] <;> cases (1 : Word)[index] <;> rfl]
  decide

theorem sau_cfg_region (regions : MemoryRegionLimits) (soc : Soc) :
    (sauAndIdauCfg regions soc).sau.region = fun index => match index with
      | 2 => ⟨regions.veneerBase &&& sauRbarBaddrMsk,
          (regions.veneerLimit &&& sauRlarLaddrMsk) ||| sauRlarEnableMsk ||| sauRlarNscMsk⟩
      | 3 => ⟨regions.nonSecurePartitionBase &&& sauRbarBaddrMsk,
          (regions.nonSecurePartitionLimit &&& sauRlarLaddrMsk) ||| sauRlarEnableMsk⟩
      | 4 => ⟨sram4Base &&& sauRbarBaddrMsk,
          ((ppbBase - 1) &&& sauRlarLaddrMsk) ||| sauRlarEnableMsk⟩
      | 7 => ⟨0, 0⟩
      | index => soc.sau.region index := by
  funext index
  fin_cases index <;> rfl

theorem sau_granules (base limit flags : Word)
    (aligned : base.toNat % 32 = 0 ∧ limit.toNat % 32 = 31) (low : flags ||| 0x1F = 0x1F)
    (enabled : flags &&& sauRlarEnableMsk ≠ 0) (address : Word) :
    (⟨base &&& sauRbarBaddrMsk, (limit &&& sauRlarLaddrMsk) ||| flags⟩ : SauRegion).covers address =
      (decide (base ≤ address) && decide (address ≤ limit)) := by
  have on : ((limit &&& sauRlarLaddrMsk) ||| flags) &&& sauRlarEnableMsk ≠ 0 := by
    rw [sauRlarLaddrMsk, granule_flags limit flags sauRlarEnableMsk (by decide)]
    exact enabled
  rw [SauRegion.covers, SauRegion.enabled, bne_iff_ne.mpr on, sauRbarBaddrMsk, sauRlarLaddrMsk,
    granule_base_aligned base aligned.1, granule_limit_flags limit flags low,
    granule_limit_aligned limit aligned.2, Bool.true_and]

theorem sau_callable (limit flags : Word) (base : Word) :
    (⟨base, (limit &&& sauRlarLaddrMsk) ||| flags⟩ : SauRegion).nsc =
      (flags &&& sauRlarNscMsk != 0) := by
  rw [SauRegion.nsc, sauRlarLaddrMsk, granule_flags limit flags sauRlarNscMsk (by decide)]

/-- Regions that the configuration leaves as they are. -/
def LeftDisabled (soc : Soc) : Prop :=
  ∀ index ∈ ([0, 1, 5, 6] : List (Fin 8)), (soc.sau.region index).enabled = false

/-- The regions that cover an address, whatever a boot ROM left in region 7. -/
theorem sau_cfg_covering (regions : FlashRegions) (soc : Soc) (left : LeftDisabled soc)
    (address : Word) :
    (sauAndIdauCfg regions.toMemoryRegionLimits soc).sau.covering address =
      ([2, 3, 4] : List (Fin 8)).filter fun index =>
        if index = 2 then inVeneers regions.toMemoryRegionLimits address
        else if index = 3 then inPartition regions.toMemoryRegionLimits address
        else inRest address := by
  have indices : List.finRange 8 = ([0, 1, 2, 3, 4, 5, 6, 7] : List (Fin 8)) := by decide
  have silent (index : Fin 8) (among : index ∈ ([0, 1, 5, 6] : List (Fin 8))) :
      (soc.sau.region index).covers address = false := by
    rw [SauRegion.covers, left index among, Bool.false_and, Bool.false_and]
  have cleared : (⟨0, 0⟩ : SauRegion).covers address = false := rfl
  have veneers := sau_granules regions.veneerBase regions.veneerLimit
    (sauRlarEnableMsk ||| sauRlarNscMsk) regions.veneerAligned (by decide) (by decide) address
  have flash := sau_granules regions.nonSecurePartitionBase regions.nonSecurePartitionLimit
    sauRlarEnableMsk regions.partitionAligned (by decide) (by decide) address
  have rest := sau_granules sram4Base (ppbBase - 1) sauRlarEnableMsk (by decide) (by decide)
    (by decide) address
  rw [← BitVec.or_assoc] at veneers
  rw [Sau.covering, sau_cfg_region, indices]
  simp only [List.filter_cons, List.filter_nil, silent 0 (by decide), silent 1 (by decide),
    silent 5 (by decide), silent 6 (by decide), cleared, veneers, flash, rest]
  simp [inVeneers, inPartition, inRest]

theorem regions_apart (regions : FlashRegions) (address : Word) :
    (inVeneers regions.toMemoryRegionLimits address = true →
      inPartition regions.toMemoryRegionLimits address = false ∧ inRest address = false) ∧
    (inPartition regions.toMemoryRegionLimits address = true → inRest address = false) := by
  have order := regions.ordered
  have flashEnd := regions.inFlash
  simp only [inVeneers, inPartition, inRest, BitVec.le_def, sram4Base, Bool.and_eq_true,
    Bool.and_eq_false_iff, decide_eq_true_eq, decide_eq_false_iff_not,
    show (0x20040000 : Word).toNat = 0x20040000 by decide]
  omega

theorem sau_cfg_partition (regions : FlashRegions) (soc : Soc) (left : LeftDisabled soc)
    (address : Word) :
    (sauAndIdauCfg regions.toMemoryRegionLimits soc).sau.attribution address =
      portPartition regions.toMemoryRegionLimits address := by
  have callable : ((sauAndIdauCfg regions.toMemoryRegionLimits soc).sau.region 2).nsc = true := by
    rw [sau_cfg_region, BitVec.or_assoc]
    exact sau_callable regions.veneerLimit (sauRlarEnableMsk ||| sauRlarNscMsk) _
  have plain (index : Fin 8) (one : index = 3 ∨ index = 4) :
      ((sauAndIdauCfg regions.toMemoryRegionLimits soc).sau.region index).nsc = false := by
    rw [sau_cfg_region]
    rcases one with rfl | rfl
    · exact sau_callable regions.nonSecurePartitionLimit sauRlarEnableMsk _
    · exact sau_callable (ppbBase - 1) sauRlarEnableMsk _
  have apart := regions_apart regions address
  rw [Sau.attribution, if_neg (sau_cfg_on _ soc), sau_cfg_covering regions soc left, portPartition]
  by_cases veneers : inVeneers regions.toMemoryRegionLimits address = true
  · obtain ⟨notFlash, notRest⟩ := apart.1 veneers
    simp [veneers, notFlash, notRest, callable]
  by_cases flash : inPartition regions.toMemoryRegionLimits address = true
  · have notRest := apart.2 flash
    simp [veneers, flash, notRest, plain 3 (Or.inl rfl)]
  by_cases rest : inRest address = true
  · simp [veneers, flash, rest, plain 4 (Or.inr rfl)]
  · simp [veneers, flash, rest]

theorem dma_config_regions (regions : MemoryRegionLimits) (platform : Platform) :
    (dmaSecurityConfig regions platform).1.soc.dma.mpuRegion = fun index => match index with
      | 0 => ⟨regions.veneerBase &&& dmaMpuBarAddrMsk,
          (regions.veneerLimit &&& dmaMpuLarAddrMsk) ||| dmaMpuLarPMsk ||| dmaMpuLarEnMsk⟩
      | 1 => ⟨regions.nonSecurePartitionBase &&& dmaMpuBarAddrMsk,
          (regions.veneerLimit &&& dmaMpuLarAddrMsk) ||| dmaMpuLarPMsk ||| dmaMpuLarEnMsk⟩
      | 2 => ⟨sram4Base &&& dmaMpuBarAddrMsk,
          ((ppbBase - 1) &&& dmaMpuLarAddrMsk) ||| dmaMpuLarPMsk ||| dmaMpuLarEnMsk⟩
      | _ => ⟨0, 0⟩ := by
  funext index
  fin_cases index <;> rfl

theorem dma_granules (base limit : Word)
    (aligned : base.toNat % 32 = 0 ∧ limit.toNat % 32 = 31) (address : Word) :
    let region : DmaMpuRegion := ⟨base &&& dmaMpuBarAddrMsk,
      (limit &&& dmaMpuLarAddrMsk) ||| dmaMpuLarPMsk ||| dmaMpuLarEnMsk⟩
    region.covers address = (decide (base ≤ address) && decide (address ≤ limit)) ∧
      (region.lar &&& dmaMpuSMsk == 0) = true := by
  intro region
  have enabled : ((limit &&& (~~~0x1F : Word)) ||| (dmaMpuLarPMsk ||| dmaMpuLarEnMsk)) &&&
      dmaMpuLarEnMsk ≠ 0 := by
    rw [granule_flags limit _ _ (by decide)]
    decide
  constructor
  · simp only [region, DmaMpuRegion.covers, dmaMpuBarAddrMsk, dmaMpuLarAddrMsk, BitVec.or_assoc,
      bne_iff_ne.mpr enabled, Bool.true_and, granule_base_aligned base aligned.1]
    rw [← BitVec.or_assoc, ← BitVec.or_assoc, BitVec.or_assoc (limit &&& _),
      granule_limit_flags limit _ (by decide), granule_limit_aligned limit aligned.2]
  · simp only [region, dmaMpuLarAddrMsk, BitVec.or_assoc]
    rw [granule_flags limit _ _ (by decide)]
    decide

theorem dma_config_open (regions : FlashRegions) (platform : Platform) (address : Word) :
    (dmaSecurityConfig regions.toMemoryRegionLimits platform).1.soc.dma.nonSecureAccess address =
      (inVeneers regions.toMemoryRegionLimits address || inRest address) := by
  have indices : List.finRange 8 = ([0, 1, 2, 3, 4, 5, 6, 7] : List (Fin 8)) := by decide
  have disabled : (⟨0, 0⟩ : DmaMpuRegion).covers address = false := rfl
  have veneers := dma_granules regions.veneerBase regions.veneerLimit regions.veneerAligned address
  have crossed := dma_granules regions.nonSecurePartitionBase regions.veneerLimit
    ⟨regions.partitionAligned.1, regions.veneerAligned.2⟩ address
  have rest := dma_granules sram4Base (ppbBase - 1) (by decide) address
  have silent : (decide (regions.nonSecurePartitionBase ≤ address) &&
      decide (address ≤ regions.veneerLimit)) = false := by
    have order := regions.ordered
    simp only [BitVec.le_def, Bool.and_eq_false_iff, decide_eq_false_iff_not]
    omega
  rw [silent] at crossed
  have default : ((dmaSecurityConfig regions.toMemoryRegionLimits platform).1.soc.dma.mpuCtrl &&&
      dmaMpuSMsk == 0) = false := by
    change ((dmaMpuCtrlNsHideAddrBits ||| dmaMpuSMsk ||| dmaMpuCtrlPBits) &&& dmaMpuSMsk == 0) = false
    decide
  rw [DmaMpu.nonSecureAccess, default, dma_config_regions, indices]
  simp only [List.any_cons, List.any_nil, disabled, Bool.false_and, Bool.or_false, veneers, crossed,
    rest, Bool.and_true, inVeneers, inRest]
  split
  · rfl
  · rename_i uncovered
    exact (Bool.not_eq_true _ ▸ uncovered).symm

/-- The configuration of the address filters, SAU first. -/
def configureAddresses (regions : MemoryRegionLimits) (platform : Platform) : Platform :=
  (dmaSecurityConfig regions { platform with soc := sauAndIdauCfg regions platform.soc }).1

theorem configured_sau (regions : MemoryRegionLimits) (platform : Platform) :
    (configureAddresses regions platform).soc.sau = (sauAndIdauCfg regions platform.soc).sau := rfl

/-- The DMA is never open wider than the SAU, and it is as open as the SAU exactly outside
the Non-Secure flash partition, where the limit of its region is the veneers' one. -/
theorem port_dma_mirrors_sau_exact (regions : FlashRegions) (platform : Platform)
    (left : LeftDisabled platform.soc) (address : Word) :
    let soc := (configureAddresses regions.toMemoryRegionLimits platform).soc
    (soc.dma.nonSecureAccess address = true → soc.sau.attribution address ≠ .secure) ∧
    ((soc.dma.nonSecureAccess address = true ↔ soc.sau.attribution address ≠ .secure) ↔
      inPartition regions.toMemoryRegionLimits address = false) := by
  intro soc
  have sau : soc.sau.attribution address = portPartition regions.toMemoryRegionLimits address := by
    rw [configured_sau]
    exact sau_cfg_partition regions platform.soc left address
  have dma : soc.dma.nonSecureAccess address =
      (inVeneers regions.toMemoryRegionLimits address || inRest address) :=
    dma_config_open regions _ address
  have apart := regions_apart regions address
  rw [sau, dma, portPartition]
  by_cases veneers : inVeneers regions.toMemoryRegionLimits address = true
  · simp [veneers, (apart.1 veneers).1]
  by_cases flash : inPartition regions.toMemoryRegionLimits address = true
  · simp [veneers, flash, apart.2 flash]
  by_cases rest : inRest address = true
  · simp [veneers, flash, rest]
  · simp [veneers, flash, rest]

def sampleRegions : FlashRegions where
  veneerBase := 0x10060000
  veneerLimit := 0x1006007F
  nonSecurePartitionBase := 0x10071000
  nonSecurePartitionLimit := 0x100D0FFF
  veneerAligned := by decide
  partitionAligned := by decide
  ordered := by decide
  inFlash := by decide

theorem reset_left : LeftDisabled resetSoc := by
  intro index _
  change (⟨0, 0⟩ : SauRegion).enabled = false
  decide

def samplePlatform : Platform where
  soc := resetSoc
  seccfg := fun _ => 0
  filter := ⟨fun _ => 0, 0, 0, 0⟩

theorem sample_dma_mirrors :
    let soc := (configureAddresses sampleRegions.toMemoryRegionLimits samplePlatform).soc
    (soc.dma.nonSecureAccess 0x10071000 = true → soc.sau.attribution 0x10071000 ≠ .secure) ∧
    ((soc.dma.nonSecureAccess 0x10071000 = true ↔ soc.sau.attribution 0x10071000 ≠ .secure) ↔
      inPartition sampleRegions.toMemoryRegionLimits 0x10071000 = false) :=
  port_dma_mirrors_sau_exact sampleRegions samplePlatform reset_left 0x10071000

def distilledRegions : FlashRegions where
  veneerBase := veneerStart
  veneerLimit := veneerLimit
  nonSecurePartitionBase := nsFlashStart
  nonSecurePartitionLimit := nsFlashLimit
  veneerAligned := by decide
  partitionAligned := by decide
  ordered := by decide
  inFlash := by decide

def inGap (address : Word) : Bool := decide (0x20080000 ≤ address) && decide (address < 0x40000000)

theorem partition_secure (address : Word) :
    portPartition distilledRegions.toMemoryRegionLimits address =
      if inGap address then .nonSecure else partition address := by
  simp only [portPartition, inVeneers, inPartition, inRest, inGap, partition, isVeneer, isNonSecure,
    distilledRegions]
  simp only [veneerStart, TzConfig.veneerLimit, nsFlashStart, nsFlashLimit, nsRamStart, nsRamLimit,
    ppbBase, sFlashStart, sFlashSize, veneerSize, nsFlashSize, nsRamSize, sram4Base, BitVec.le_def,
    BitVec.lt_def, Bool.and_eq_true, Bool.or_eq_true, decide_eq_true_eq]
  split_ifs <;> simp_all <;> omega

/-- What a boot ROM that uses region 7 alone leaves behind. -/
def OnlyLast (soc : Soc) : Prop := ∀ index : Fin 8, index ≠ 7 → (soc.sau.region index).enabled = false

theorem only_last_left (soc : Soc) (last : OnlyLast soc) : LeftDisabled soc := by
  intro index among
  apply last index
  rintro rfl
  exact absurd among (by decide)

/-- minimal-tz keeps region 7, so that it counts in addition to the regions programmed. -/
theorem distilled_covering (soc : Soc) (last : OnlyLast soc) (address : Word) :
    (tzSauConfig soc).sau.covering address =
      programmed address ++ if (soc.sau.region 7).covers address then [7] else [] := by
  have silent (index : Fin 8) (other : index ≠ 7) : (soc.sau.region index).covers address = false := by
    rw [SauRegion.covers, last index other, Bool.false_and, Bool.false_and]
  rw [sau_config_covering]
  simp only [List.filter_cons, List.filter_nil, silent 4 (by decide), silent 5 (by decide),
    silent 6 (by decide)]
  rfl

/-- With the same layout the two configurations attribute an address alike exactly outside
the gap where region 7 is silent, and inside it where region 7 opens what minimal-tz closes. -/
theorem distilled_agrees_iff (soc : Soc) (last : OnlyLast soc) (address : Word) :
    (tzSauConfig soc).sau.attribution address =
        (sauAndIdauCfg distilledRegions.toMemoryRegionLimits soc).sau.attribution address ↔
      if (soc.sau.region 7).covers address then
        inGap address = true ∧ (soc.sau.region 7).nsc = false
      else inGap address = false := by
  have on : ¬ ((tzSauConfig soc).sau.ctrl &&& 1 = 0) := by
    rw [sau_config_ctrl]
    decide
  have kept : (tzSauConfig soc).sau.region 7 = soc.sau.region 7 := rfl
  have gapSecure : inGap address = true → partition address = .secure := by
    simp only [inGap, partition, isVeneer, isNonSecure, veneerStart, TzConfig.veneerLimit,
      nsFlashStart, nsFlashLimit, nsRamStart, nsRamLimit, ppbBase, sFlashStart, sFlashSize,
      veneerSize, nsFlashSize, nsRamSize, BitVec.le_def, BitVec.lt_def, Bool.and_eq_true,
      Bool.or_eq_true, decide_eq_true_eq]
    split_ifs <;> simp_all <;> omega
  rw [sau_cfg_partition distilledRegions soc (only_last_left soc last), partition_secure,
    Sau.attribution, if_neg on, distilled_covering soc last]
  rcases programmed_cases soc address with ⟨outside, secure⟩ | ⟨index, one, given, same⟩
  · -- Secure in the layout: region 7 alone can open it.
    rw [outside, secure, List.nil_append]
    by_cases covered : (soc.sau.region 7).covers address = true
    · simp only [covered, if_true, kept]
      cases (soc.sau.region 7).nsc <;> cases inGap address <;> simp
    · simp only [covered]
      cases inGap address <;> simp
  · -- Programmed by both: region 7 turns the overlap Secure in minimal-tz only.
    have notGap : inGap address = false := by
      cases gap : inGap address with
      | false => rfl
      | true => exact absurd (gapSecure gap) given
    rw [one, notGap]
    by_cases covered : (soc.sau.region 7).covers address = true
    · simp only [covered, if_true, List.singleton_append, Bool.false_eq_true, if_false, false_and,
        iff_false]
      exact Ne.symm given
    · simp only [covered, Bool.false_eq_true, if_false, List.append_nil, iff_true]
      exact same.symm

def bootRomSoc : Soc where
  sau := ⟨0, 0, Function.update (fun _ => ⟨0, 0⟩) 7 ⟨0x00007E00, 0x00007FE3⟩⟩
  aircr := 0
  dma := ⟨0, fun _ => ⟨0, 0⟩⟩

theorem boot_rom_only_last : OnlyLast bootRomSoc := by
  intro index other
  change (Function.update (fun _ => (⟨0, 0⟩ : SauRegion)) 7 ⟨0x00007E00, 0x00007FE3⟩ index).enabled = _
  rw [Function.update_of_ne other]
  decide

theorem distilled_differs_in_boot_rom :
    (tzSauConfig bootRomSoc).sau.attribution 0x7F00 =
        (sauAndIdauCfg distilledRegions.toMemoryRegionLimits bootRomSoc).sau.attribution 0x7F00 ↔
      if (bootRomSoc.sau.region 7).covers 0x7F00 then
        inGap 0x7F00 = true ∧ (bootRomSoc.sau.region 7).nsc = false
      else inGap 0x7F00 = false :=
  distilled_agrees_iff bootRomSoc boot_rom_only_last 0x7F00

end Rp2350Tee.TargetConfig
