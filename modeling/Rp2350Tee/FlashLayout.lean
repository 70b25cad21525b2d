import Rp2350Tee.AreaMap
import Rp2350Tee.TargetConfig

/-!
`reference/flash_layout.h` and `reference/region_defs.h`: where the boot loader, the images
and the storage services live, and what `target_cfg.c` makes of it. A build without BL2
is not modelled, since nothing then defines where the scratch RAM begins.
-/

namespace Rp2350Tee.FlashLayout

open TzConfig TargetConfig AreaMap

/-! `flash_layout.h`. -/

def flashAreaImageSectorSize : Nat := 0x1000
def flashTotalSize : Nat := 0x200000

def flashAreaBl2Offset : Nat := 0x0
def flashAreaBl2Size : Nat := 0x11000
def flashAreaScratchSize : Nat := 0x8000
def flashPsAreaSize : Nat := 2 * flashAreaImageSectorSize
def flashItsAreaSize : Nat := 2 * flashAreaImageSectorSize
def flashOtpNvCountersAreaSize : Nat := 2 * flashAreaImageSectorSize
def provisioningBundleMagic : Nat := 0x18

/-- What the headers leave to the build, and the two sizes of images that they ask to be
whole sectors. An undefined `MCUBOOT_IMAGE_NUMBER` counts as 1. -/
structure Build where
  mcubootImageNumber : Nat
  linkToSecondaryPartition : Bool
  tfmLoadNsImage : Bool
  flashSPartitionSize : Nat
  flashNsPartitionSize : Nat
  bl2HeaderSize : Nat
  bl2TrailerSize : Nat
  provisioningCodePaddedSize : Nat
  provisioningValuesPaddedSize : Nat
  provisioningDataPaddedSize : Nat

section Offsets

variable (build : Build)

def Build.single : Bool := build.mcubootImageNumber = 1

/-- Secure + Non-secure image primary slot, or that of the Secure image alone. -/
def flashArea0 : Area where
  offset := flashAreaBl2Offset + flashAreaBl2Size
  size :=
    if build.single then build.flashSPartitionSize + build.flashNsPartitionSize
    else build.flashSPartitionSize

/-- Non-secure image primary slot, of two images only. -/
def flashArea1 : Area where
  offset := (flashArea0 build).offset + (flashArea0 build).size
  size := build.flashNsPartitionSize

/-- The secondary slot of `flashArea0`. -/
def flashArea2 : Area where
  offset :=
    if build.single then (flashArea0 build).offset + (flashArea0 build).size
    else (flashArea1 build).offset + (flashArea1 build).size
  size :=
    if build.single then build.flashSPartitionSize + build.flashNsPartitionSize
    else build.flashSPartitionSize

/-- Non-secure image secondary slot, of two images only. -/
def flashArea3 : Area where
  offset := (flashArea2 build).offset + (flashArea2 build).size
  size := build.flashNsPartitionSize

def flashAreaScratchOffset : Nat :=
  if build.single then (flashArea2 build).offset + (flashArea2 build).size
  else (flashArea3 build).offset + (flashArea3 build).size

def flashPsAreaOffset : Nat := flashAreaScratchOffset build + flashAreaScratchSize
def flashItsAreaOffset : Nat := flashPsAreaOffset build + flashPsAreaSize
def flashOtpNvCountersAreaOffset : Nat := flashItsAreaOffset build + flashItsAreaSize

/-! `region_defs.h`; the addresses are those of the SDK's `addressmap.h`. -/

def xipBase : Nat := 0x10000000
def sram0Base : Nat := 0x20000000

def sImagePrimaryPartitionOffset : Nat :=
  if build.linkToSecondaryPartition then (flashArea2 build).offset else (flashArea0 build).offset

def sImageSecondaryPartitionOffset : Nat :=
  if build.linkToSecondaryPartition then (flashArea0 build).offset else (flashArea2 build).offset

def nsImagePrimaryPartitionOffset : Nat :=
  if build.linkToSecondaryPartition then (flashArea2 build).offset + build.flashSPartitionSize
  else (flashArea0 build).offset + build.flashSPartitionSize

/-- A concatenated image has its trailer behind the Non-secure part. -/
def imageSCodeSize : Nat :=
  if build.single ∧ sImagePrimaryPartitionOffset build < nsImagePrimaryPartitionOffset build then
    build.flashSPartitionSize - build.bl2HeaderSize
  else build.flashSPartitionSize - build.bl2HeaderSize - build.bl2TrailerSize

def sCodeStart : Nat := xipBase + (sImagePrimaryPartitionOffset build + build.bl2HeaderSize)
def sCodeLimit : Nat := sCodeStart build + imageSCodeSize build - 1

def nsPartitionStart : Nat := xipBase + nsImagePrimaryPartitionOffset build
def nsPartitionSize : Nat := if build.tfmLoadNsImage then build.flashNsPartitionSize else 0

def secondaryPartitionSize : Nat := build.flashSPartitionSize + build.flashNsPartitionSize

def sDataStart : Nat := sram0Base
def sDataSize : Nat := 0x30000
def bl2DataStart : Nat := sDataStart
def bl2DataSize : Nat := sDataSize
def scratchXStart : Nat := bl2DataStart + bl2DataSize
def scratchXSize : Nat := 0x1000
def scratchYStart : Nat := scratchXStart + scratchXSize
def scratchYSize : Nat := 0x1000

def nsDataStart : Nat := sram4Base.toNat
def nsDataOverallSize : Nat := 0x40000
def nsDataSize : Nat := if build.tfmLoadNsImage then nsDataOverallSize else 0

def provisioningBundleStart : Nat :=
  xipBase + flashOtpNvCountersAreaOffset build + flashOtpNvCountersAreaSize

def provisioningBundleSize : Nat :=
  build.provisioningCodePaddedSize + build.provisioningValuesPaddedSize +
    build.provisioningDataPaddedSize + provisioningBundleMagic

end Offsets

/-- A build that passes the `#error` checks of both headers. The headers do not check that
the Secure image has room for what MCUboot puts around it; the linker needs it. -/
structure Layout extends Build where
  imageNumber : mcubootImageNumber = 1 ∨ mcubootImageNumber = 2
  secureWhole : flashSPartitionSize % flashAreaImageSectorSize = 0
  nonSecureWhole : flashNsPartitionSize % flashAreaImageSectorSize = 0
  inFlash :
    flashOtpNvCountersAreaOffset toBuild + flashOtpNvCountersAreaSize ≤ flashTotalSize
  bundleInFlash :
    provisioningBundleStart toBuild + provisioningBundleSize toBuild ≤ xipBase + flashTotalSize
  secureRoom : bl2HeaderSize + bl2TrailerSize < flashSPartitionSize

def storageAreas (build : Build) : List Area :=
  [⟨flashAreaScratchOffset build, flashAreaScratchSize⟩,
    ⟨flashPsAreaOffset build, flashPsAreaSize⟩, ⟨flashItsAreaOffset build, flashItsAreaSize⟩,
    ⟨flashOtpNvCountersAreaOffset build, flashOtpNvCountersAreaSize⟩]

def bl2Area : Area := ⟨flashAreaBl2Offset, flashAreaBl2Size⟩

def imageSlots (build : Build) : List Area :=
  if build.single then [flashArea0 build, flashArea2 build]
  else [flashArea0 build, flashArea1 build, flashArea2 build, flashArea3 build]

/-- The map of `flash_layout.h`. -/
def flashMap (build : Build) : List Area :=
  bl2Area :: imageSlots build ++ storageAreas build

def secureSlot (build : Build) : Area :=
  ⟨sImagePrimaryPartitionOffset build, build.flashSPartitionSize⟩

def nonSecureSlot (build : Build) : Area :=
  ⟨nsImagePrimaryPartitionOffset build, build.flashNsPartitionSize⟩

/-- Where a new version of both images waits for the boot loader. -/
def updateSlot (build : Build) : Area :=
  ⟨sImageSecondaryPartitionOffset build, secondaryPartitionSize build⟩

/-- The map of `region_defs.h`. -/
def runtimeMap (build : Build) : List Area :=
  bl2Area :: (if build.linkToSecondaryPartition then
    [updateSlot build, secureSlot build, nonSecureSlot build]
  else [secureSlot build, nonSecureSlot build, updateSlot build]) ++ storageAreas build

theorem flash_map_consecutive (layout : Layout) : Consecutive 0 (flashMap layout.toBuild) := by
  by_cases single : layout.toBuild.single = true <;>
    simp [flashMap, imageSlots, storageAreas, bl2Area, Consecutive, Area.limit, flashArea0, flashArea1,
      flashArea2, flashArea3, flashAreaScratchOffset, flashPsAreaOffset, flashItsAreaOffset,
      flashOtpNvCountersAreaOffset, flashAreaBl2Offset, single]

/-- Both headers describe one layout, however many images MCUboot knows. -/
theorem runtime_map_consecutive (layout : Layout) : Consecutive 0 (runtimeMap layout.toBuild) := by
  by_cases single : layout.toBuild.single = true <;>
    by_cases link : layout.linkToSecondaryPartition = true <;>
    simp [runtimeMap, storageAreas, bl2Area, Consecutive, Area.limit, updateSlot, secureSlot,
      nonSecureSlot, sImagePrimaryPartitionOffset, sImageSecondaryPartitionOffset,
      nsImagePrimaryPartitionOffset, secondaryPartitionSize, flashArea0, flashArea1, flashArea2,
      flashArea3, flashAreaScratchOffset, flashPsAreaOffset, flashItsAreaOffset,
      flashOtpNvCountersAreaOffset, flashAreaBl2Offset, single, link, Nat.add_assoc]

def countersArea (build : Build) : Area :=
  ⟨flashOtpNvCountersAreaOffset build, flashOtpNvCountersAreaSize⟩

theorem flash_map_total (layout : Layout) :
    total (flashMap layout.toBuild) = (countersArea layout.toBuild).limit := by
  have placed := flash_map_consecutive layout
  rw [flashMap, show storageAreas layout.toBuild =
    (storageAreas layout.toBuild).dropLast ++ [countersArea layout.toBuild] from rfl,
    ← List.append_assoc] at placed ⊢
  rw [← consecutive_end 0 _ _ placed, Nat.zero_add]

theorem runtime_map_total (layout : Layout) :
    total (runtimeMap layout.toBuild) = (countersArea layout.toBuild).limit := by
  have placed := runtime_map_consecutive layout
  rw [runtimeMap, show storageAreas layout.toBuild =
    (storageAreas layout.toBuild).dropLast ++ [countersArea layout.toBuild] from rfl,
    ← List.append_assoc] at placed ⊢
  rw [← consecutive_end 0 _ _ placed, Nat.zero_add]

theorem sizes_whole (layout : Layout) :
    ∀ area ∈ flashMap layout.toBuild ++ runtimeMap layout.toBuild,
      flashAreaImageSectorSize ∣ area.size := by
  have secure := Nat.dvd_of_mod_eq_zero layout.secureWhole
  have nonSecure := Nat.dvd_of_mod_eq_zero layout.nonSecureWhole
  have both := Nat.dvd_add secure nonSecure
  have fixed : flashAreaImageSectorSize ∣ flashAreaBl2Size ∧
      flashAreaImageSectorSize ∣ flashAreaScratchSize ∧
      flashAreaImageSectorSize ∣ flashPsAreaSize ∧ flashAreaImageSectorSize ∣ flashItsAreaSize ∧
      flashAreaImageSectorSize ∣ flashOtpNvCountersAreaSize := by decide
  obtain ⟨boot, scratch, ps, its, otp⟩ := fixed
  by_cases single : layout.toBuild.single = true <;>
    by_cases link : layout.linkToSecondaryPartition = true <;>
    simp [flashMap, runtimeMap, imageSlots, storageAreas, bl2Area, updateSlot, secureSlot,
      nonSecureSlot, secondaryPartitionSize, flashArea0, flashArea1, flashArea2, flashArea3, single,
      link, secure, nonSecure, both, boot, scratch, ps, its, otp]

/-- Whatever the build, both headers divide the flash up to the last counter into whole
sectors, and no byte belongs to two areas of a map. -/
theorem flash_divided (layout : Layout) :
    (∀ area ∈ flashMap layout.toBuild ++ runtimeMap layout.toBuild,
      flashAreaImageSectorSize ∣ area.offset ∧ flashAreaImageSectorSize ∣ area.size ∧
        area.limit ≤ flashTotalSize) ∧
      ∀ position < (countersArea layout.toBuild).limit,
        (∃! area, area ∈ flashMap layout.toBuild ∧ area.Contains position) ∧
          ∃! area, area ∈ runtimeMap layout.toBuild ∧ area.Contains position := by
  have device := flash_map_consecutive layout
  have runtime := runtime_map_consecutive layout
  have whole := sizes_whole layout
  have fits : (countersArea layout.toBuild).limit ≤ flashTotalSize := layout.inFlash
  constructor
  · intro area member
    refine ⟨?_, whole area member, ?_⟩
    · rcases List.mem_append.mp member with among | among
      · exact consecutive_aligned 0 _ device _ (Nat.dvd_zero _)
          (fun area inside => whole area (List.mem_append_left _ inside)) area among
      · exact consecutive_aligned 0 _ runtime _ (Nat.dvd_zero _)
          (fun area inside => whole area (List.mem_append_right _ inside)) area among
    · rcases List.mem_append.mp member with among | among
      · have within := (consecutive_within 0 _ device area among).2
        rw [flash_map_total] at within
        omega
      · have within := (consecutive_within 0 _ runtime area among).2
        rw [runtime_map_total] at within
        omega
  · intro position below
    constructor
    · apply consecutive_partition 0 _ device position (Nat.zero_le _)
      rw [flash_map_total, Nat.zero_add]
      exact below
    · apply consecutive_partition 0 _ runtime position (Nat.zero_le _)
      rw [runtime_map_total, Nat.zero_add]
      exact below

/-- `memory_regions` as its users expect it: the partition of `region_defs.h`, and veneers
that the linker placed among the Secure code. -/
structure Follows (layout : Layout) (regions : MemoryRegionLimits) : Prop where
  partitionBase : regions.nonSecurePartitionBase.toNat = nsPartitionStart layout.toBuild
  partitionLimit : regions.nonSecurePartitionLimit.toNat + 1 =
    nsPartitionStart layout.toBuild + nsPartitionSize layout.toBuild
  veneerAligned : regions.veneerBase.toNat % 32 = 0 ∧ regions.veneerLimit.toNat % 32 = 31
  veneersInCode : sCodeStart layout.toBuild ≤ regions.veneerBase.toNat ∧
    regions.veneerLimit.toNat ≤ sCodeLimit layout.toBuild

theorem slots_adjacent (build : Build) :
    (nonSecureSlot build).offset = (secureSlot build).limit := by
  simp only [nonSecureSlot, secureSlot, Area.limit, nsImagePrimaryPartitionOffset,
    sImagePrimaryPartitionOffset]
  split <;> rfl

theorem slots_mapped (build : Build) :
    secureSlot build ∈ runtimeMap build ∧ nonSecureSlot build ∈ runtimeMap build := by
  unfold runtimeMap
  split <;> simp

theorem non_secure_slot_facts (layout : Layout) :
    flashAreaImageSectorSize ∣ (nonSecureSlot layout.toBuild).offset ∧
      (nonSecureSlot layout.toBuild).limit ≤ flashTotalSize := by
  have member := (slots_mapped layout.toBuild).2
  have placed := runtime_map_consecutive layout
  constructor
  · exact consecutive_aligned 0 _ placed _ (Nat.dvd_zero _)
      (fun area inside => sizes_whole layout area (List.mem_append_right _ inside)) _ member
  · have within := (consecutive_within 0 _ placed _ member).2
    rw [runtime_map_total, Nat.zero_add] at within
    exact Nat.le_trans within layout.inFlash

theorem secure_code_inside (layout : Layout) :
    sCodeLimit layout.toBuild < xipBase + (secureSlot layout.toBuild).limit := by
  have room := layout.secureRoom
  simp only [sCodeLimit, sCodeStart, imageSCodeSize, secureSlot, Area.limit]
  split <;> omega

theorem partition_aligned (layout : Layout) (regions : MemoryRegionLimits)
    (follows : Follows layout regions) :
    regions.nonSecurePartitionBase.toNat % 32 = 0 ∧
      regions.nonSecurePartitionLimit.toNat % 32 = 31 := by
  obtain ⟨slotBase, slotEnd⟩ := non_secure_slot_facts layout
  have whole := layout.nonSecureWhole
  have base := follows.partitionBase
  have limit := follows.partitionLimit
  have start : nsPartitionStart layout.toBuild = xipBase + (nonSecureSlot layout.toBuild).offset := rfl
  have size : nsPartitionSize layout.toBuild % flashAreaImageSectorSize = 0 := by
    unfold nsPartitionSize
    split
    · exact whole
    · rfl
  simp only [flashAreaImageSectorSize, xipBase] at *
  omega

theorem veneers_first (layout : Layout) (regions : MemoryRegionLimits)
    (follows : Follows layout regions) :
    regions.veneerLimit.toNat < regions.nonSecurePartitionBase.toNat := by
  have code := secure_code_inside layout
  have adjacent := slots_adjacent layout.toBuild
  have start : nsPartitionStart layout.toBuild = xipBase + (nonSecureSlot layout.toBuild).offset := rfl
  have inCode := follows.veneersInCode.2
  rw [follows.partitionBase]
  omega

theorem both_in_flash (layout : Layout) (regions : MemoryRegionLimits)
    (follows : Follows layout regions) :
    regions.veneerLimit.toNat < 0x20000000 ∧
      regions.nonSecurePartitionLimit.toNat < 0x20000000 := by
  have before := veneers_first layout regions follows
  have slotEnd := (non_secure_slot_facts layout).2
  have base := follows.partitionBase
  have limit := follows.partitionLimit
  have start : nsPartitionStart layout.toBuild = xipBase + (nonSecureSlot layout.toBuild).offset := rfl
  have size : nsPartitionSize layout.toBuild ≤ (nonSecureSlot layout.toBuild).size := by
    unfold nsPartitionSize
    split
    · exact Nat.le_refl _
    · exact Nat.zero_le _
  simp only [Area.limit, flashTotalSize, xipBase] at *
  omega

def flashRegions (layout : Layout) (regions : MemoryRegionLimits) (follows : Follows layout regions) :
    FlashRegions where
  toMemoryRegionLimits := regions
  veneerAligned := follows.veneerAligned
  partitionAligned := partition_aligned layout regions follows
  ordered := veneers_first layout regions follows
  inFlash := both_in_flash layout regions follows

theorem follows_sau (layout : Layout) (regions : MemoryRegionLimits)
    (follows : Follows layout regions) (platform : Platform) (left : LeftDisabled platform.soc)
    (address : Word) :
    (configureAddresses regions platform).soc.sau.attribution address = portPartition regions address := by
  rw [show (configureAddresses regions platform).soc.sau = (sauAndIdauCfg regions platform.soc).sau from
    configured_sau regions platform]
  exact sau_cfg_partition (flashRegions layout regions follows) platform.soc left address

theorem follows_dma (layout : Layout) (regions : MemoryRegionLimits)
    (follows : Follows layout regions) (platform : Platform) (address : Word) :
    (configureAddresses regions platform).soc.dma.nonSecureAccess address =
      (inVeneers regions address || inRest address) :=
  dma_config_open (flashRegions layout regions follows) _ address

def AtFlash (area : Area) (address : Word) : Prop :=
  xipBase ≤ address.toNat ∧ area.Contains (address.toNat - xipBase)

def SecureRam (address : Word) : Prop :=
  sDataStart ≤ address.toNat ∧ address.toNat < scratchYStart + scratchYSize

def NonSecureRam (build : Build) (address : Word) : Prop :=
  nsDataStart ≤ address.toNat ∧ address.toNat < nsDataStart + nsDataSize build

/-- The bundle with the values to provision, behind the counters. -/
def provisioningBundle (build : Build) : Area :=
  ⟨provisioningBundleStart build - xipBase, provisioningBundleSize build⟩

theorem bundle_behind (layout : Layout) :
    Consecutive 0 (runtimeMap layout.toBuild ++ [provisioningBundle layout.toBuild]) := by
  apply consecutive_append 0 _ (runtime_map_consecutive layout)
  rw [runtime_map_total]
  simp only [provisioningBundle, provisioningBundleStart, countersArea, Area.limit]
  omega

theorem partition_bytes (layout : Layout) (regions : MemoryRegionLimits)
    (follows : Follows layout regions) (address : Word) :
    inPartition regions address = true ↔
      layout.tfmLoadNsImage = true ∧ AtFlash (nonSecureSlot layout.toBuild) address := by
  have base := follows.partitionBase
  have limit := follows.partitionLimit
  have start : nsPartitionStart layout.toBuild = xipBase + (nonSecureSlot layout.toBuild).offset := rfl
  have size : (nonSecureSlot layout.toBuild).size = layout.flashNsPartitionSize := rfl
  simp only [inPartition, Bool.and_eq_true, decide_eq_true_eq, BitVec.le_def, AtFlash, Area.Contains,
    Area.limit, nsPartitionSize, size] at *
  by_cases load : layout.tfmLoadNsImage = true
  · simp only [load, if_true, true_and] at *
    omega
  · simp only [load, Bool.false_eq_true, if_false, false_and, iff_false] at *
    omega

theorem rest_bytes (address : Word) :
    inRest address = true ↔ 0x20040000 ≤ address.toNat ∧ address.toNat < 0xe0000000 := by
  have last : (ppbBase - 1).toNat = 0xdfffffff := by decide
  simp only [inRest, sram4Base, Bool.and_eq_true, decide_eq_true_eq, BitVec.le_def, last,
    show (0x20040000 : Word).toNat = 0x20040000 by decide]
  omega

theorem other_area_closed (layout : Layout) (regions : MemoryRegionLimits)
    (follows : Follows layout regions) (area : Area)
    (member : area ∈ runtimeMap layout.toBuild ++ [provisioningBundle layout.toBuild])
    (other : area ≠ nonSecureSlot layout.toBuild) (address : Word) (inside : AtFlash area address) :
    inPartition regions address = false ∧ inRest address = false := by
  have placed := bundle_behind layout
  have slot : nonSecureSlot layout.toBuild ∈
      runtimeMap layout.toBuild ++ [provisioningBundle layout.toBuild] :=
    List.mem_append_left _ (slots_mapped layout.toBuild).2
  constructor
  · rw [Bool.eq_false_iff]
    intro given
    have open' := ((partition_bytes layout regions follows address).mp given).2
    exact consecutive_exclusive 0 _ placed area _ member slot other _ inside.2 open'.2
  · have device : area.limit ≤ flashTotalSize := by
      rcases List.mem_append.mp member with among | among
      · have within := (consecutive_within 0 _ (runtime_map_consecutive layout) area among).2
        rw [runtime_map_total, Nat.zero_add] at within
        exact Nat.le_trans within layout.inFlash
      · have bundle := layout.bundleInFlash
        rw [List.mem_singleton.mp among]
        simp only [provisioningBundle, Area.limit, provisioningBundleStart, xipBase] at bundle ⊢
        omega
    obtain ⟨above, _, below⟩ := inside
    rw [Bool.eq_false_iff, ne_eq, rest_bytes]
    simp only [flashTotalSize, xipBase] at *
    omega

theorem veneers_in_slot (layout : Layout) (regions : MemoryRegionLimits)
    (follows : Follows layout regions) (address : Word) (callable : inVeneers regions address = true) :
    AtFlash (secureSlot layout.toBuild) address := by
  have code := secure_code_inside layout
  have inCode := follows.veneersInCode
  have start : sCodeStart layout.toBuild =
      xipBase + ((secureSlot layout.toBuild).offset + layout.bl2HeaderSize) := rfl
  simp only [inVeneers, Bool.and_eq_true, decide_eq_true_eq, BitVec.le_def, AtFlash,
    Area.Contains] at callable ⊢
  omega

theorem ram_not_flash (layout : Layout) (regions : MemoryRegionLimits)
    (follows : Follows layout regions) (address : Word) (ram : sram0Base ≤ address.toNat) :
    inVeneers regions address = false ∧ inPartition regions address = false := by
  obtain ⟨veneers, partition⟩ := both_in_flash layout regions follows
  simp only [inVeneers, inPartition, Bool.and_eq_false_iff, decide_eq_false_iff_not, BitVec.le_def]
  simp only [sram0Base] at ram
  omega

theorem slot_partition (layout : Layout) (regions : MemoryRegionLimits)
    (follows : Follows layout regions) (address : Word)
    (inside : AtFlash (nonSecureSlot layout.toBuild) address) :
    portPartition regions address = if layout.tfmLoadNsImage then .nonSecure else .secure := by
  have notVeneers : inVeneers regions address = false := by
    rw [Bool.eq_false_iff]
    intro callable
    have secure := (veneers_in_slot layout regions follows address callable).2.2
    have adjacent := slots_adjacent layout.toBuild
    have above := inside.2.1
    omega
  have notRest : inRest address = false := by
    have device := (non_secure_slot_facts layout).2
    obtain ⟨above, _, below⟩ := inside
    rw [Bool.eq_false_iff, ne_eq, rest_bytes]
    simp only [flashTotalSize, xipBase] at *
    omega
  rw [portPartition, notVeneers, notRest]
  by_cases load : layout.tfmLoadNsImage = true
  · have given := (partition_bytes layout regions follows address).mpr ⟨load, inside⟩
    simp [given, load]
  · have closed : inPartition regions address = false := by
      rw [Bool.eq_false_iff, ne_eq, partition_bytes layout regions follows]
      exact fun both => load both.1
    simp [closed, load]

theorem secure_ram_closed (layout : Layout) (regions : MemoryRegionLimits)
    (follows : Follows layout regions) (address : Word) (inside : SecureRam address) :
    inVeneers regions address = false ∧ inPartition regions address = false ∧
      inRest address = false := by
  obtain ⟨veneers, partition⟩ := ram_not_flash layout regions follows address inside.1
  refine ⟨veneers, partition, ?_⟩
  have below := inside.2
  rw [Bool.eq_false_iff, ne_eq, rest_bytes]
  simp only [scratchYStart, scratchYSize, scratchXStart, scratchXSize, bl2DataStart, bl2DataSize,
    sDataStart, sDataSize, sram0Base] at below
  omega

theorem non_secure_ram_rest (build : Build) (address : Word) (inside : NonSecureRam build address) :
    sram0Base ≤ address.toNat ∧ inRest address = true := by
  have first : nsDataStart = 0x20040000 := by decide
  have size : nsDataSize build ≤ 0x40000 := by
    unfold nsDataSize nsDataOverallSize
    split <;> omega
  obtain ⟨above, below⟩ := inside
  rw [rest_bytes, sram0Base]
  omega

/-- Whatever the build, the running Non-secure image and the veneers are all that the port
opens of the flash: the boot loader, the Secure image, the images of an update, the scratch
area, the storage of the services and the bundle are Secure and closed to the DMA. Of the
RAM the Secure half with the scratch banks is closed, and that of the Non-secure image open. -/
theorem layout_attributed (layout : Layout) (regions : MemoryRegionLimits)
    (follows : Follows layout regions) (platform : Platform) (left : LeftDisabled platform.soc) :
    let soc := (configureAddresses regions platform).soc
    (∀ area ∈ runtimeMap layout.toBuild ++ [provisioningBundle layout.toBuild],
      area ≠ nonSecureSlot layout.toBuild → ∀ address, AtFlash area address →
        inVeneers regions address = false →
          soc.sau.attribution address = .secure ∧ soc.dma.nonSecureAccess address = false) ∧
    (∀ address, inVeneers regions address = true →
      soc.sau.attribution address = .nonSecureCallable ∧
        AtFlash (secureSlot layout.toBuild) address) ∧
    (∀ address, AtFlash (nonSecureSlot layout.toBuild) address →
      soc.sau.attribution address = if layout.tfmLoadNsImage then .nonSecure else .secure) ∧
    (∀ address, SecureRam address →
      soc.sau.attribution address = .secure ∧ soc.dma.nonSecureAccess address = false) ∧
    ∀ address, NonSecureRam layout.toBuild address →
      soc.sau.attribution address = .nonSecure ∧ soc.dma.nonSecureAccess address = true := by
  intro soc
  have sau (address : Word) : soc.sau.attribution address = portPartition regions address :=
    follows_sau layout regions follows platform left address
  have dma (address : Word) :
      soc.dma.nonSecureAccess address = (inVeneers regions address || inRest address) :=
    follows_dma layout regions follows platform address
  refine ⟨?_, ?_, ?_, ?_, ?_⟩
  · intro area member other address inside plain
    obtain ⟨closed, below⟩ := other_area_closed layout regions follows area member other address inside
    rw [sau, dma, portPartition, plain, closed, below]
    exact ⟨rfl, rfl⟩
  · intro address callable
    rw [sau, portPartition, if_pos callable]
    exact ⟨rfl, veneers_in_slot layout regions follows address callable⟩
  · intro address inside
    rw [sau]
    exact slot_partition layout regions follows address inside
  · intro address inside
    obtain ⟨veneers, partition, rest⟩ := secure_ram_closed layout regions follows address inside
    rw [sau, dma, portPartition, veneers, partition, rest]
    exact ⟨rfl, rfl⟩
  · intro address inside
    obtain ⟨ram, rest⟩ := non_secure_ram_rest layout.toBuild address inside
    obtain ⟨veneers, partition⟩ := ram_not_flash layout regions follows address ram
    rw [sau, dma, portPartition, veneers, partition, rest]
    exact ⟨rfl, rfl⟩

def referenceLayout : Layout where
  mcubootImageNumber := 2
  linkToSecondaryPartition := false
  tfmLoadNsImage := true
  flashSPartitionSize := 0x60000
  flashNsPartitionSize := 0x60000
  bl2HeaderSize := 0x400
  bl2TrailerSize := 0x1000
  provisioningCodePaddedSize := 0x2000
  provisioningValuesPaddedSize := 0x400
  provisioningDataPaddedSize := 0x400
  imageNumber := by decide
  secureWhole := by decide
  nonSecureWhole := by decide
  inFlash := by decide
  bundleInFlash := by decide
  secureRoom := by decide

theorem reference_divided :
    (∀ area ∈ flashMap referenceLayout.toBuild ++ runtimeMap referenceLayout.toBuild,
      flashAreaImageSectorSize ∣ area.offset ∧ flashAreaImageSectorSize ∣ area.size ∧
        area.limit ≤ flashTotalSize) ∧
      ∀ position < (countersArea referenceLayout.toBuild).limit,
        (∃! area, area ∈ flashMap referenceLayout.toBuild ∧ area.Contains position) ∧
          ∃! area, area ∈ runtimeMap referenceLayout.toBuild ∧ area.Contains position :=
  flash_divided referenceLayout

theorem sample_follows : Follows referenceLayout sampleRegions.toMemoryRegionLimits where
  partitionBase := by decide
  partitionLimit := by decide
  veneerAligned := by decide
  veneersInCode := by decide

theorem reference_attributed :
    let regions := sampleRegions.toMemoryRegionLimits
    let soc := (configureAddresses regions samplePlatform).soc
    (∀ area ∈ runtimeMap referenceLayout.toBuild ++ [provisioningBundle referenceLayout.toBuild],
      area ≠ nonSecureSlot referenceLayout.toBuild → ∀ address, AtFlash area address →
        inVeneers regions address = false →
          soc.sau.attribution address = .secure ∧ soc.dma.nonSecureAccess address = false) ∧
    (∀ address, inVeneers regions address = true →
      soc.sau.attribution address = .nonSecureCallable ∧
        AtFlash (secureSlot referenceLayout.toBuild) address) ∧
    (∀ address, AtFlash (nonSecureSlot referenceLayout.toBuild) address →
      soc.sau.attribution address =
        if referenceLayout.tfmLoadNsImage then .nonSecure else .secure) ∧
    (∀ address, SecureRam address →
      soc.sau.attribution address = .secure ∧ soc.dma.nonSecureAccess address = false) ∧
    ∀ address, NonSecureRam referenceLayout.toBuild address →
      soc.sau.attribution address = .nonSecure ∧ soc.dma.nonSecureAccess address = true :=
  layout_attributed referenceLayout sampleRegions.toMemoryRegionLimits sample_follows samplePlatform
    reset_left

end Rp2350Tee.FlashLayout
