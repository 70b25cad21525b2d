import Rp2350Tee.SecureLink

/-!
`reference/linker_ns.ld`: the sections of the Non-secure image in the memories of the script,
and what the filters of the port make of them once the HAL has set these up. What the script
collects into a section is a parameter, as in `SecureLink`.
-/

namespace Rp2350Tee.NonSecureLink

open TzConfig BusFilter TargetConfig TfmIsolation AreaMap SectionLayout FlashLayout

/-- The sections, and the copies in flash of those that lie in the scratch banks. -/
inductive NsSectionName where
  | vectors | core1Entry | picoReset | text | armExtab | armExidx | binaryInfo | scratchXLoad
  | scratchYLoad
  | data | ramVectorTable | bss | heap
  | scratchX | stack1Dummy | scratchY | stackDummy
  deriving DecidableEq

/-- The script assigns to `.` behind the vectors and before the binary info. `movesCounter`
leaves open whether the assignment moves the sections behind it, as a comment has it for the
entry of core 1; in GNU ld it does not. -/
structure NsLinkInput where
  movesCounter : Bool
  size : NsSectionName → Nat
  natural : NsSectionName → Nat
  collected : NsSectionName → Bool

def nsVectorAllocatedSize : Nat := 0x124
def nsHeapSize : Nat := 0x1000

/-- Of the SDK: with the next one banks 8 and 9, not the scratch areas of `region_defs.h`. -/
def sramScratchXBase : Nat := 0x20080000
def sramScratchYBase : Nat := 0x20081000

section Script

variable (build : Build) (input : NsLinkInput)

def nsCodeStart : Nat := xipBase + (nsImagePrimaryPartitionOffset build + build.bl2HeaderSize)

def nsCodeSize : Nat :=
  if build.tfmLoadNsImage then
    build.flashNsPartitionSize - build.bl2HeaderSize - build.bl2TrailerSize
  else 0

def codeScript : List NsSectionName :=
  [.vectors, .core1Entry, .picoReset, .text, .armExtab, .armExidx, .binaryInfo]

def flashScript : List NsSectionName := codeScript ++ [.scratchXLoad, .scratchYLoad]
def ramScript : List NsSectionName := [.data, .ramVectorTable, .bss, .heap]
def scratchXScript : List NsSectionName := [.scratchX, .stack1Dummy]
def scratchYScript : List NsSectionName := [.scratchY, .stackDummy]

def item (name : NsSectionName) : Item NsSectionName :=
  let natural := input.natural name
  let size := input.size name
  -- with an assignment to `.` inside
  let whenEmpty := if input.collected name then .counted else .kept
  match name with
  | .vectors =>
      ⟨name, false, natural, if input.movesCounter then nsVectorAllocatedSize else size, 1, .dropped⟩
  -- the script names no memory for the entry of core 1: it goes to the first that may hold code
  | .core1Entry | .picoReset => ⟨name, false, max 4 natural, size, 1, .dropped⟩
  | .binaryInfo =>
      ⟨name, false, if input.movesCounter then max 4 natural else natural, size, 1, .dropped⟩
  | .text => ⟨name, false, natural, size, 1, whenEmpty⟩
  | .armExtab | .armExidx => ⟨name, false, natural, size, 1, .dropped⟩
  -- a load address is not aligned
  | .scratchXLoad | .scratchYLoad => ⟨name, false, 1, size, 1, .dropped⟩
  | .data | .bss => ⟨name, false, natural, size, 4, whenEmpty⟩
  | .ramVectorTable => ⟨name, false, max 256 natural, size, 1, .dropped⟩
  | .heap => ⟨name, false, max 8 natural, nsHeapSize, 1, whenEmpty⟩
  | .scratchX | .scratchY => ⟨name, false, natural, size, 4, whenEmpty⟩
  | .stack1Dummy | .stackDummy => ⟨name, false, natural, size, 1, .dropped⟩

/-- `MEMORY`, each with the sections that are put there. -/
def nsMemories : List (Memory NsSectionName) :=
  [⟨nsCodeStart build, nsCodeSize build, flashScript.map (item input)⟩,
    ⟨nsDataStart, nsDataSize build, ramScript.map (item input)⟩,
    ⟨sramScratchXBase, scratchXSize, scratchXScript.map (item input)⟩,
    ⟨sramScratchYBase, scratchYSize, scratchYScript.map (item input)⟩]

def nonSecureSections : List (Placed NsSectionName) := placeAll (nsMemories build input)

/-- `__etext2`, the end of the code rounded up. -/
def etext2 : Nat :=
  alignUp 4 (advance ⟨nsCodeStart build, nsCodeStart build⟩ (codeScript.map (item input))).dot

/-- What the start-up code copies to `.data`. It is put at `__etext2` whether or not the flash
of the image has room for it. -/
def initialData : Area where
  offset := etext2 build input
  size := ((item input .data).put ⟨nsDataStart, nsDataStart⟩).area.size

end Script

/-- What links. The headers do not check that the partition has room for what MCUboot puts
around the image. The linker checks in addition that no two load addresses overlap, which a
build with initial data and with scratch sections never passes. -/
structure NonSecureImage (build : Build) extends NsLinkInput where
  loaded : build.tfmLoadNsImage = true
  room : build.bl2HeaderSize + build.bl2TrailerSize ≤ build.flashNsPartitionSize
  vectorsFit : size .vectors ≤ nsVectorAllocatedSize
  fits : ∀ memory ∈ nsMemories build toNsLinkInput, memory.Fits

theorem item_name (input : NsLinkInput) (name : NsSectionName) : (item input name).name = name := by
  cases name <;> rfl

section Image

variable (layout : Layout) (image : NonSecureImage layout.toBuild)

include image in
theorem code_inside :
    nsPartitionStart layout.toBuild ≤ nsCodeStart layout.toBuild ∧
      nsCodeStart layout.toBuild + nsCodeSize layout.toBuild ≤
        xipBase + (nonSecureSlot layout.toBuild).limit := by
  have room := image.room
  simp only [nsPartitionStart, nsCodeStart, nsCodeSize, image.loaded, if_true, nonSecureSlot, Area.limit]
  omega

theorem section_places (placed : Placed NsSectionName)
    (member : placed ∈ nonSecureSections layout.toBuild image.toNsLinkInput) :
    (placed.name ∈ flashScript ∧ nsPartitionStart layout.toBuild ≤ placed.area.offset ∧
        placed.area.limit ≤ xipBase + (nonSecureSlot layout.toBuild).limit) ∨
      (placed.name ∉ flashScript ∧ 0x20040000 ≤ placed.area.offset ∧
        placed.area.limit ≤ 0x20082000) := by
  obtain ⟨memory, among, inside⟩ := List.mem_flatMap.mp member
  have within := memory_within memory (image.fits memory among) placed inside
  have named : placed.name ∈ memory.names := by
    rw [Memory.names, ← place_names ⟨memory.origin, memory.origin⟩]
    exact List.mem_map_of_mem inside
  have listed (names : List NsSectionName) (items : memory.items = names.map (item image.toNsLinkInput)) :
      placed.name ∈ names := by
    rw [Memory.names, items, List.map_map, List.mem_map] at named
    obtain ⟨name, here, same⟩ := named
    rw [Function.comp_apply, item_name] at same
    exact same ▸ here
  have elsewhere : ∀ name ∈ ramScript ++ scratchXScript ++ scratchYScript, name ∉ flashScript := by
    decide
  have dataStart : nsDataStart = 0x20040000 := by decide
  have dataSize : nsDataSize layout.toBuild = 0x40000 := if_pos image.loaded
  simp only [nsMemories, List.mem_cons, List.not_mem_nil, or_false] at among
  rcases among with rfl | rfl | rfl | rfl
  · have code := code_inside layout image
    have name := listed flashScript rfl
    exact Or.inl ⟨name, Nat.le_trans code.1 within.1, Nat.le_trans within.2 code.2⟩
  · have name := listed ramScript rfl
    refine Or.inr ⟨elsewhere _ (by simp [name]), ?_⟩
    simp only [dataStart, dataSize] at within
    omega
  · have name := listed scratchXScript rfl
    refine Or.inr ⟨elsewhere _ (by simp [name]), ?_⟩
    simp only [sramScratchXBase, scratchXSize] at within
    omega
  · have name := listed scratchYScript rfl
    refine Or.inr ⟨elsewhere _ (by simp [name]), ?_⟩
    simp only [sramScratchYBase, scratchYSize] at within
    omega

/-- The register of ACCESSCTRL in front of an address, for the flash and the RAM. -/
def busTarget (address : Word) : Option AccessCtrlRegOffset :=
  if xipBase ≤ address.toNat ∧ address.toNat < xipBase + flashTotalSize then some .acXipMain
  else PartitionBoundaries.sramBank address

theorem upper_ram_bank (address : Word) (above : 0x20040000 ≤ address.toNat)
    (below : address.toNat < 0x20082000) :
    ∃ bank, PartitionBoundaries.sramBank address = some bank ∧ bank ∈ nsPrivPeriphOffsets := by
  have banked : ∃ bank, PartitionBoundaries.sramBank address = some bank := by
    have four : address.toNat / 4 % 4 < 4 := Nat.mod_lt _ (by decide)
    simp only [PartitionBoundaries.sramBank, BitVec.le_def, BitVec.lt_def, BitVec.reduceToNat]
    rw [if_neg (by omega)]
    split
    · exact ⟨_, List.getElem?_eq_getElem four⟩
    · split
      · exact ⟨_, rfl⟩
      · rw [if_pos (by omega)]
        exact ⟨_, rfl⟩
  obtain ⟨bank, behind⟩ := banked
  refine ⟨bank, behind, ?_⟩
  rcases (PartitionBoundaries.sram_bank_cases address bank behind).2 with ⟨closed, _⟩ | ⟨_, given⟩
  · rw [(rest_bytes address).mpr ⟨above, by omega⟩] at closed
    exact Bool.noConfusion closed
  · exact given

theorem section_bytes (regions : MemoryRegionLimits) (follows : Follows layout regions)
    (placed : Placed NsSectionName)
    (among : placed ∈ nonSecureSections layout.toBuild image.toNsLinkInput) (address : Word)
    (inside : placed.area.Contains address.toNat) :
    inVeneers regions address = false ∧
      inPartition regions address = decide (placed.name ∈ flashScript) ∧
      inRest address = decide (placed.name ∉ flashScript) := by
  obtain ⟨start, stop⟩ := inside
  rcases section_places layout image placed among with ⟨named, above, below⟩ | ⟨named, above, below⟩
  · have device := (non_secure_slot_facts layout).2
    have base : nsPartitionStart layout.toBuild = xipBase + (nonSecureSlot layout.toBuild).offset := rfl
    have slot : AtFlash (nonSecureSlot layout.toBuild) address := by
      unfold AtFlash Area.Contains
      omega
    refine ⟨?_, ?_, ?_⟩
    · rw [Bool.eq_false_iff]
      intro callable
      have secure := (veneers_in_slot layout regions follows address callable).2.2
      have adjacent := slots_adjacent layout.toBuild
      have behind := slot.2.1
      omega
    · rw [decide_eq_true named, partition_bytes layout regions follows]
      exact ⟨image.loaded, slot⟩
    · rw [decide_eq_false (not_not_intro named), Bool.eq_false_iff, ne_eq, rest_bytes]
      simp only [flashTotalSize, xipBase] at *
      omega
  · have ram : sram0Base ≤ address.toNat := Nat.le_trans (by decide) (Nat.le_trans above start)
    obtain ⟨veneers, partition⟩ := ram_not_flash layout regions follows address ram
    refine ⟨veneers, partition.trans (decide_eq_false named).symm, ?_⟩
    rw [decide_eq_true named, rest_bytes]
    omega

theorem section_target (placed : Placed NsSectionName)
    (among : placed ∈ nonSecureSections layout.toBuild image.toNsLinkInput) (address : Word)
    (inside : placed.area.Contains address.toNat) :
    ∃ target ∈ nsPrivPeriphOffsets, busTarget address = some target := by
  obtain ⟨start, stop⟩ := inside
  rcases section_places layout image placed among with ⟨_, above, below⟩ | ⟨_, above, below⟩
  · have device := (non_secure_slot_facts layout).2
    have base : xipBase ≤ nsPartitionStart layout.toBuild := Nat.le_add_right _ _
    exact ⟨.acXipMain, by decide, if_pos (by omega)⟩
  · obtain ⟨bank, behind, given⟩ := upper_ram_bank address (by omega) (by omega)
    refine ⟨bank, given, ?_⟩
    rw [busTarget, if_neg (by simp only [xipBase, flashTotalSize]; omega), behind]

end Image

section Device

variable (config : HalConfig) (layout : Layout) (secure : SecureLink.SecureImage config layout.toBuild)
  (image : NonSecureImage layout.toBuild) (regions : MemoryRegionLimits)
  (links : SecureLink.Linked config layout secure regions) (trustZone : config.useTrustZone = true)

include links trustZone in
/-- However both images fill their sections: once the HAL has set up the filters from the symbols
of the Secure one, every byte of the Non-secure image is its own, open to its code by the SAU and
by the bus, and to the DMA where it lies in RAM. -/
theorem sections_reachable (chip : Chip AccessCtrlRegOffset) (start : Spe)
    (left : LeftDisabled start.platform.soc)
    (success : (tfmHalSetUpStaticBoundaries config
      (SecureLink.linkerSymbols config layout.toBuild secure.toLinkInput) chip regions
      start).2.1 = .success) :
    let platform := (tfmHalSetUpStaticBoundaries config
      (SecureLink.linkerSymbols config layout.toBuild secure.toLinkInput) chip regions start).1.platform
    ∀ placed ∈ nonSecureSections layout.toBuild image.toNsLinkInput, ∀ address : Word,
      placed.area.Contains address.toNat →
        platform.soc.sau.attribution address = .nonSecure ∧
          (platform.soc.dma.nonSecureAccess address = true ↔ placed.name ∉ flashScript) ∧
          (∃ target, busTarget address = some target ∧
            platform.filter.grants target = accessctrlNsPriv) ∧
          ∀ other ∈ SecureLink.secureSections config layout.toBuild secure.toLinkInput,
            ¬ other.area.Contains address.toNat := by
  intro platform placed among address inside
  have follows := SecureLink.linked_follows config layout secure regions links trustZone
  obtain ⟨sau, dma, held⟩ := PartitionBoundaries.set_up_filters config
    (SecureLink.linkerSymbols config layout.toBuild secure.toLinkInput) chip
    (flashRegions layout regions follows) start left success
  obtain ⟨veneers, partition, rest⟩ :=
    section_bytes layout image regions follows placed among address inside
  refine ⟨?_, ?_, ?_, ?_⟩
  · apply (sau address).trans
    change portPartition regions address = _
    rw [portPartition, veneers, partition, rest]
    by_cases named : placed.name ∈ flashScript <;> simp [named]
  · rw [show platform.soc.dma.nonSecureAccess address =
      (inVeneers regions address || inRest address) from dma address, veneers, rest, Bool.false_or,
      decide_eq_true_eq]
  · obtain ⟨target, given, behind⟩ := section_target layout image placed among address inside
    refine ⟨target, behind, ?_⟩
    exact held (target, accessctrlNsPriv) (by simp [BusPolicy.policy, given])
  · intro other member both
    obtain ⟨notPartition, notRest⟩ := SecureLink.linked_closed config layout secure regions links
      trustZone other member address both
    rw [notPartition] at partition
    rw [notRest] at rest
    exact of_decide_eq_false rest.symm (of_decide_eq_false partition.symm)

end Device

section InitialData

variable (layout : Layout) (image : NonSecureImage layout.toBuild)

theorem etext2_inside :
    nsPartitionStart layout.toBuild ≤ etext2 layout.toBuild image.toNsLinkInput ∧
      etext2 layout.toBuild image.toNsLinkInput ≤ xipBase + (nonSecureSlot layout.toBuild).limit := by
  have code := code_inside layout image
  have ordered : (⟨nsCodeStart layout.toBuild, nsCodeStart layout.toBuild⟩ : Counters).Ordered :=
    Nat.le_refl _
  have used := used_le_advance _ (codeScript.map (item image.toNsLinkInput)) ordered
  have behind : _ ≤ _ := advance_ordered _ (codeScript.map (item image.toNsLinkInput)) ordered
  constructor
  · exact Nat.le_trans code.1 (Nat.le_trans used (Nat.le_trans behind (le_align_up 4 _)))
  · apply align_up_le 4 _ _ (by decide)
    · have whole : 4 ∣ flashAreaImageSectorSize := by decide
      have slot := (non_secure_slot_facts layout).1
      have size := Nat.dvd_of_mod_eq_zero layout.nonSecureWhole
      exact Nat.dvd_add (by decide) (Nat.dvd_trans whole (Nat.dvd_add slot size))
    · refine Nat.le_trans (dot_le_bound _ _ _ (Nat.le_add_right _ (nsCodeSize layout.toBuild)) ?_) code.2
      intro placed member
      apply image.fits _ List.mem_cons_self placed
      rw [Memory.placed, flashScript, List.map_append, place_append]
      exact List.mem_append_left _ member

theorem initial_data_size : (initialData layout.toBuild image.toNsLinkInput).size ≤ 0x42000 := by
  have among : (item image.toNsLinkInput .data).put ⟨nsDataStart, nsDataStart⟩ ∈
      nonSecureSections layout.toBuild image.toNsLinkInput :=
    List.mem_flatMap_of_mem (List.mem_cons_of_mem _ List.mem_cons_self) List.mem_cons_self
  rcases section_places layout image _ among with ⟨named, _⟩ | ⟨_, above, below⟩
  · exact absurd named (show NsSectionName.data ∉ flashScript by decide)
  · rw [show (initialData layout.toBuild image.toNsLinkInput).size =
      ((item image.toNsLinkInput .data).put ⟨nsDataStart, nsDataStart⟩).area.size from rfl]
    unfold Area.limit at below
    omega

theorem slot_ends (regions : MemoryRegionLimits) (follows : Follows layout regions) (address : Word)
    (behind : address.toNat = xipBase + (nonSecureSlot layout.toBuild).limit) :
    portPartition regions address ≠ .nonSecure := by
  have device := (non_secure_slot_facts layout).2
  have notPartition : inPartition regions address = false := by
    rw [Bool.eq_false_iff, ne_eq, partition_bytes layout regions follows]
    rintro ⟨_, _, _, before⟩
    omega
  have notRest : inRest address = false := by
    rw [Bool.eq_false_iff, ne_eq, rest_bytes]
    simp only [xipBase, flashTotalSize] at *
    omega
  rw [portPartition, notPartition, notRest]
  split <;> simp

/-- The linker checks that every section fits its memory, but not where the initial data ends:
the Non-secure start-up code can read all of it exactly when it ends with the partition. -/
theorem initial_data_readable_iff (regions : MemoryRegionLimits) (follows : Follows layout regions)
    (platform : Platform) (left : LeftDisabled platform.soc) :
    let soc := (configureAddresses regions platform).soc
    (∀ address : Word, (initialData layout.toBuild image.toNsLinkInput).Contains address.toNat →
      soc.sau.attribution address = .nonSecure) ↔
      (initialData layout.toBuild image.toNsLinkInput).limit ≤
        nsPartitionStart layout.toBuild + nsPartitionSize layout.toBuild := by
  intro soc
  have sau (address : Word) : soc.sau.attribution address = portPartition regions address :=
    follows_sau layout regions follows platform left address
  have device := (non_secure_slot_facts layout).2
  have stop : nsPartitionStart layout.toBuild + nsPartitionSize layout.toBuild =
      xipBase + (nonSecureSlot layout.toBuild).limit := by
    simp only [nsPartitionStart, nsPartitionSize, image.loaded, if_true, nonSecureSlot, Area.limit]
    omega
  have base : nsPartitionStart layout.toBuild = xipBase + (nonSecureSlot layout.toBuild).offset := rfl
  obtain ⟨behind, before⟩ := etext2_inside layout image
  have size := initial_data_size layout image
  rw [stop]
  constructor
  · intro readable
    by_contra beyond
    -- the first byte behind the partition
    have word : (BitVec.ofNat 32 (xipBase + (nonSecureSlot layout.toBuild).limit)).toNat =
        xipBase + (nonSecureSlot layout.toBuild).limit := by
      apply Nat.mod_eq_of_lt
      simp only [xipBase, flashTotalSize] at *
      omega
    apply slot_ends layout regions follows _ word
    rw [← sau]
    apply readable
    rw [word]
    exact ⟨before, Nat.lt_of_not_le beyond⟩
  · rintro ends address ⟨start, stop⟩
    have first : etext2 layout.toBuild image.toNsLinkInput ≤ address.toNat := start
    have slot : AtFlash (nonSecureSlot layout.toBuild) address := by
      unfold AtFlash Area.Contains
      omega
    rw [sau, slot_partition layout regions follows address slot, image.loaded, if_pos rfl]

end InitialData

def sampleNonSecure : NonSecureImage referenceLayout.toBuild where
  movesCounter := false
  size := fun name => if name ∈ ([.scratchX, .scratchY, .scratchXLoad, .scratchYLoad] :
    List NsSectionName) then 0 else 64
  natural := fun _ => 4
  collected := fun _ => false
  loaded := by decide
  room := by decide
  vectorsFit := by decide
  fits := by decide

theorem both_images_reachable :
    let platform := (tfmHalSetUpStaticBoundaries PartitionBoundaries.sampleConfig
      (SecureLink.linkerSymbols PartitionBoundaries.sampleConfig referenceLayout.toBuild
        SecureLink.sampleImage.toLinkInput) BusPolicy.documentedChip SecureLink.imageRegions
      PartitionBoundaries.sampleSpe).1.platform
    ∀ placed ∈ nonSecureSections referenceLayout.toBuild sampleNonSecure.toNsLinkInput,
      ∀ address : Word, placed.area.Contains address.toNat →
        platform.soc.sau.attribution address = .nonSecure ∧
          (platform.soc.dma.nonSecureAccess address = true ↔ placed.name ∉ flashScript) ∧
          (∃ target, busTarget address = some target ∧
            platform.filter.grants target = accessctrlNsPriv) ∧
          ∀ other ∈ SecureLink.secureSections PartitionBoundaries.sampleConfig
              referenceLayout.toBuild SecureLink.sampleImage.toLinkInput,
            ¬ other.area.Contains address.toNat :=
  sections_reachable PartitionBoundaries.sampleConfig referenceLayout SecureLink.sampleImage
    sampleNonSecure SecureLink.imageRegions SecureLink.image_linked rfl BusPolicy.documentedChip
    PartitionBoundaries.sampleSpe reset_left
    (PartitionBoundaries.sample_succeeds _ SecureLink.imageRegions)

theorem sample_data_readable_iff :
    let regions := sampleRegions.toMemoryRegionLimits
    let soc := (configureAddresses regions samplePlatform).soc
    (∀ address : Word,
      (initialData referenceLayout.toBuild sampleNonSecure.toNsLinkInput).Contains address.toNat →
        soc.sau.attribution address = .nonSecure) ↔
      (initialData referenceLayout.toBuild sampleNonSecure.toNsLinkInput).limit ≤
        nsPartitionStart referenceLayout.toBuild + nsPartitionSize referenceLayout.toBuild :=
  initial_data_readable_iff referenceLayout sampleNonSecure sampleRegions.toMemoryRegionLimits
    sample_follows samplePlatform reset_left

end Rp2350Tee.NonSecureLink
