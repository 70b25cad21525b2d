import Rp2350Tee.FlashLayout
import Rp2350Tee.PartitionRuns
import Rp2350Tee.SectionLayout

/-!
`reference/linker_s.ld`: the sections of the Secure image in the memories of the script, and
what the boundaries of the HAL make of them. What the script collects into a section is a
parameter, as are the alignments of `tfm_s_linker_alignments.h` and the sizes of the copies
in flash. The empty `.sgstubs_end` moves no counter, so a section with an alignment of its own
can begin right behind the stubs, in a granule that the veneers' regions cover to its end.
A build that runs code from a RAM of its own is not modelled.
-/

namespace Rp2350Tee.SecureLink

open TzConfig BusFilter TargetConfig ArmMpu TfmIsolation RegionTable AreaMap SectionLayout FlashLayout

/-- The sections, the symbols that the script puts between two of them, and the copies in flash
that the start-up code loads into RAM. -/
inductive SectionName where
  | tfmVectors | picoReset | sgstubs | sgstubsEnd | tfmSpLoadList | tfmPsaRotLinker
  | tfmAppCodeStart | tfmAppRotLinker | tfmAppCodeEnd | armExtab | armExidx | binaryInfo | erTfmCode
  | tfmUnprivCode | tfmAppRotLinkerDataLoad | tfmPsaRotLinkerDataLoad | tfmDataLoad | scratchXLoad
  | scratchYLoad
  | tfmSecureDataStart | tfmSharedSymbols | tfmBl2SharedData | mspStack | mspStackSealRes
  | ramVectorTable | heap | tfmSpMetaPtr | tfmAppRwStackStart | tfmAppRotLinkerData
  | tfmAppRotLinkerBss | tfmAppRwStackEnd | tfmPsaRotLinkerData | tfmPsaRotLinkerBss | ramVectors
  | tfmData | uninitializedData | tfmBss
  | scratchX | stack1Dummy | scratchY | stackDummy
  deriving DecidableEq

/-- The `TFM_LINKER_…_ALIGNMENT` that the script uses. -/
structure Alignments where
  veneers : Nat
  psaRotLinkerCode : Nat
  appRotLinkerCode : Nat
  unprivCode : Nat
  sharedSymbols : Nat
  bl2SharedData : Nat
  mspStack : Nat
  spMetaPtr : Nat
  appRotLinkerData : Nat
  psaRotLinkerData : Nat
  ramVectors : Nat

/-- The alignments of the sections that get MPU regions, and of what borders on them. -/
def Alignments.bounds (alignments : Alignments) : List Nat :=
  [alignments.veneers, alignments.psaRotLinkerCode, alignments.appRotLinkerCode,
    alignments.unprivCode, alignments.spMetaPtr, alignments.appRotLinkerData]

/-- `size` is that of the input sections with what the script fills in between, `natural`
the largest alignment among them; `collected` tells if there are any, were they empty. -/
structure LinkInput where
  veneersLocationEnd : Bool
  codeSharing : Bool
  enableHeap : Bool
  ramVectorsSupport : Bool
  sharedSymbolAreaSize : Nat
  alignments : Alignments
  size : SectionName → Nat
  natural : SectionName → Nat
  collected : SectionName → Bool

def bootTfmSharedDataSize : Nat := 0x400
def sMspStackSize : Nat := 0x800
def sHeapSize : Nat := 0x200

section Script

variable (config : HalConfig) (build : Build) (input : LinkInput)

def veneers : List SectionName := [.sgstubs, .sgstubsEnd]

def flashScript : List SectionName :=
  [.tfmVectors, .picoReset] ++ (if input.veneersLocationEnd then [] else veneers) ++
    [.tfmSpLoadList, .tfmPsaRotLinker, .tfmAppCodeStart, .tfmAppRotLinker, .tfmAppCodeEnd, .armExtab,
      .armExidx, .binaryInfo, .erTfmCode, .tfmUnprivCode] ++
    (if input.veneersLocationEnd then veneers else []) ++
    [.tfmAppRotLinkerDataLoad, .tfmPsaRotLinkerDataLoad, .tfmDataLoad, .scratchXLoad, .scratchYLoad]

def ramScript : List SectionName :=
  [.tfmSecureDataStart, .tfmSharedSymbols, .tfmBl2SharedData, .mspStack, .mspStackSealRes,
    .ramVectorTable, .heap, .tfmSpMetaPtr, .tfmAppRwStackStart, .tfmAppRotLinkerData,
    .tfmAppRotLinkerBss, .tfmAppRwStackEnd, .tfmPsaRotLinkerData, .tfmPsaRotLinkerBss, .ramVectors,
    .tfmData, .uninitializedData, .tfmBss]

def scratchXScript : List SectionName := [.scratchX, .stack1Dummy]
def scratchYScript : List SectionName := [.scratchY, .stackDummy]

/-- The `#if` around a section. -/
def present : SectionName → Bool
  | .sgstubs | .sgstubsEnd => config.useTrustZone
  | .tfmSharedSymbols => input.codeSharing
  | .heap => input.enableHeap
  | .tfmSpMetaPtr => config.partitionMeta
  | .ramVectors => input.ramVectorsSupport
  | _ => true

/-- `. += (. - start) ? 0 : 4;` -/
def neverEmpty (size : Nat) : Nat := if size = 0 then 4 else size

/-- An address expression replaces the alignment of the contents, `: ALIGN` adds to it. -/
def item (name : SectionName) : Item SectionName :=
  let alignments := input.alignments
  let natural := input.natural name
  let size := input.size name
  -- with an assignment to `.` inside
  let whenEmpty := if input.collected name then .counted else .kept
  match name with
  | .tfmVectors => ⟨name, false, max 4 natural, size, 4, whenEmpty⟩
  | .picoReset => ⟨name, false, max 4 natural, size, 1, .dropped⟩
  | .sgstubs => ⟨name, true, alignments.veneers, size, 1, .dropped⟩
  | .sgstubsEnd => ⟨name, false, alignments.veneers, 0, 1, .dropped⟩
  | .tfmSpLoadList => ⟨name, true, 4, size, 1, .dropped⟩
  | .tfmPsaRotLinker =>
      ⟨name, true, alignments.psaRotLinkerCode, size, alignments.psaRotLinkerCode, whenEmpty⟩
  | .tfmAppRotLinker =>
      ⟨name, true, alignments.appRotLinkerCode, size, alignments.appRotLinkerCode, whenEmpty⟩
  | .armExtab | .armExidx | .binaryInfo => ⟨name, false, natural, size, 1, .dropped⟩
  -- a load address is not aligned
  | .tfmAppRotLinkerDataLoad | .tfmPsaRotLinkerDataLoad | .tfmDataLoad | .scratchXLoad
  | .scratchYLoad => ⟨name, false, 1, size, 1, .dropped⟩
  | .erTfmCode => ⟨name, true, 4, size, 1, whenEmpty⟩
  | .tfmUnprivCode => ⟨name, true, alignments.unprivCode, size, alignments.unprivCode, whenEmpty⟩
  | .tfmSecureDataStart => ⟨name, false, 1, 0, 4, whenEmpty⟩
  | .tfmSharedSymbols => ⟨name, true, alignments.sharedSymbols, input.sharedSymbolAreaSize, 1, whenEmpty⟩
  | .tfmBl2SharedData => ⟨name, true, alignments.bl2SharedData, bootTfmSharedDataSize, 1, whenEmpty⟩
  | .mspStack => ⟨name, true, alignments.mspStack, sMspStackSize - 0x8, 1, whenEmpty⟩
  | .mspStackSealRes => ⟨name, false, 1, 0x8, 1, whenEmpty⟩
  | .ramVectorTable => ⟨name, false, max 256 natural, size, 1, .dropped⟩
  | .heap => ⟨name, false, max 8 natural, size + sHeapSize, 1, whenEmpty⟩
  | .tfmSpMetaPtr => ⟨name, true, alignments.spMetaPtr, size, alignments.spMetaPtr, whenEmpty⟩
  | .tfmAppRwStackStart => ⟨name, true, alignments.appRotLinkerData, 0, 1, .dropped⟩
  | .tfmAppRotLinkerData => ⟨name, true, alignments.appRotLinkerData, size, 4, whenEmpty⟩
  | .tfmAppRotLinkerBss => ⟨name, true, 4, neverEmpty size, alignments.appRotLinkerData, whenEmpty⟩
  | .tfmAppCodeStart | .tfmAppCodeEnd | .tfmAppRwStackEnd => mark name
  | .tfmPsaRotLinkerData => ⟨name, true, alignments.psaRotLinkerData, size, 4, whenEmpty⟩
  | .tfmPsaRotLinkerBss => ⟨name, true, 4, neverEmpty size, alignments.psaRotLinkerData, whenEmpty⟩
  | .ramVectors => ⟨name, true, alignments.ramVectors, size, 1, .dropped⟩
  -- behind the RAM vectors the section begins where these end
  | .tfmData => ⟨name, true, if input.ramVectorsSupport then 1 else 4, size, 4, whenEmpty⟩
  | .uninitializedData => ⟨name, false, natural, size, 1, whenEmpty⟩
  | .tfmBss => ⟨name, true, 4, size, 4, whenEmpty⟩
  | .scratchX | .scratchY => ⟨name, false, natural, size, 4, whenEmpty⟩
  | .stack1Dummy | .stackDummy => ⟨name, false, natural, size, 1, .dropped⟩

def linked (script : List SectionName) : List (Item SectionName) :=
  (script.filter (present config input)).map (item input)

/-- `MEMORY`, each with the sections that are put there. -/
def memories : List (Memory SectionName) :=
  [⟨sCodeStart build, imageSCodeSize build, linked config input (flashScript input)⟩,
    ⟨sDataStart, sDataSize, linked config input ramScript⟩,
    ⟨scratchXStart, scratchXSize, linked config input scratchXScript⟩,
    ⟨scratchYStart, scratchYSize, linked config input scratchYScript⟩]

def secureSections : List (Placed SectionName) := placeAll (memories config build input)

/-- `ADDR`, or the value of a symbol. What a build leaves out has no use for its symbols. -/
def addr (name : SectionName) : Nat :=
  match find (secureSections config build input) name with
  | some area => area.offset
  | none => 0

/-- `ADDR` and `SIZEOF`. -/
def addrEnd (name : SectionName) : Nat :=
  match find (secureSections config build input) name with
  | some area => area.limit
  | none => 0

def linkerSymbols : LinkerSymbols where
  erVeneerBase := BitVec.ofNat 32 (addr config build input .sgstubs)
  veneerAlignLimit := BitVec.ofNat 32 (addr config build input .sgstubsEnd)
  unprivCodeStart := BitVec.ofNat 32 (addr config build input .tfmUnprivCode)
  unprivCodeEnd := BitVec.ofNat 32 (addrEnd config build input .tfmUnprivCode)
  appCodeStart := BitVec.ofNat 32 (addr config build input .tfmAppCodeStart)
  appCodeEnd := BitVec.ofNat 32 (addr config build input .tfmAppCodeEnd)
  appRwStackStart := BitVec.ofNat 32 (addr config build input .tfmAppRwStackStart)
  appRwStackEnd := BitVec.ofNat 32 (addr config build input .tfmAppRwStackEnd)
  spMetaPtr := BitVec.ofNat 32 (addr config build input .tfmSpMetaPtr)
  spMetaPtrEnd := BitVec.ofNat 32 (addrEnd config build input .tfmSpMetaPtr)

/-- Behind the stubs, in the granule that the veneers' regions cover to its end. -/
def InVeneerGap (position : Nat) : Prop :=
  addrEnd config build input .sgstubs ≤ position ∧ position < addr config build input .sgstubsEnd

instance (position : Nat) : Decidable (InVeneerGap config build input position) :=
  inferInstanceAs (Decidable (_ ∧ _))

end Script

/-- What links, with regions that begin and end with granules of the MPU. That an empty section,
a symbol or the end of the veneers lies in the memory is not checked by the linker; that the
application code needs no larger alignment than the code before it is left to the header of the
alignments. -/
structure SecureImage (config : HalConfig) (build : Build) extends LinkInput where
  granules : ∀ unit ∈ alignments.bounds, 0 < unit ∧ 32 ∣ unit
  codeAlignment : alignments.appRotLinkerCode ∣ alignments.psaRotLinkerCode
  fits : ∀ memory ∈ memories config build toLinkInput, memory.Fits

section Order

variable (config : HalConfig) (build : Build) (input : LinkInput)

theorem item_name (name : SectionName) : (item input name).name = name := by
  cases name <;> rfl

theorem linked_names (script : List SectionName) :
    (linked config input script).map Item.name = script.filter (present config input) := by
  rw [linked, List.map_map]
  exact (List.map_congr_left fun name _ => item_name input name).trans (List.map_id _)

def ramNames : List SectionName := ramScript ++ scratchXScript ++ scratchYScript

def script : List SectionName := flashScript input ++ ramNames

theorem script_distinct : (script input).Nodup := by
  unfold script flashScript
  cases input.veneersLocationEnd <;> decide

theorem script_complete (name : SectionName) : name ∈ script input := by
  unfold script flashScript
  cases input.veneersLocationEnd <;> cases name <;> decide

theorem section_names : (secureSections config build input).map Placed.name =
    (script input).filter (present config input) := by
  rw [secureSections, place_all_names]
  simp [memories, Memory.names, linked_names, script, ramNames, List.filter_append]

theorem section_distinct : ((secureSections config build input).map Placed.name).Nodup := by
  rw [section_names]
  exact (script_distinct input).filter _

theorem memory_linked (memory : Memory SectionName) (member : memory ∈ memories config build input) :
    ∃ names, memory.items = linked config input names := by
  simp only [memories, List.mem_cons, List.not_mem_nil, or_false] at member
  rcases member with rfl | rfl | rfl | rfl <;> exact ⟨_, rfl⟩

theorem section_put (placed : Placed SectionName)
    (member : placed ∈ secureSections config build input) :
    ∃ counters, placed = (item input placed.name).put counters := by
  obtain ⟨memory, among, inside⟩ := List.mem_flatMap.mp member
  obtain ⟨entry, listed, counters, rfl⟩ := place_put _ _ placed inside
  obtain ⟨names, items⟩ := memory_linked config build input memory among
  rw [items] at listed
  obtain ⟨name, _, rfl⟩ := List.mem_map.mp listed
  rw [show ((item input name).put counters).name = name from item_name input name]
  exact ⟨counters, rfl⟩

theorem section_run (memory : Memory SectionName) (among : memory ∈ memories config build input)
    (names part : List SectionName) (items : memory.items = linked config input names)
    (order : part <:+: names) (here : ∀ name ∈ part, present config input name = true) :
    ∃ counters : Counters, counters.Ordered ∧
      ∀ placed ∈ place counters (part.map (item input)),
        placed ∈ secureSections config build input := by
  have kept := order.filter (present config input)
  rw [List.filter_eq_self.mpr here] at kept
  obtain ⟨counters, ordered, members⟩ := place_infix ⟨memory.origin, memory.origin⟩ memory.items
    (Nat.le_refl memory.origin) (part.map (item input)) (items ▸ kept.map (item input))
  exact ⟨counters, ordered,
    fun placed member => List.mem_flatMap_of_mem among (members placed member)⟩

theorem section_addr (placed : Placed SectionName)
    (member : placed ∈ secureSections config build input) :
    addr config build input placed.name = placed.area.offset ∧
      addrEnd config build input placed.name = placed.area.limit := by
  have found := find_member _ (section_distinct config build input) placed member
  unfold addr addrEnd
  rw [found]
  exact ⟨rfl, rfl⟩

theorem section_present (name : SectionName) (here : present config input name = true) :
    ∃ placed ∈ secureSections config build input, placed.name = name := by
  have listed : name ∈ (secureSections config build input).map Placed.name := by
    rw [section_names]
    exact List.mem_filter.mpr ⟨script_complete input name, here⟩
  obtain ⟨placed, member, named⟩ := List.mem_map.mp listed
  exact ⟨placed, member, named⟩

theorem section_absent (name : SectionName) (absent : present config input name = false) :
    addr config build input name = 0 ∧ addrEnd config build input name = 0 := by
  have none : find (secureSections config build input) name = none := by
    apply find_absent
    rw [section_names, List.mem_filter, absent]
    simp
  unfold addr addrEnd
  rw [none]
  exact ⟨rfl, rfl⟩

theorem put_addr (name : SectionName) (counters : Counters)
    (member : (item input name).put counters ∈ secureSections config build input) :
    addr config build input name = (item input name).start counters ∧
      addrEnd config build input name = (item input name).stop counters := by
  have found := section_addr config build input _ member
  rw [put_limit] at found
  rwa [show ((item input name).put counters).name = name from item_name input name] at found

/-- The addresses of a name are those of its item, or zero in a build that leaves it out. -/
theorem addr_cases (name : SectionName) :
    (addr config build input name = 0 ∧ addrEnd config build input name = 0) ∨
      ∃ counters, addr config build input name = (item input name).start counters ∧
        addrEnd config build input name = (item input name).stop counters := by
  cases here : present config input name with
  | false => exact Or.inl (section_absent config build input name here)
  | true =>
      obtain ⟨placed, member, rfl⟩ := section_present config build input name here
      obtain ⟨counters, put⟩ := section_put config build input placed member
      rw [put] at member
      exact Or.inr ⟨counters, put_addr config build input placed.name counters member⟩

theorem addr_le_end (name : SectionName) :
    addr config build input name ≤ addrEnd config build input name := by
  rcases addr_cases config build input name with ⟨start, stop⟩ | ⟨counters, start, stop⟩
  · rw [start, stop]
  · rw [start, stop]
    exact start_le_stop _ counters

theorem symbol_end (name : SectionName) (none : (item input name).size = 0)
    (plain : (item input name).endAlign ≤ 1) :
    addrEnd config build input name = addr config build input name := by
  rcases addr_cases config build input name with ⟨start, stop⟩ | ⟨counters, start, stop⟩
  · rw [start, stop]
  · rw [start, stop, empty_stop _ counters none plain]

end Order

section Image

variable (config : HalConfig) (layout : Layout) (image : SecureImage config layout.toBuild)

theorem flash_below_ram :
    sCodeStart layout.toBuild + imageSCodeSize layout.toBuild ≤ xipBase + flashTotalSize := by
  have code := secure_code_inside layout
  have slot := (non_secure_slot_facts layout).2
  have adjacent := slots_adjacent layout.toBuild
  have behind : (nonSecureSlot layout.toBuild).offset ≤ (nonSecureSlot layout.toBuild).limit :=
    Nat.le_add_right _ _
  simp only [sCodeLimit] at code
  omega

theorem sections_before :
    (secureSections config layout.toBuild image.toLinkInput).Pairwise Before := by
  apply place_all_before _ image.fits
  have code := flash_below_ram layout
  simp only [xipBase, flashTotalSize] at code
  simp only [memories, List.pairwise_cons, List.mem_cons, List.not_mem_nil, or_false,
    forall_eq_or_imp, forall_eq, false_imp_iff, implies_true, List.Pairwise.nil, and_true,
    scratchYStart, scratchXSize, scratchXStart, bl2DataStart, bl2DataSize, sDataStart, sDataSize,
    sram0Base]
  omega

theorem section_places (placed : Placed SectionName)
    (member : placed ∈ secureSections config layout.toBuild image.toLinkInput) :
    (sCodeStart layout.toBuild ≤ placed.area.offset ∧
        placed.area.limit ≤ sCodeStart layout.toBuild + imageSCodeSize layout.toBuild) ∨
      (placed.name ∈ ramNames ∧ sDataStart ≤ placed.area.offset ∧
        placed.area.limit ≤ scratchYStart + scratchYSize) := by
  obtain ⟨memory, among, inside⟩ := List.mem_flatMap.mp member
  have within := memory_within memory (image.fits memory among) placed inside
  have named : placed.name ∈ memory.names := by
    rw [Memory.names, ← place_names ⟨memory.origin, memory.origin⟩]
    exact List.mem_map_of_mem inside
  simp only [memories, List.mem_cons, List.not_mem_nil, or_false] at among
  rcases among with rfl | rfl | rfl | rfl
  · exact Or.inl within
  all_goals
    rw [Memory.names, linked_names] at named
    have listed := (List.mem_filter.mp named).1
    right
    refine ⟨?_, ?_⟩
    · simp [ramNames, listed]
    · simp only [scratchYStart, scratchYSize, scratchXSize, scratchXStart, bl2DataStart, bl2DataSize,
        sDataStart, sDataSize, sram0Base] at within ⊢
      omega

theorem section_bounds (placed : Placed SectionName)
    (member : placed ∈ secureSections config layout.toBuild image.toLinkInput) :
    xipBase ≤ placed.area.offset ∧ placed.area.limit ≤ scratchYStart + scratchYSize := by
  have code := flash_below_ram layout
  have start : xipBase ≤ sCodeStart layout.toBuild := Nat.le_add_right _ _
  have places := section_places config layout image placed member
  simp only [scratchYStart, scratchYSize, scratchXSize, scratchXStart, bl2DataStart, bl2DataSize,
    sDataStart, sDataSize, sram0Base, xipBase, flashTotalSize] at *
  omega

/-- A byte of a section lies between the addresses of the sections listed exactly if its own is
one of them. -/
theorem listed_bytes (placed : Placed SectionName)
    (among : placed ∈ secureSections config layout.toBuild image.toLinkInput) (position : Nat)
    (inside : placed.area.Contains position) (names : List SectionName) :
    (∃ name ∈ names, addr config layout.toBuild image.toLinkInput name ≤ position ∧
        position < addrEnd config layout.toBuild image.toLinkInput name) ↔
      placed.name ∈ names := by
  constructor
  · rintro ⟨name, listed, above, below⟩
    cases here : present config image.toLinkInput name with
    | false =>
        rw [(section_absent config layout.toBuild image.toLinkInput name here).2] at below
        exact absurd below (Nat.not_lt_zero position)
    | true =>
        obtain ⟨other, member, rfl⟩ :=
          section_present config layout.toBuild image.toLinkInput name here
        obtain ⟨start, stop⟩ := section_addr config layout.toBuild image.toLinkInput other member
        rw [start] at above
        rw [stop] at below
        rw [before_unique _ (sections_before config layout image) placed other among member position
          inside ⟨above, below⟩]
        exact listed
  · intro listed
    obtain ⟨start, stop⟩ := section_addr config layout.toBuild image.toLinkInput placed among
    exact ⟨placed.name, listed, by rw [start]; exact inside.1, by rw [stop]; exact inside.2⟩

theorem own_start (name : SectionName)
    (bound : (item image.toLinkInput name).startAlign ∈ image.alignments.bounds) :
    32 ∣ addr config layout.toBuild image.toLinkInput name := by
  obtain ⟨positive, divides⟩ := image.granules _ bound
  rcases addr_cases config layout.toBuild image.toLinkInput name with ⟨start, _⟩ | ⟨counters, start, _⟩
  · rw [start]
    exact Nat.dvd_zero 32
  · rw [start]
    exact align_up_dvd 32 _ _ positive divides

theorem own_end (name : SectionName)
    (bound : (item image.toLinkInput name).endAlign ∈ image.alignments.bounds) :
    32 ∣ addrEnd config layout.toBuild image.toLinkInput name := by
  obtain ⟨positive, divides⟩ := image.granules _ bound
  rcases addr_cases config layout.toBuild image.toLinkInput name with ⟨_, stop⟩ | ⟨counters, _, stop⟩
  · rw [stop]
    exact Nat.dvd_zero 32
  · rw [stop]
    exact align_up_dvd 32 _ _ positive divides

/-- The symbols around the application code stand where it begins and ends. -/
theorem code_edges :
    addr config layout.toBuild image.toLinkInput .tfmAppCodeStart =
        addr config layout.toBuild image.toLinkInput .tfmAppRotLinker ∧
      addrEnd config layout.toBuild image.toLinkInput .tfmAppCodeEnd =
        addrEnd config layout.toBuild image.toLinkInput .tfmAppRotLinker := by
  obtain ⟨own, _, members⟩ := section_run config layout.toBuild image.toLinkInput _ List.mem_cons_self
    (flashScript image.toLinkInput)
    [.tfmPsaRotLinker, .tfmAppCodeStart, .tfmAppRotLinker, .tfmAppCodeEnd] rfl
    (by unfold flashScript; cases image.veneersLocationEnd <;> decide) (fun name listed => by
      simp only [List.mem_cons, List.not_mem_nil, or_false] at listed
      rcases listed with rfl | rfl | rfl | rfl <;> rfl)
  have behind := next_dot (item image.toLinkInput .tfmPsaRotLinker) own rfl
  generalize whole : (item image.toLinkInput .tfmPsaRotLinker).next own = counters at behind
  have start := put_addr config layout.toBuild image.toLinkInput .tfmAppCodeStart counters
    (members _ (whole ▸ List.mem_cons_of_mem _ List.mem_cons_self))
  obtain ⟨begins, _, still⟩ := mark_edges SectionName.tfmAppCodeStart counters
  have code := put_addr config layout.toBuild image.toLinkInput .tfmAppRotLinker counters (members _ (by
    rw [← still, ← whole]
    exact List.mem_cons_of_mem _ (List.mem_cons_of_mem _ List.mem_cons_self)))
  have stop := put_addr config layout.toBuild image.toLinkInput .tfmAppCodeEnd
    ((item image.toLinkInput .tfmAppRotLinker).next counters) (members _ (by
      rw [← still, ← whole]
      exact List.mem_cons_of_mem _ (List.mem_cons_of_mem _ (List.mem_cons_of_mem _
        List.mem_cons_self))))
  have ends := (mark_edges SectionName.tfmAppCodeEnd
    ((item image.toLinkInput .tfmAppRotLinker).next counters)).2.1
  have positive := (image.granules image.alignments.psaRotLinkerCode (by simp [Alignments.bounds])).1
  constructor
  · rw [start.1, code.1]
    apply begins.trans
    refine (align_up_of_dvd image.alignments.appRotLinkerCode counters.dot ?_).symm
    rw [behind]
    exact align_up_dvd _ _ _ positive image.codeAlignment
  · rw [stop.2, code.2]
    exact ends.trans (next_dot _ counters rfl)

theorem stack_edges :
    addr config layout.toBuild image.toLinkInput .tfmAppRwStackStart =
        addr config layout.toBuild image.toLinkInput .tfmAppRotLinkerData ∧
      addrEnd config layout.toBuild image.toLinkInput .tfmAppRotLinkerData =
        addr config layout.toBuild image.toLinkInput .tfmAppRotLinkerBss ∧
      addrEnd config layout.toBuild image.toLinkInput .tfmAppRwStackEnd =
        addrEnd config layout.toBuild image.toLinkInput .tfmAppRotLinkerBss := by
  obtain ⟨own, _, members⟩ := section_run config layout.toBuild image.toLinkInput _
    (List.mem_cons_of_mem _ List.mem_cons_self) ramScript
    [.tfmAppRwStackStart, .tfmAppRotLinkerData, .tfmAppRotLinkerBss, .tfmAppRwStackEnd] rfl
    (by decide) (fun name listed => by
      simp only [List.mem_cons, List.not_mem_nil, or_false] at listed
      rcases listed with rfl | rfl | rfl | rfl <;> rfl)
  have start := put_addr config layout.toBuild image.toLinkInput .tfmAppRwStackStart own
    (members _ List.mem_cons_self)
  have behind := next_dot (item image.toLinkInput .tfmAppRwStackStart) own rfl
  generalize first : (item image.toLinkInput .tfmAppRwStackStart).next own = counters at behind
  have data := put_addr config layout.toBuild image.toLinkInput .tfmAppRotLinkerData counters
    (members _ (first ▸ List.mem_cons_of_mem _ List.mem_cons_self))
  have filled := next_dot (item image.toLinkInput .tfmAppRotLinkerData) counters rfl
  generalize second : (item image.toLinkInput .tfmAppRotLinkerData).next counters = further at filled
  have bss := put_addr config layout.toBuild image.toLinkInput .tfmAppRotLinkerBss further (members _ (by
    rw [← second, ← first]
    exact List.mem_cons_of_mem _ (List.mem_cons_of_mem _ List.mem_cons_self)))
  have stop := put_addr config layout.toBuild image.toLinkInput .tfmAppRwStackEnd
    ((item image.toLinkInput .tfmAppRotLinkerBss).next further) (members _ (by
      rw [← second, ← first]
      exact List.mem_cons_of_mem _ (List.mem_cons_of_mem _ (List.mem_cons_of_mem _
        List.mem_cons_self))))
  have ends := (mark_edges SectionName.tfmAppRwStackEnd
    ((item image.toLinkInput .tfmAppRotLinkerBss).next further)).2.1
  have positive := (image.granules image.alignments.appRotLinkerData (by simp [Alignments.bounds])).1
  refine ⟨?_, ?_, ?_⟩
  · rw [start.1, data.1]
    have same : counters.dot = (item image.toLinkInput .tfmAppRwStackStart).start own :=
      behind.trans (empty_stop _ own rfl (Nat.le_refl 1))
    rw [← same]
    refine (align_up_of_dvd image.alignments.appRotLinkerData counters.dot ?_).symm
    rw [same]
    exact align_up_dvd _ image.alignments.appRotLinkerData _ positive (Nat.dvd_refl _)
  · rw [data.2, bss.1, ← filled]
    refine (align_up_of_dvd 4 further.dot ?_).symm
    rw [filled]
    exact align_up_dvd _ 4 _ (by decide) (Nat.dvd_refl 4)
  · rw [stop.2, bss.2]
    exact ends.trans (next_dot _ further rfl)

theorem veneers_put (trustZone : config.useTrustZone = true) :
    ∃ own : Counters, own.Ordered ∧
      (addr config layout.toBuild image.toLinkInput .sgstubs =
          (item image.toLinkInput .sgstubs).start own ∧
        addrEnd config layout.toBuild image.toLinkInput .sgstubs =
          (item image.toLinkInput .sgstubs).stop own) ∧
      addr config layout.toBuild image.toLinkInput .sgstubsEnd =
        alignUp image.alignments.veneers ((item image.toLinkInput .sgstubs).next own).used := by
  obtain ⟨own, ordered, members⟩ := section_run config layout.toBuild image.toLinkInput _
    List.mem_cons_self (flashScript image.toLinkInput) veneers rfl
    (by unfold flashScript; cases image.veneersLocationEnd <;> decide) (fun name listed => by
      simp only [veneers, List.mem_cons, List.not_mem_nil, or_false] at listed
      rcases listed with rfl | rfl <;> exact trustZone)
  have stubs := put_addr config layout.toBuild image.toLinkInput .sgstubs own
    (members _ List.mem_cons_self)
  have limit := put_addr config layout.toBuild image.toLinkInput .sgstubsEnd
    ((item image.toLinkInput .sgstubs).next own)
    (members _ (List.mem_cons_of_mem _ List.mem_cons_self))
  exact ⟨own, ordered, stubs, limit.1⟩

/-- The veneers' limit is not before the end of the stubs, if there are any. -/
theorem veneer_edges (trustZone : config.useTrustZone = true)
    (some : addr config layout.toBuild image.toLinkInput .sgstubs <
      addrEnd config layout.toBuild image.toLinkInput .sgstubs) :
    addrEnd config layout.toBuild image.toLinkInput .sgstubs ≤
      addr config layout.toBuild image.toLinkInput .sgstubsEnd := by
  obtain ⟨own, _, ⟨start, stop⟩, limit⟩ := veneers_put config layout image trustZone
  rw [start, stop] at some
  rw [stop, limit, next_of_contents _ own some]
  exact le_align_up _ _

/-- Stubs that fill their granules leave no gap. -/
theorem whole_stubs_no_gap (whole : image.alignments.veneers ∣ image.size .sgstubs)
    (position : Nat) : ¬ InVeneerGap config layout.toBuild image.toLinkInput position := by
  rintro ⟨above, below⟩
  cases trustZone : config.useTrustZone with
  | false =>
      have none := (section_absent config layout.toBuild image.toLinkInput .sgstubsEnd trustZone).1
      omega
  | true =>
      obtain ⟨own, ordered, ⟨start, stop⟩, limit⟩ := veneers_put config layout image trustZone
      have positive := (image.granules image.alignments.veneers (by simp [Alignments.bounds])).1
      have aligned : image.alignments.veneers ∣ (item image.toLinkInput .sgstubs).start own :=
        align_up_dvd _ image.alignments.veneers _ positive (Nat.dvd_refl _)
      have size : (item image.toLinkInput .sgstubs).stop own =
          (item image.toLinkInput .sgstubs).start own + image.size .sgstubs :=
        plain_stop _ own (Nat.le_refl 1)
      have used : ((item image.toLinkInput .sgstubs).next own).used ≤
          (item image.toLinkInput .sgstubs).stop own := by
        unfold Item.next
        split
        · exact Nat.le_refl _
        · exact Nat.le_trans (used_le_start _ own ordered) (start_le_stop _ own)
      have reached := align_up_le image.alignments.veneers _ _ positive
        (size ▸ Nat.dvd_add aligned whole) used
      omega

/-- In front of the code, the load list of the partitions begins right behind the stubs. -/
theorem load_list_behind_stubs (trustZone : config.useTrustZone = true)
    (inFront : image.veneersLocationEnd = false)
    (some : addr config layout.toBuild image.toLinkInput .sgstubs <
      addrEnd config layout.toBuild image.toLinkInput .sgstubs) :
    addr config layout.toBuild image.toLinkInput .tfmSpLoadList =
      alignUp 4 (addrEnd config layout.toBuild image.toLinkInput .sgstubs) := by
  obtain ⟨own, _, members⟩ := section_run config layout.toBuild image.toLinkInput _
    List.mem_cons_self (flashScript image.toLinkInput) [.sgstubs, .sgstubsEnd, .tfmSpLoadList] rfl
    (by unfold flashScript; rw [inFront]; decide) (fun name listed => by
      simp only [List.mem_cons, List.not_mem_nil, or_false] at listed
      rcases listed with rfl | rfl | rfl
      · exact trustZone
      · exact trustZone
      · rfl)
  have stubs := put_addr config layout.toBuild image.toLinkInput .sgstubs own (members _ List.mem_cons_self)
  rw [stubs.1, stubs.2] at some
  have behind := next_of_contents (item image.toLinkInput .sgstubs) own some
  generalize whole : (item image.toLinkInput .sgstubs).next own = counters at behind
  have still : (item image.toLinkInput .sgstubsEnd).next counters = counters := by
    have empty := empty_stop (item image.toLinkInput .sgstubsEnd) counters rfl (Nat.le_refl 1)
    rw [Item.next, empty, if_neg (Nat.lt_irrefl _)]
    rfl
  have list := put_addr config layout.toBuild image.toLinkInput .tfmSpLoadList counters (members _ (by
    rw [← still, ← whole]
    exact List.mem_cons_of_mem _ (List.mem_cons_of_mem _ List.mem_cons_self)))
  rw [list.1, stubs.2, behind]
  rfl

end Image

/-- An MPU region by what it begins and ends with, and the sections in it. -/
structure Window where
  first : SectionName
  last : SectionName
  holds : List SectionName
  readOnly : Bool
  deriving DecidableEq

def veneerWindow : Window := ⟨.sgstubs, .sgstubsEnd, [.sgstubs], true⟩

def windows (useTrustZone partitionMeta : Bool) : List Window :=
  (if useTrustZone then [veneerWindow] else []) ++
    [⟨.tfmUnprivCode, .tfmUnprivCode, [.tfmUnprivCode], true⟩,
      ⟨.tfmAppCodeStart, .tfmAppCodeEnd, [.tfmAppRotLinker], true⟩,
      ⟨.tfmAppRwStackStart, .tfmAppRwStackEnd, [.tfmAppRotLinkerData, .tfmAppRotLinkerBss], false⟩] ++
    (if partitionMeta then [⟨.tfmSpMetaPtr, .tfmSpMetaPtr, [.tfmSpMetaPtr], false⟩] else [])

def Window.kinds (window : Window) : List AccessKind :=
  if window.readOnly then [.read, .execute] else [.read, .write]

/-- What unprivileged code of the Secure world is meant to do with a section. -/
def opened : SectionName → List AccessKind
  | .sgstubs | .tfmUnprivCode | .tfmAppRotLinker => [.read, .execute]
  | .tfmSpMetaPtr | .tfmAppRotLinkerData | .tfmAppRotLinkerBss => [.read, .write]
  | _ => []

/-- What it may do with a byte of the section: in the granule behind the stubs the veneers'
region covers the byte too, and of two regions none decides. -/
def openedAt (config : HalConfig) (build : Build) (input : LinkInput) (name : SectionName)
    (position : Nat) : List AccessKind :=
  if InVeneerGap config build input position then
    if opened name = [] then veneerWindow.kinds else []
  else opened name

section Windows

variable (config : HalConfig) (input : LinkInput)

theorem window_cases (useTrustZone partitionMeta : Bool) (window : Window)
    (member : window ∈ windows useTrustZone partitionMeta) :
    window = veneerWindow ∨ window = ⟨.tfmUnprivCode, .tfmUnprivCode, [.tfmUnprivCode], true⟩ ∨
      window = ⟨.tfmAppCodeStart, .tfmAppCodeEnd, [.tfmAppRotLinker], true⟩ ∨
      window = ⟨.tfmAppRwStackStart, .tfmAppRwStackEnd,
        [.tfmAppRotLinkerData, .tfmAppRotLinkerBss], false⟩ ∨
      window = ⟨.tfmSpMetaPtr, .tfmSpMetaPtr, [.tfmSpMetaPtr], false⟩ := by
  revert window
  cases useTrustZone <;> cases partitionMeta <;> decide

theorem windows_distinct (useTrustZone partitionMeta : Bool) :
    (windows useTrustZone partitionMeta).Nodup := by
  cases useTrustZone <;> cases partitionMeta <;> decide

theorem windows_exclusive (useTrustZone partitionMeta : Bool) (window other : Window)
    (member : window ∈ windows useTrustZone partitionMeta)
    (among : other ∈ windows useTrustZone partitionMeta) (name : SectionName)
    (held : name ∈ window.holds) (both : name ∈ other.holds) : other = window := by
  have all : ∀ window ∈ windows useTrustZone partitionMeta,
      ∀ other ∈ windows useTrustZone partitionMeta, ∀ name ∈ window.holds, name ∈ other.holds →
        other = window := by
    cases useTrustZone <;> cases partitionMeta <;> decide
  exact all window member other among name held both

theorem window_opened (useTrustZone partitionMeta : Bool) (window : Window)
    (member : window ∈ windows useTrustZone partitionMeta) (name : SectionName)
    (held : name ∈ window.holds) : opened name = window.kinds := by
  revert window name
  cases useTrustZone <;> cases partitionMeta <;> decide

theorem held_opened (useTrustZone partitionMeta : Bool) (window : Window)
    (member : window ∈ windows useTrustZone partitionMeta) (name : SectionName)
    (held : name ∈ window.holds) : opened name ≠ [] := by
  rw [window_opened useTrustZone partitionMeta window member name held, Window.kinds]
  split <;> exact List.cons_ne_nil _ _

theorem opened_window (name : SectionName) (here : present config input name = true)
    (some : opened name ≠ []) :
    ∃ window ∈ windows config.useTrustZone config.partitionMeta, name ∈ window.holds := by
  have all : ∀ name ∈ script input, opened name ≠ [] →
      ∃ window ∈ windows true true, name ∈ window.holds ∧
        (window ∈ windows false false ∨ name = .sgstubs ∧ window ∈ windows true false ∨
          name = .tfmSpMetaPtr ∧ window ∈ windows false true) := by
    unfold script flashScript
    cases input.veneersLocationEnd <;> decide
  obtain ⟨window, _, held, always | ⟨rfl, veneer⟩ | ⟨rfl, metadata⟩⟩ :=
    all name (script_complete input name) some
  · refine ⟨window, ?_, held⟩
    rw [windows, List.mem_append, List.mem_append]
    rw [windows, if_neg Bool.false_ne_true, if_neg Bool.false_ne_true, List.append_nil,
      List.nil_append] at always
    exact Or.inl (Or.inr always)
  · refine ⟨window, ?_, held⟩
    rw [show config.useTrustZone = true from here]
    rw [windows, if_neg Bool.false_ne_true, List.append_nil] at veneer
    exact List.mem_append_left _ veneer
  · refine ⟨window, ?_, held⟩
    rw [show config.partitionMeta = true from here]
    rw [windows, if_neg Bool.false_ne_true, List.nil_append] at metadata
    rw [windows, List.append_assoc]
    exact List.mem_append_right _ metadata

theorem window_present (window : Window)
    (member : window ∈ windows config.useTrustZone config.partitionMeta) :
    present config input window.first = true ∧ present config input window.last = true := by
  rw [windows, List.mem_append, List.mem_append] at member
  rcases member with (veneer | fixed) | metadata
  · split at veneer
    · rename_i given
      obtain rfl := List.mem_singleton.mp veneer
      exact ⟨given, given⟩
    · exact absurd veneer List.not_mem_nil
  · simp only [List.mem_cons, List.not_mem_nil, or_false] at fixed
    rcases fixed with rfl | rfl | rfl <;> exact ⟨rfl, rfl⟩
  · split at metadata
    · rename_i given
      obtain rfl := List.mem_singleton.mp metadata
      exact ⟨given, given⟩
    · exact absurd metadata List.not_mem_nil

end Windows

section Regions

variable (config : HalConfig) (layout : Layout) (image : SecureImage config layout.toBuild)

def windowStart (window : Window) : Nat :=
  addr config layout.toBuild image.toLinkInput window.first

def windowStop (window : Window) : Nat :=
  addrEnd config layout.toBuild image.toLinkInput window.last

def windowRegion (window : Window) : MpuRegion where
  rbar := armMpuRbar (BitVec.ofNat 32 (windowStart config layout image window)) window.readOnly true
    (!window.readOnly)
  rlar := rlar config (BitVec.ofNat 32 (windowStop config layout image window) - 1)
    (if window.first = .tfmAppCodeStart then config.isolationLevel ≠ 1 else !window.readOnly)
    (if window.readOnly then 0 else 1)

theorem static_windows :
    mpuRegionAttributes config (linkerSymbols config layout.toBuild image.toLinkInput) =
      (windows config.useTrustZone config.partitionMeta).map (windowRegion config layout image) := by
  have veneerEnd := symbol_end config layout.toBuild image.toLinkInput .sgstubsEnd rfl (Nat.le_refl 1)
  have codeEnd := symbol_end config layout.toBuild image.toLinkInput .tfmAppCodeEnd rfl (Nat.le_refl 1)
  have stackEnd := symbol_end config layout.toBuild image.toLinkInput .tfmAppRwStackEnd rfl (Nat.le_refl 1)
  cases trustZone : config.useTrustZone <;> cases metadata : config.partitionMeta <;>
    simp [mpuRegionAttributes, linkerSymbols, windows, veneerWindow, windowRegion, windowStart,
      windowStop, trustZone, metadata, veneerEnd, codeEnd, stackEnd]

theorem window_aligned (window : Window)
    (member : window ∈ windows config.useTrustZone config.partitionMeta) :
    32 ∣ windowStart config layout image window ∧ 32 ∣ windowStop config layout image window := by
  obtain ⟨codeStart, codeEnd⟩ := code_edges config layout image
  obtain ⟨stackStart, _, stackEnd⟩ := stack_edges config layout image
  have start (name : SectionName) := own_start config layout image name
  have stop (name : SectionName) := own_end config layout image name
  unfold windowStart windowStop
  rcases window_cases _ _ window member with rfl | rfl | rfl | rfl | rfl
  · refine ⟨start .sgstubs (by simp [item, Alignments.bounds]), ?_⟩
    dsimp only [veneerWindow]
    rw [symbol_end config layout.toBuild image.toLinkInput .sgstubsEnd rfl (Nat.le_refl 1)]
    exact start .sgstubsEnd (by simp [item, Alignments.bounds])
  · exact ⟨start .tfmUnprivCode (by simp [item, Alignments.bounds]),
      stop .tfmUnprivCode (by simp [item, Alignments.bounds])⟩
  · dsimp only
    rw [codeStart, codeEnd]
    exact ⟨start .tfmAppRotLinker (by simp [item, Alignments.bounds]),
      stop .tfmAppRotLinker (by simp [item, Alignments.bounds])⟩
  · dsimp only
    rw [stackStart, stackEnd]
    exact ⟨start .tfmAppRotLinkerData (by simp [item, Alignments.bounds]),
      stop .tfmAppRotLinkerBss (by simp [item, Alignments.bounds])⟩
  · exact ⟨start .tfmSpMetaPtr (by simp [item, Alignments.bounds]),
      stop .tfmSpMetaPtr (by simp [item, Alignments.bounds])⟩

/-- A window spans its sections, and that of the veneers the rest of their last granule. -/
theorem window_span (window : Window)
    (member : window ∈ windows config.useTrustZone config.partitionMeta) (position : Nat) :
    (windowStart config layout image window ≤ position ∧
        position < windowStop config layout image window) ↔
      (∃ name ∈ window.holds, addr config layout.toBuild image.toLinkInput name ≤ position ∧
          position < addrEnd config layout.toBuild image.toLinkInput name) ∨
        (window = veneerWindow ∧ InVeneerGap config layout.toBuild image.toLinkInput position) := by
  obtain ⟨codeStart, codeEnd⟩ := code_edges config layout image
  obtain ⟨stackStart, between, stackEnd⟩ := stack_edges config layout image
  unfold windowStart windowStop
  rcases window_cases _ _ window member with rfl | rfl | rfl | rfl | rfl
  · have trustZone := (window_present config image.toLinkInput veneerWindow member).1
    have stubs := addr_le_end config layout.toBuild image.toLinkInput .sgstubs
    have limit := veneer_edges config layout image trustZone
    have symbol := symbol_end config layout.toBuild image.toLinkInput .sgstubsEnd rfl (Nat.le_refl 1)
    simp only [veneerWindow, List.mem_singleton, exists_eq_left, true_and, InVeneerGap, symbol]
    omega
  · simp [veneerWindow]
  · simp [veneerWindow, codeStart, codeEnd]
  · have data := addr_le_end config layout.toBuild image.toLinkInput .tfmAppRotLinkerData
    have bss := addr_le_end config layout.toBuild image.toLinkInput .tfmAppRotLinkerBss
    simp only [veneerWindow, stackStart, stackEnd, List.mem_cons, List.not_mem_nil, or_false,
      exists_eq_or_imp, exists_eq_left, Window.mk.injEq, reduceCtorEq, false_and]
    omega
  · simp [veneerWindow]

theorem region_covers (start stop : Nat) (readOnly never : Bool) (attrIndx : Nat)
    (startAligned : 32 ∣ start) (stopAligned : 32 ∣ stop) (startFits : start < 2 ^ 32)
    (some : 0 < stop) (stopFits : stop < 2 ^ 32) (address : Word) :
    (MpuRegion.mk (armMpuRbar (BitVec.ofNat 32 start) readOnly true (!readOnly))
      (rlar config (BitVec.ofNat 32 stop - 1) never attrIndx)).covers address = true ↔
        start ≤ address.toNat ∧ address.toNat < stop := by
  have startWord : (BitVec.ofNat 32 start).toNat = start := Nat.mod_eq_of_lt (by omega)
  have last : BitVec.ofNat 32 stop - 1 = BitVec.ofNat 32 (stop - 1) := by
    apply BitVec.eq_of_toNat_eq
    rw [BitVec.toNat_sub, BitVec.toNat_ofNat, BitVec.toNat_ofNat, show (1 : Word).toNat = 1 from rfl]
    omega
  have lastWord : (BitVec.ofNat 32 (stop - 1)).toNat = stop - 1 := Nat.mod_eq_of_lt (by omega)
  obtain ⟨enabled, _⟩ :=
    PartitionBoundaries.rlar_fields config (BitVec.ofNat 32 stop - 1) never attrIndx
  have base : (armMpuRbar (BitVec.ofNat 32 start) readOnly true (!readOnly)).base =
      BitVec.ofNat 32 start :=
    granule_base_aligned (BitVec.ofNat 32 start) (by omega)
  have limit : (rlar config (BitVec.ofNat 32 stop - 1) never attrIndx).limit ||| 0x1F =
      BitVec.ofNat 32 (stop - 1) := by
    rw [last]
    exact PartitionBoundaries.rlar_last config (BitVec.ofNat 32 (stop - 1)) (by omega) never attrIndx
  rw [MpuRegion.covers, enabled, base, limit, Bool.true_and, Bool.and_eq_true, decide_eq_true_eq,
    decide_eq_true_eq, BitVec.le_def, BitVec.le_def, startWord, lastWord]
  omega

theorem window_bounds (window : Window)
    (member : window ∈ windows config.useTrustZone config.partitionMeta) :
    windowStart config layout image window ≤ scratchYStart + scratchYSize ∧
      xipBase ≤ windowStop config layout image window ∧
      windowStop config layout image window ≤ scratchYStart + scratchYSize := by
  obtain ⟨firstHere, lastHere⟩ := window_present config image.toLinkInput window member
  obtain ⟨first, firstMember, firstNamed⟩ :=
    section_present config layout.toBuild image.toLinkInput window.first firstHere
  obtain ⟨last, lastMember, lastNamed⟩ :=
    section_present config layout.toBuild image.toLinkInput window.last lastHere
  have firstBounds := section_bounds config layout image first firstMember
  have lastBounds := section_bounds config layout image last lastMember
  rw [windowStart, windowStop, ← firstNamed, ← lastNamed,
    (section_addr config layout.toBuild image.toLinkInput first firstMember).1,
    (section_addr config layout.toBuild image.toLinkInput last lastMember).2]
  unfold Area.limit at *
  omega

theorem window_permits (window : Window) (kind : AccessKind) :
    (windowRegion config layout image window).permits false kind = true ↔ kind ∈ window.kinds := by
  cases readOnly : window.readOnly <;> cases kind <;>
    simp [windowRegion, MpuRegion.permits, armMpuRbar, Window.kinds, readOnly]

theorem window_alone (address : Word) (window : Window)
    (member : window ∈ windows config.useTrustZone config.partitionMeta)
    (covered : (windowRegion config layout image window).covers address = true)
    (alone : ∀ other ∈ windows config.useTrustZone config.partitionMeta, other ≠ window →
      ¬ (windowRegion config layout image other).covers address = true) (kind : AccessKind) :
    (∃ region, soleHit MpuRegion.covers
        (mpuRegionAttributes config (linkerSymbols config layout.toBuild image.toLinkInput)) address =
          some region ∧ region.permits false kind = true) ↔
      kind ∈ window.kinds := by
  have sole := (soleHit_keyed MpuRegion.covers (windowRegion config layout image) _ address window
    covered fun other listed different => Bool.eq_false_iff.mpr (alone other listed different)).mpr
    (List.count_eq_one_of_mem (windows_distinct _ _) member)
  rw [static_windows, sole, ← window_permits config layout image window kind]
  simp

theorem gap_veneers (position : Nat)
    (gap : InVeneerGap config layout.toBuild image.toLinkInput position) :
    veneerWindow ∈ windows config.useTrustZone config.partitionMeta := by
  cases trustZone : config.useTrustZone with
  | false =>
      have none := (section_absent config layout.toBuild image.toLinkInput .sgstubsEnd trustZone).1
      have behind := gap.2
      rw [none] at behind
      exact absurd behind (Nat.not_lt_zero _)
  | true => exact List.mem_cons_self

section Decided

variable (placed : Placed SectionName)
  (among : placed ∈ secureSections config layout.toBuild image.toLinkInput) (address : Word)
  (inside : placed.area.Contains address.toNat)

include among inside

theorem window_covers (window : Window)
    (member : window ∈ windows config.useTrustZone config.partitionMeta) :
    (windowRegion config layout image window).covers address = true ↔
      placed.name ∈ window.holds ∨ (window = veneerWindow ∧
        InVeneerGap config layout.toBuild image.toLinkInput address.toNat) := by
  obtain ⟨startAligned, stopAligned⟩ := window_aligned config layout image window member
  obtain ⟨start, above, below⟩ := window_bounds config layout image window member
  rw [← listed_bytes config layout image placed among address.toNat inside,
    ← window_span config layout image window member]
  simp only [xipBase, scratchYStart, scratchYSize, scratchXSize, scratchXStart, bl2DataStart,
    bl2DataSize, sDataStart, sDataSize, sram0Base] at start above below
  exact region_covers config _ _ _ _ _ startAligned stopAligned (by omega) (by omega) (by omega)
    address

theorem gap_not_stubs (gap : InVeneerGap config layout.toBuild image.toLinkInput address.toNat) :
    placed.name ≠ .sgstubs := by
  intro named
  have stop := (section_addr config layout.toBuild image.toLinkInput placed among).2
  rw [named] at stop
  have start := gap.1
  rw [stop] at start
  exact absurd inside.2 (Nat.not_lt_of_le start)

theorem gap_decided (gap : InVeneerGap config layout.toBuild image.toLinkInput address.toNat)
    (here : present config image.toLinkInput placed.name = true) (kind : AccessKind) :
    (∃ region, soleHit MpuRegion.covers
        (mpuRegionAttributes config (linkerSymbols config layout.toBuild image.toLinkInput)) address =
          some region ∧ region.permits false kind = true) ↔
      kind ∈ if opened placed.name = [] then veneerWindow.kinds else [] := by
  have covers := window_covers config layout image placed among address inside
  have veneers := gap_veneers config layout image address.toNat gap
  have covered := (covers veneerWindow veneers).mpr (Or.inr ⟨rfl, gap⟩)
  by_cases closed : opened placed.name = []
  · rw [if_pos closed]
    apply window_alone config layout image address veneerWindow veneers covered
    intro other listed different both
    rcases (covers other listed).mp both with held | ⟨same, _⟩
    · exact held_opened _ _ other listed placed.name held closed
    · exact different same
  · obtain ⟨window, member, held⟩ := opened_window config image.toLinkInput placed.name here closed
    have different : window ≠ veneerWindow := by
      rintro rfl
      exact gap_not_stubs config layout image placed among address inside gap
        (List.mem_singleton.mp held)
    rw [if_neg closed, static_windows, soleHit_both MpuRegion.covers (windowRegion config layout image)
      _ address window veneerWindow member veneers different
      ((covers window member).mpr (Or.inl held)) covered]
    simp

theorem plain_decided (plain : ¬ InVeneerGap config layout.toBuild image.toLinkInput address.toNat)
    (here : present config image.toLinkInput placed.name = true) (kind : AccessKind) :
    (∃ region, soleHit MpuRegion.covers
        (mpuRegionAttributes config (linkerSymbols config layout.toBuild image.toLinkInput)) address =
          some region ∧ region.permits false kind = true) ↔
      kind ∈ opened placed.name := by
  have covers (window : Window) (member : window ∈ windows config.useTrustZone config.partitionMeta) :
      (windowRegion config layout image window).covers address = true ↔
        placed.name ∈ window.holds := by
    rw [window_covers config layout image placed among address inside window member]
    exact or_iff_left fun both => plain both.2
  by_cases closed : opened placed.name = []
  · have silent : hits MpuRegion.covers (mpuRegionAttributes config
        (linkerSymbols config layout.toBuild image.toLinkInput)) address = [] := by
      rw [hits_eq_nil, static_windows]
      intro region listed
      obtain ⟨window, member, rfl⟩ := List.mem_map.mp listed
      rw [Bool.eq_false_iff, ne_eq, covers window member]
      exact fun held => held_opened _ _ window member placed.name held closed
    rw [soleHit, silent, closed]
    simp
  · obtain ⟨window, member, held⟩ := opened_window config image.toLinkInput placed.name here closed
    rw [window_opened _ _ window member placed.name held]
    apply window_alone config layout image address window member ((covers window member).mpr held)
    intro other listed different both
    exact different (windows_exclusive _ _ window other member listed placed.name held
      ((covers other listed).mp both))

/-- The static regions give unprivileged code of every section what is meant for it, but for
the bytes right behind the stubs. -/
theorem section_decided (kind : AccessKind) :
    (∃ region, soleHit MpuRegion.covers
        (mpuRegionAttributes config (linkerSymbols config layout.toBuild image.toLinkInput)) address =
          some region ∧ region.permits false kind = true) ↔
      kind ∈ openedAt config layout.toBuild image.toLinkInput placed.name address.toNat := by
  have here : present config image.toLinkInput placed.name = true := by
    have listed : placed.name ∈ (secureSections config layout.toBuild image.toLinkInput).map
        Placed.name := List.mem_map_of_mem among
    rw [section_names] at listed
    exact (List.mem_filter.mp listed).2
  unfold openedAt
  by_cases gap : InVeneerGap config layout.toBuild image.toLinkInput address.toNat
  · rw [if_pos gap]
    exact gap_decided config layout image placed among address inside gap here kind
  · rw [if_neg gap]
    exact plain_decided config layout image placed among address inside gap here kind

end Decided

variable (port : Port)

theorem shown_opened (spe : Spe) (bound : List Word) (spare : Nat)
    (shown : PartitionBoundaries.Represents config
      (linkerSymbols config layout.toBuild image.toLinkInput) port spe bound spare)
    (outside : ∀ devRef ∈ port.mmioList,
      scratchYStart + scratchYSize ≤ (port.platformData devRef).periphStart.toNat)
    (placed : Placed SectionName)
    (among : placed ∈ secureSections config layout.toBuild image.toLinkInput) (address : Word)
    (inside : placed.area.Contains address.toNat) (faultHandler : Bool) (kind : AccessKind) :
    spe.mpu.permits ⟨false, faultHandler⟩ kind address = true ↔
      kind ∈ openedAt config layout.toBuild image.toLinkInput placed.name address.toNat := by
  rw [PartitionRuns.shown_permits config _ port spe bound spare shown,
    ← section_decided config layout image placed among address inside kind]
  have silent : hits MpuRegion.covers
      (bound.map fun devRef => deviceRegion config (port.platformData devRef)) address = [] := by
    rw [hits_eq_nil]
    intro region listed
    obtain ⟨devRef, member, rfl⟩ := List.mem_map.mp listed
    obtain ⟨allowed, aligned⟩ := shown.allowed devRef member
    have behind := outside devRef allowed
    have below := (section_bounds config layout image placed among).2
    unfold Area.Contains at inside
    rw [PartitionBoundaries.device_covers config _ aligned, Bool.and_eq_false_iff,
      decide_eq_false_iff_not, BitVec.le_def]
    exact Or.inl (by omega)
  rw [PartitionBoundaries.table, soleHit_silent _ _ _ _ silent]

/-- However the image fills its sections, and whatever the SPM binds and schedules afterwards:
unprivileged code runs the veneers, the unprivileged code and the code of the application
partitions, writes the data of these and the partition pointer, and reads no other section,
except what lies right behind the stubs in the granule that they do not fill. -/
theorem sections_opened (chip : Chip AccessCtrlRegOffset) (memoryRegions : MemoryRegionLimits)
    (start : Spe) (protect : config.memoryProtect = true)
    (success : (tfmHalSetUpStaticBoundaries config
      (linkerSymbols config layout.toBuild image.toLinkInput) chip memoryRegions start).2.1 = .success)
    (outside : ∀ devRef ∈ port.mmioList,
      scratchYStart + scratchYSize ≤ (port.platformData devRef).periphStart.toNat)
    (events : List PartitionRuns.Event) :
    let symbols := linkerSymbols config layout.toBuild image.toLinkInput
    let final := Runs.finish (PartitionRuns.step config port chip)
      (PartitionRuns.started config symbols chip memoryRegions start) events
    ∀ placed ∈ secureSections config layout.toBuild image.toLinkInput, ∀ address : Word,
      placed.area.Contains address.toNat → ∀ faultHandler kind,
        final.mpu.permits ⟨false, faultHandler⟩ kind address = true ↔
          kind ∈ openedAt config layout.toBuild image.toLinkInput placed.name address.toNat := by
  intro symbols final placed among address inside faultHandler kind
  have begun := PartitionBoundaries.set_up_represents config symbols port chip memoryRegions start
    protect success
  obtain ⟨added, left, shown, _⟩ := PartitionRuns.run_represents config symbols port chip
    (PartitionRuns.started config symbols chip memoryRegions start) events [] _ begun
  exact shown_opened config layout image port final _ left shown outside placed among address inside
    faultHandler kind

/-- `memory_regions` of a build with these images. -/
structure Linked (regions : MemoryRegionLimits) : Prop where
  veneerBase : regions.veneerBase =
    (linkerSymbols config layout.toBuild image.toLinkInput).erVeneerBase
  veneerLimit : regions.veneerLimit =
    (linkerSymbols config layout.toBuild image.toLinkInput).veneerAlignLimit - 1
  partitionBase : regions.nonSecurePartitionBase.toNat = nsPartitionStart layout.toBuild
  partitionLimit : regions.nonSecurePartitionLimit.toNat + 1 =
    nsPartitionStart layout.toBuild + nsPartitionSize layout.toBuild

theorem flash_within (name : SectionName) (here : present config image.toLinkInput name = true)
    (named : name ∈ flashScript image.toLinkInput) :
    sCodeStart layout.toBuild ≤ addr config layout.toBuild image.toLinkInput name ∧
      addrEnd config layout.toBuild image.toLinkInput name ≤
        sCodeStart layout.toBuild + imageSCodeSize layout.toBuild := by
  obtain ⟨placed, member, rfl⟩ := section_present config layout.toBuild image.toLinkInput name here
  obtain ⟨start, stop⟩ := section_addr config layout.toBuild image.toLinkInput placed member
  rw [start, stop]
  rcases section_places config layout image placed member with within | ⟨other, _⟩
  · exact within
  · exact absurd other (List.disjoint_of_nodup_append (script_distinct image.toLinkInput) named)

theorem veneers_within (trustZone : config.useTrustZone = true) :
    sCodeStart layout.toBuild ≤ addr config layout.toBuild image.toLinkInput .sgstubs ∧
      addr config layout.toBuild image.toLinkInput .sgstubs ≤
        sCodeStart layout.toBuild + imageSCodeSize layout.toBuild ∧
      sCodeStart layout.toBuild ≤ addr config layout.toBuild image.toLinkInput .sgstubsEnd ∧
      addr config layout.toBuild image.toLinkInput .sgstubsEnd ≤
        sCodeStart layout.toBuild + imageSCodeSize layout.toBuild := by
  have names : .sgstubs ∈ flashScript image.toLinkInput ∧
      .sgstubsEnd ∈ flashScript image.toLinkInput := by
    unfold flashScript
    cases image.veneersLocationEnd <;> decide
  obtain ⟨stubs, below⟩ := flash_within config layout image .sgstubs trustZone names.1
  obtain ⟨limit, above⟩ := flash_within config layout image .sgstubsEnd trustZone names.2
  have extent := addr_le_end config layout.toBuild image.toLinkInput .sgstubs
  rw [symbol_end config layout.toBuild image.toLinkInput .sgstubsEnd rfl (Nat.le_refl 1)] at above
  exact ⟨stubs, Nat.le_trans extent below, limit, above⟩

variable (regions : MemoryRegionLimits) (links : Linked config layout image regions)
  (trustZone : config.useTrustZone = true)

include links trustZone

theorem linked_veneers :
    regions.veneerBase.toNat = addr config layout.toBuild image.toLinkInput .sgstubs ∧
      regions.veneerLimit.toNat + 1 = addr config layout.toBuild image.toLinkInput .sgstubsEnd := by
  obtain ⟨_, start, above, stop⟩ := veneers_within config layout image trustZone
  have code := flash_below_ram layout
  have base : xipBase ≤ sCodeStart layout.toBuild := Nat.le_add_right _ _
  simp only [xipBase, flashTotalSize] at code base
  rw [links.veneerBase, links.veneerLimit]
  constructor
  · exact Nat.mod_eq_of_lt (show addr config layout.toBuild image.toLinkInput .sgstubs < 2 ^ 32 by
      omega)
  · rw [linkerSymbols, BitVec.toNat_sub, BitVec.toNat_ofNat, show (1 : Word).toNat = 1 from rfl]
    omega

theorem linked_follows : Follows layout regions := by
  obtain ⟨base, limit⟩ := linked_veneers config layout image regions links trustZone
  obtain ⟨start, _, above, stop⟩ := veneers_within config layout image trustZone
  have stubs := own_start config layout image .sgstubs (by simp [item, Alignments.bounds])
  have veneersEnd := own_start config layout image .sgstubsEnd (by simp [item, Alignments.bounds])
  refine ⟨links.partitionBase, links.partitionLimit, ?_, ?_⟩
  · omega
  · rw [sCodeLimit]
    omega

theorem linked_in_veneers (placed : Placed SectionName)
    (among : placed ∈ secureSections config layout.toBuild image.toLinkInput) (address : Word)
    (inside : placed.area.Contains address.toNat) :
    inVeneers regions address = true ↔
      placed.name = .sgstubs ∨ InVeneerGap config layout.toBuild image.toLinkInput address.toNat := by
  obtain ⟨base, limit⟩ := linked_veneers config layout image regions links trustZone
  have span := window_span config layout image veneerWindow (by
    rw [trustZone]
    exact List.mem_cons_self) address.toNat
  rw [listed_bytes config layout image placed among address.toNat inside] at span
  simp only [windowStart, windowStop, veneerWindow,
    symbol_end config layout.toBuild image.toLinkInput .sgstubsEnd rfl (Nat.le_refl 1), List.mem_singleton,
    true_and] at span
  rw [← span, inVeneers, Bool.and_eq_true, decide_eq_true_eq, decide_eq_true_eq, BitVec.le_def,
    BitVec.le_def]
  omega

theorem linked_closed (placed : Placed SectionName)
    (among : placed ∈ secureSections config layout.toBuild image.toLinkInput) (address : Word)
    (inside : placed.area.Contains address.toNat) :
    inPartition regions address = false ∧ inRest address = false := by
  have follows := linked_follows config layout image regions links trustZone
  obtain ⟨start, stop⟩ := inside
  rcases section_places config layout image placed among with ⟨_, code⟩ | ⟨_, above, below⟩
  · have ends := secure_code_inside layout
    have adjacent := slots_adjacent layout.toBuild
    have ram := flash_below_ram layout
    rw [sCodeLimit] at ends
    constructor
    · rw [Bool.eq_false_iff, ne_eq, partition_bytes layout regions follows]
      rintro ⟨_, above, behind, _⟩
      omega
    · rw [Bool.eq_false_iff, ne_eq, rest_bytes]
      simp only [xipBase, flashTotalSize] at ram
      omega
  · exact (secure_ram_closed layout regions follows address
      ⟨Nat.le_trans above start, Nat.lt_of_lt_of_le stop below⟩).2

/-- Of the linked image the Non-secure world may call the veneers, and its DMA reach them; all
other sections, in flash and in RAM, are Secure and closed to the DMA, except what lies right
behind the stubs in the granule that they do not fill. -/
theorem sections_attributed (platform : Platform) (left : LeftDisabled platform.soc) :
    let soc := (configureAddresses regions platform).soc
    ∀ placed ∈ secureSections config layout.toBuild image.toLinkInput, ∀ address : Word,
      placed.area.Contains address.toNat →
        let exposed := placed.name = .sgstubs ∨
          InVeneerGap config layout.toBuild image.toLinkInput address.toNat
        soc.sau.attribution address = (if exposed then .nonSecureCallable else .secure) ∧
          (soc.dma.nonSecureAccess address = true ↔ exposed) := by
  intro soc placed among address inside exposed
  have follows := linked_follows config layout image regions links trustZone
  obtain ⟨partition, rest⟩ :=
    linked_closed config layout image regions links trustZone placed among address inside
  have veneers := linked_in_veneers config layout image regions links trustZone placed among address inside
  rw [follows_sau layout regions follows platform left, follows_dma layout regions follows platform,
    portPartition, partition, rest, Bool.or_false, Bool.or_false]
  refine ⟨?_, veneers⟩
  by_cases open_ : exposed
  · rw [if_pos open_, if_pos (veneers.mpr open_)]
  · rw [if_neg open_, if_neg (fun callable => open_ (veneers.mp callable))]
    rfl

end Regions

/-- 64 bytes in every section but the stubs, which fill their second granule to a quarter. -/
def sampleInput : LinkInput where
  veneersLocationEnd := false
  codeSharing := false
  enableHeap := true
  ramVectorsSupport := false
  sharedSymbolAreaSize := 0
  alignments := ⟨32, 32, 32, 32, 8, 8, 8, 32, 32, 32, 256⟩
  size := fun name => if name = .sgstubs then 40 else 64
  natural := fun _ => 4
  collected := fun _ => true

def sampleImage : SecureImage PartitionBoundaries.sampleConfig referenceLayout.toBuild where
  toLinkInput := sampleInput
  granules := by decide
  codeAlignment := by decide
  fits := by decide

def imageRegions : MemoryRegionLimits where
  veneerBase := (linkerSymbols PartitionBoundaries.sampleConfig referenceLayout.toBuild
    sampleImage.toLinkInput).erVeneerBase
  veneerLimit := (linkerSymbols PartitionBoundaries.sampleConfig referenceLayout.toBuild
    sampleImage.toLinkInput).veneerAlignLimit - 1
  nonSecurePartitionBase := 0x10071000
  nonSecurePartitionLimit := 0x100D0FFF

theorem image_linked :
    Linked PartitionBoundaries.sampleConfig referenceLayout sampleImage imageRegions where
  veneerBase := rfl
  veneerLimit := rfl
  partitionBase := by decide
  partitionLimit := by decide

theorem sample_outside (devRef : Word) (listed : devRef ∈ PartitionBoundaries.samplePort.mmioList) :
    scratchYStart + scratchYSize ≤
      (PartitionBoundaries.samplePort.platformData devRef).periphStart.toNat := by
  rcases List.mem_cons.mp listed with rfl | last
  · exact show 0x20032000 ≤ 0x40070000 by decide
  · rw [List.mem_singleton.mp last]
    exact show 0x20032000 ≤ 0x400b0000 by decide

-- the head of the load list, 40 bytes behind the start of the stubs
example : InVeneerGap PartitionBoundaries.sampleConfig referenceLayout.toBuild
    sampleImage.toLinkInput (addr PartitionBoundaries.sampleConfig referenceLayout.toBuild
      sampleImage.toLinkInput .tfmSpLoadList) := by decide

theorem image_opened :
    let symbols := linkerSymbols PartitionBoundaries.sampleConfig referenceLayout.toBuild
      sampleImage.toLinkInput
    let final := Runs.finish
      (PartitionRuns.step PartitionBoundaries.sampleConfig PartitionBoundaries.samplePort
        BusPolicy.documentedChip)
      (PartitionRuns.started PartitionBoundaries.sampleConfig symbols BusPolicy.documentedChip
        imageRegions PartitionBoundaries.sampleSpe) PartitionRuns.timerRun
    ∀ placed ∈ secureSections PartitionBoundaries.sampleConfig referenceLayout.toBuild
        sampleImage.toLinkInput,
      ∀ address : Word, placed.area.Contains address.toNat → ∀ faultHandler kind,
        final.mpu.permits ⟨false, faultHandler⟩ kind address = true ↔
          kind ∈ openedAt PartitionBoundaries.sampleConfig referenceLayout.toBuild
            sampleImage.toLinkInput placed.name address.toNat :=
  sections_opened PartitionBoundaries.sampleConfig referenceLayout sampleImage
    PartitionBoundaries.samplePort BusPolicy.documentedChip imageRegions PartitionBoundaries.sampleSpe
    rfl (PartitionBoundaries.sample_succeeds _ imageRegions) sample_outside
    PartitionRuns.timerRun

theorem image_attributed :
    let soc := (configureAddresses imageRegions samplePlatform).soc
    ∀ placed ∈ secureSections PartitionBoundaries.sampleConfig referenceLayout.toBuild
        sampleImage.toLinkInput,
      ∀ address : Word, placed.area.Contains address.toNat →
        let exposed := placed.name = .sgstubs ∨
          InVeneerGap PartitionBoundaries.sampleConfig referenceLayout.toBuild
            sampleImage.toLinkInput address.toNat
        soc.sau.attribution address = (if exposed then .nonSecureCallable else .secure) ∧
          (soc.dma.nonSecureAccess address = true ↔ exposed) :=
  sections_attributed PartitionBoundaries.sampleConfig referenceLayout sampleImage imageRegions
    image_linked rfl samplePlatform reset_left

end Rp2350Tee.SecureLink
