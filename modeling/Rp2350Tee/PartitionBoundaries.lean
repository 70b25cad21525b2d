import Rp2350Tee.BusPolicy
import Rp2350Tee.Runs
import Rp2350Tee.TfmIsolation

/-!
The boundaries of the Secure partitions over whole runs of the SPM. The abstract state is
the list of peripherals that have been bound for unprivileged partitions; the MPU holds the
static regions, one region for each entry of that list in order, and idle regions.
-/

namespace Rp2350Tee.PartitionBoundaries

open TzConfig BusFilter TargetConfig ArmMpu TfmIsolation RegionTable Runs

variable (config : HalConfig) (symbols : LinkerSymbols) (port : Port)
  (chip : Chip AccessCtrlRegOffset)

def Aligned (data : PlatformData) : Prop :=
  data.periphStart &&& ~~~mpuRbarBaseMsk = 0 ∧ data.periphLimit &&& ~~~mpuRlarLimitMsk = 0x1F

instance (data : PlatformData) : Decidable (Aligned data) :=
  inferInstanceAs (Decidable (_ ∧ _))

def table (bound : List Word) : List MpuRegion :=
  mpuRegionAttributes config symbols ++
    bound.map fun devRef => deviceRegion config (port.platformData devRef)

/-- The MPU shows the bound peripherals, and has room for `spare` more. -/
structure Represents (spe : Spe) (bound : List Word) (spare : Nat) : Prop where
  regions : ∃ idle, spe.mpu.region = table config symbols port bound ++ idle ∧
    idle.length = spare ∧ ∀ region ∈ idle, ∀ address, region.covers address = false
  count : spe.nConfiguredRegions = (table config symbols port bound).length
  enabled : spe.mpu.enabled = true
  privDefEna : spe.mpu.privDefEna = true
  hfNmiEna : spe.mpu.hfNmiEna = true
  memAttr : ∀ attrIndx < 3, (spe.mpu.memAttr attrIndx).isSome
  allowed : ∀ devRef ∈ bound, devRef ∈ port.mmioList ∧ Aligned (port.platformData devRef)

theorem static_cases (region : MpuRegion) (member : region ∈ mpuRegionAttributes config symbols) :
    ∃ base limit readOnly never, region =
      ⟨armMpuRbar base readOnly true (!readOnly), rlar config limit never (if readOnly then 0 else 1)⟩ := by
  simp only [mpuRegionAttributes, List.mem_append, List.mem_cons, List.not_mem_nil, or_false] at member
  rcases member with (veneers | rfl | rfl | rfl) | metadata
  · split at veneers
    · obtain rfl := List.mem_singleton.mp veneers
      exact ⟨_, _, true, _, rfl⟩
    · exact absurd veneers List.not_mem_nil
  · exact ⟨_, _, true, _, rfl⟩
  · exact ⟨_, _, true, _, rfl⟩
  · exact ⟨_, _, false, _, rfl⟩
  · split at metadata
    · obtain rfl := List.mem_singleton.mp metadata
      exact ⟨_, _, false, _, rfl⟩
    · exact absurd metadata List.not_mem_nil

theorem table_cases (bound : List Word) (region : MpuRegion)
    (member : region ∈ table config symbols port bound) :
    ∃ base limit readOnly never attrIndx, attrIndx < 3 ∧ region =
      ⟨armMpuRbar base readOnly true (!readOnly), rlar config limit never attrIndx⟩ := by
  rcases List.mem_append.mp member with fixed | device
  · obtain ⟨base, limit, readOnly, never, rfl⟩ := static_cases config symbols region fixed
    refine ⟨base, limit, readOnly, never, _, ?_, rfl⟩
    cases readOnly <;> decide
  · obtain ⟨devRef, _, rfl⟩ := List.mem_map.mp device
    exact ⟨_, _, false, true, 2, by decide, rfl⟩

theorem rlar_fields (limit : Word) (never : Bool) (attrIndx : Nat) :
    (rlar config limit never attrIndx).enabled = true ∧
      (rlar config limit never attrIndx).attrIndx = attrIndx ∧
      (rlar config limit never attrIndx).limit = limit &&& mpuRlarLimitMsk := by
  unfold rlar
  split <;> exact ⟨rfl, rfl, rfl⟩

theorem rlar_last (limit : Word) (whole : limit.toNat % 32 = 31) (never : Bool) (attrIndx : Nat) :
    (rlar config limit never attrIndx).limit ||| 0x1F = limit := by
  obtain ⟨_, _, bits⟩ := rlar_fields config limit never attrIndx
  have flags := granule_limit_flags limit 0 (by decide)
  rw [show (0 : BitVec 32) = 0#32 from rfl, BitVec.or_zero, granule_limit_aligned limit whole] at flags
  rw [bits]
  exact flags

theorem table_write_or_execute (bound : List Word) (region : MpuRegion)
    (member : region ∈ table config symbols port bound) :
    ¬ (region.permits false .write = true ∧ region.permits false .execute = true) := by
  obtain ⟨base, limit, readOnly, never, attrIndx, _, rfl⟩ :=
    table_cases config symbols port bound region member
  cases readOnly <;> simp [MpuRegion.permits, armMpuRbar]

theorem device_covers (data : PlatformData) (aligned : Aligned data) (address : Word) :
    (deviceRegion config data).covers address =
      (decide (data.periphStart ≤ address) && decide (address ≤ data.periphLimit)) := by
  have low (word : Word) : (word &&& (~~~(~~~0x1F : Word))).toNat = word.toNat % 32 := by
    rw [BitVec.not_not, BitVec.toNat_and]
    exact Nat.and_two_pow_sub_one_eq_mod word.toNat 5
  have start : data.periphStart.toNat % 32 = 0 := by
    rw [← low]
    exact congrArg BitVec.toNat aligned.1
  have limit : data.periphLimit.toNat % 32 = 31 := by
    rw [← low]
    exact congrArg BitVec.toNat aligned.2
  obtain ⟨enabled, _⟩ := rlar_fields config data.periphLimit true 2
  have base : (deviceRegion config data).rbar.base = data.periphStart :=
    granule_base_aligned data.periphStart start
  have last : (deviceRegion config data).rlar.limit ||| 0x1F = data.periphLimit :=
    rlar_last config data.periphLimit limit true 2
  have on : (deviceRegion config data).rlar.enabled = true := enabled
  rw [MpuRegion.covers, on, base, last, Bool.true_and]

theorem represents_same (spe other : Spe) (bound : List Word) (spare : Nat)
    (mpu : other.mpu = spe.mpu) (count : other.nConfiguredRegions = spe.nConfiguredRegions)
    (shown : Represents config symbols port spe bound spare) :
    Represents config symbols port other bound spare where
  regions := mpu ▸ shown.regions
  count := count.trans shown.count
  enabled := mpu ▸ shown.enabled
  privDefEna := mpu ▸ shown.privDefEna
  hfNmiEna := mpu ▸ shown.hfNmiEna
  memAttr := mpu ▸ shown.memAttr
  allowed := shown.allowed

theorem program_static (mpu : Mpu) (fits : (mpuRegionAttributes config symbols).length ≤ mpu.region.length)
    (spe : Spe) :
    Represents config symbols port
      { spe with mpu := programStatic config symbols mpu
                 nConfiguredRegions := (mpuRegionAttributes config symbols).length } []
      (mpu.region.length - (mpuRegionAttributes config symbols).length) := by
  have off : (if mpu.enabled then mpu.disable else mpu).region = mpu.region := by
    split <;> rfl
  have programmed : (programStatic config symbols mpu).region =
      mpuRegionAttributes config symbols ++
        (mpu.region.map clearRlar).drop (mpuRegionAttributes config symbols).length := by
    simp only [programStatic, clear_regions]
    rw [set_regions]
    · simp only [Mpu.enable, Mpu.setMemAttr, off]
    · simpa [Mpu.setMemAttr, off] using fits
  have through (entries : List (MpuRegion × Nat)) (start : Mpu) :
      (entries.foldl (fun mpu entry => mpu.setRegion entry.2 entry.1) start).memAttr = start.memAttr := by
    induction entries generalizing start with
    | nil => rfl
    | cons entry rest ih => exact ih (start.setRegion entry.2 entry.1)
  constructor
  · refine ⟨(mpu.region.map clearRlar).drop (mpuRegionAttributes config symbols).length, ?_, ?_, ?_⟩
    · simpa [table] using programmed
    · simp
    · intro region member address
      obtain ⟨old, _, rfl⟩ := List.mem_map.mp (List.mem_of_mem_drop member)
      exact clear_silent old address
  · simp [table]
  · rfl
  · rfl
  · rfl
  · intro attrIndx below
    simp only [programStatic, Mpu.enable, through]
    match attrIndx, below with
    | 0, _ => rfl
    | 1, _ => rfl
    | 2, _ => rfl
  · intro devRef member
    exact absurd member List.not_mem_nil

/-- What the set-up does, by the outcome of the bus filter and the size of the MPU. -/
theorem set_up_cases (memoryRegions : MemoryRegionLimits) (spe : Spe) :
    let result := tfmHalSetUpStaticBoundaries config symbols chip memoryRegions spe
    let filtered := busFilterCfg chip config.multiCore spe.platform.filter
    let static := mpuRegionAttributes config symbols
    result.1.platform.filter = filtered.1 ∧
    (((filtered.2 ≠ .success ∨ (config.memoryProtect = true ∧ spe.mpu.region.length < static.length)) ∧
        result.2 = (.errorGeneric, none) ∧ result.1.mpu = spe.mpu ∧
        result.1.nConfiguredRegions = spe.nConfiguredRegions) ∨
      (filtered.2 = .success ∧ result.2 = (.success, some protBoundaryVal) ∧
        result.1.platform.soc = (configureAddresses memoryRegions spe.platform).soc ∧
        result.1.nPriv = spe.nPriv ∧
        if config.memoryProtect then
          static.length ≤ spe.mpu.region.length ∧
            result.1.mpu = programStatic config symbols spe.mpu ∧
            result.1.nConfiguredRegions = static.length
        else result.1.mpu = spe.mpu)) := by
  intro result filtered static
  simp only [result, tfmHalSetUpStaticBoundaries]
  split
  · rename_i failed
    exact ⟨rfl, Or.inl ⟨Or.inl failed, rfl, rfl, rfl⟩⟩
  · rename_i passed
    have success := not_not.mp passed
    split
    · rename_i failed
      exact absurd rfl failed
    · split
      · rename_i protect
        split
        · rename_i small
          exact ⟨rfl, Or.inl ⟨Or.inr ⟨protect, small⟩, rfl, rfl, rfl⟩⟩
        · rename_i fits
          exact ⟨rfl, Or.inr ⟨success, rfl, rfl, rfl, Nat.le_of_not_lt fits, rfl, rfl⟩⟩
      · exact ⟨rfl, Or.inr ⟨success, rfl, rfl, rfl, rfl⟩⟩

theorem set_up_represents (memoryRegions : MemoryRegionLimits) (spe : Spe)
    (protect : config.memoryProtect = true)
    (success : (tfmHalSetUpStaticBoundaries config symbols chip memoryRegions spe).2.1 = .success) :
    Represents config symbols port
      (tfmHalSetUpStaticBoundaries config symbols chip memoryRegions spe).1 []
      (spe.mpu.region.length - (mpuRegionAttributes config symbols).length) := by
  obtain ⟨_, outcome⟩ := set_up_cases config symbols chip memoryRegions spe
  rcases outcome with ⟨_, status, _⟩ | ⟨_, _, _, _, programmed⟩
  · rw [status] at success
    exact HalStatus.noConfusion success
  · rw [if_pos protect] at programmed
    obtain ⟨fits, mpu, count⟩ := programmed
    have shown := program_static config symbols port spe.mpu fits
      (tfmHalSetUpStaticBoundaries config symbols chip memoryRegions spe).1
    exact represents_same config symbols port _ _ [] _ mpu count shown

/-- The set-up succeeds exactly when the bus filter took its policy and the static regions
fit into the MPU. Then the MPU shows these regions and no peripheral, and the SPM gets its
privileged boundary; otherwise the MPU is as it was. -/
theorem set_up_exact (memoryRegions : MemoryRegionLimits) (spe : Spe) :
    let result := tfmHalSetUpStaticBoundaries config symbols chip memoryRegions spe
    let static := mpuRegionAttributes config symbols
    (result.2.1 = .success ↔
      (∀ entry ∈ BusPolicy.policy config.multiCore,
        result.1.platform.filter.grants entry.1 = entry.2) ∧
      (config.memoryProtect = true → static.length ≤ spe.mpu.region.length)) ∧
    (result.2.1 = .success → result.2.2 = some protBoundaryVal ∧
      (config.memoryProtect = true →
        Represents config symbols port result.1 [] (spe.mpu.region.length - static.length))) ∧
    (result.2.1 ≠ .success → result.2.2 = none ∧ result.1.mpu = spe.mpu ∧
      result.1.nConfiguredRegions = spe.nConfiguredRegions) := by
  intro result static
  have shown := set_up_represents config symbols port chip memoryRegions spe
  obtain ⟨filter, outcome⟩ := set_up_cases config symbols chip memoryRegions spe
  change result.1.platform.filter = _ at filter
  rw [filter, ← BusPolicy.bus_filter_success]
  rcases outcome with ⟨cause, status, mpu, count⟩ | ⟨passed, status, _, _, programmed⟩
  · change result.2 = _ at status
    rw [status]
    refine ⟨⟨nofun, ?_⟩, nofun, fun _ => ⟨rfl, mpu, count⟩⟩
    rintro ⟨passed, fits⟩
    rcases cause with failed | ⟨protect, small⟩
    · exact absurd passed failed
    · exact absurd small (Nat.not_lt.mpr (fits protect))
  · change result.2 = _ at status
    rw [status] at shown ⊢
    refine ⟨⟨fun _ => ⟨passed, fun protect => ?_⟩, fun _ => rfl⟩,
      fun _ => ⟨rfl, fun protect => shown protect rfl⟩, fun failed => absurd rfl failed⟩
    rw [if_pos protect] at programmed
    exact programmed.1

/-- The bank of SRAM behind an address: two groups of four are striped by words, two more
follow in one piece each. -/
def sramBank (address : Word) : Option AccessCtrlRegOffset :=
  if 0x20000000 ≤ address ∧ address < 0x20040000 then
    [.acSram0, .acSram1, .acSram2, .acSram3][address.toNat / 4 % 4]?
  else if 0x20040000 ≤ address ∧ address < 0x20080000 then
    [.acSram4, .acSram5, .acSram6, .acSram7][address.toNat / 4 % 4]?
  else if 0x20080000 ≤ address ∧ address < 0x20081000 then some .acSram8
  else if 0x20081000 ≤ address ∧ address < 0x20082000 then some .acSram9
  else none

theorem sram_bank_cases (address : Word) (bank : AccessCtrlRegOffset)
    (behind : sramBank address = some bank) :
    0x20000000 ≤ address.toNat ∧
      ((inRest address = false ∧ bank ∈ c0C1UnprivPeriphOffsets) ∨
        (inRest address = true ∧ bank ∈ nsPrivPeriphOffsets)) := by
  have rest : inRest address = true ↔ 0x20040000 ≤ address.toNat ∧ address.toNat ≤ 0xDFFFFFFF := by
    simp [inRest, sram4Base, ppbBase, BitVec.le_def]
  have upper (given : 0x20040000 ≤ address.toNat) (below : address.toNat < 0x20082000)
      (listed : bank ∈ nsPrivPeriphOffsets) :
      0x20000000 ≤ address.toNat ∧
        ((inRest address = false ∧ bank ∈ c0C1UnprivPeriphOffsets) ∨
          (inRest address = true ∧ bank ∈ nsPrivPeriphOffsets)) :=
    ⟨by omega, Or.inr ⟨rest.mpr (by omega), listed⟩⟩
  simp only [sramBank, BitVec.le_def, BitVec.lt_def, BitVec.reduceToNat] at behind
  split at behind
  · rename_i lower
    refine ⟨lower.1, Or.inl ⟨?_, List.mem_of_getElem? behind⟩⟩
    rw [← Bool.not_eq_true, rest]
    omega
  · split at behind
    · rename_i striped
      apply upper striped.1 (by omega)
      have among := List.mem_of_getElem? behind
      revert among
      clear * -
      cases bank <;> decide
    · split at behind
      · rename_i scratch
        obtain rfl := Option.some.inj behind
        exact upper (by omega) (by omega) (by decide)
      · split at behind
        · rename_i scratch
          obtain rfl := Option.some.inj behind
          exact upper (by omega) (by omega) (by decide)
        · simp at behind

theorem set_up_filters (regions : FlashRegions) (spe : Spe) (left : LeftDisabled spe.platform.soc)
    (success : (tfmHalSetUpStaticBoundaries config symbols chip regions.toMemoryRegionLimits
      spe).2.1 = .success) :
    let platform := (tfmHalSetUpStaticBoundaries config symbols chip regions.toMemoryRegionLimits
      spe).1.platform
    (∀ address, platform.soc.sau.attribution address =
      portPartition regions.toMemoryRegionLimits address) ∧
    (∀ address, platform.soc.dma.nonSecureAccess address =
      (inVeneers regions.toMemoryRegionLimits address || inRest address)) ∧
    ∀ entry ∈ BusPolicy.policy config.multiCore, platform.filter.grants entry.1 = entry.2 := by
  intro platform
  obtain ⟨filter, outcome⟩ :=
    set_up_cases config symbols chip regions.toMemoryRegionLimits spe
  rcases outcome with ⟨_, status, _⟩ | ⟨passed, _, soc, _⟩
  · rw [status] at success
    exact HalStatus.noConfusion success
  · refine ⟨fun address => ?_, fun address => ?_, ?_⟩
    · rw [soc, configured_sau]
      exact sau_cfg_partition regions spe.platform.soc left address
    · rw [soc]
      exact dma_config_open regions _ address
    · rw [show platform.filter = _ from filter]
      exact (BusPolicy.bus_filter_success chip config.multiCore spe.platform.filter).mp passed

/-- After a successful set-up the SAU, the DMA-MPU and ACCESSCTRL agree about every byte of
SRAM: Non-secure code and the DMA reach it through all of them or through none. -/
theorem filters_agree_on_sram (regions : FlashRegions) (spe : Spe)
    (left : LeftDisabled spe.platform.soc)
    (success : (tfmHalSetUpStaticBoundaries config symbols chip regions.toMemoryRegionLimits
      spe).2.1 = .success)
    (address : Word) (bank : AccessCtrlRegOffset) (behind : sramBank address = some bank) :
    let platform := (tfmHalSetUpStaticBoundaries config symbols chip regions.toMemoryRegionLimits
      spe).1.platform
    (platform.soc.sau.attribution address ≠ .secure ↔
        platform.filter.grants bank &&& accessctrlNsp ≠ 0) ∧
      (platform.soc.dma.nonSecureAccess address = true ↔
        platform.filter.grants bank &&& accessctrlDma ≠ 0) := by
  intro platform
  obtain ⟨sau, dma, held⟩ := set_up_filters config symbols chip regions spe left success
  have flash := regions.inFlash
  obtain ⟨above, side⟩ := sram_bank_cases address bank behind
  have notVeneers : inVeneers regions.toMemoryRegionLimits address = false := by
    simp only [inVeneers, BitVec.le_def, Bool.and_eq_false_iff, decide_eq_false_iff_not]
    omega
  have notPartition : inPartition regions.toMemoryRegionLimits address = false := by
    simp only [inPartition, BitVec.le_def, Bool.and_eq_false_iff, decide_eq_false_iff_not]
    omega
  rw [sau, dma, portPartition, notVeneers, notPartition]
  rcases side with ⟨closed, shared⟩ | ⟨opened, given⟩
  · have grant : platform.filter.grants bank = accessctrlSUnprivC0C1 config.multiCore :=
      held (bank, accessctrlSUnprivC0C1 config.multiCore) (by simp [BusPolicy.policy, shared])
    rw [grant, closed]
    cases config.multiCore <;> decide
  · have grant : platform.filter.grants bank = accessctrlNsPriv :=
      held (bank, accessctrlNsPriv) (by simp [BusPolicy.policy, given])
    rw [grant, opened]
    decide

def isNamed (asset : AssetDesc) : Bool := asset.attr &&& port.assetAttrNamedMmio != 0

def namedMmio (assets : List AssetDesc) : List Word :=
  (assets.filter (isNamed port)).map AssetDesc.devRef

def Mapped (privileged : Bool) : Prop := config.isolationLevel = 2 ∧ privileged = false

instance (privileged : Bool) : Decidable (Mapped config privileged) :=
  inferInstanceAs (Decidable (_ ∧ _))

def requested (privileged : Bool) (assets : List AssetDesc) : List Word :=
  if Mapped config privileged then namedMmio port assets else []

/-- The platform allows every named asset, and those to be mapped are aligned and fit. -/
def Admissible (privileged : Bool) (assets : List AssetDesc) (spare : Nat) : Prop :=
  (∀ devRef ∈ namedMmio port assets, devRef ∈ port.mmioList) ∧
    (∀ devRef ∈ requested config port privileged assets, Aligned (port.platformData devRef)) ∧
    (requested config port privileged assets).length ≤ spare

theorem assign_mpu (privileged : Bool) (data : PlatformData) (spe : Spe) :
    (assignPeripheral port chip privileged data spe).mpu = spe.mpu ∧
      (assignPeripheral port chip privileged data spe).nConfiguredRegions =
        spe.nConfiguredRegions := by
  unfold assignPeripheral
  split <;> exact ⟨rfl, rfl⟩

theorem represents_length (spe : Spe) (bound : List Word) (spare : Nat)
    (shown : Represents config symbols port spe bound spare) :
    spe.mpu.region.length = spe.nConfiguredRegions + spare := by
  obtain ⟨idle, regions, length, _⟩ := shown.regions
  rw [regions, List.length_append, length, shown.count]

theorem table_add (bound : List Word) (devRef : Word) :
    table config symbols port (bound ++ [devRef]) =
      table config symbols port bound ++ [deviceRegion config (port.platformData devRef)] := by
  simp [table]

theorem map_represents (spe : Spe) (bound : List Word) (spare : Nat) (devRef : Word)
    (shown : Represents config symbols port spe bound (spare + 1))
    (allowed : devRef ∈ port.mmioList) (aligned : Aligned (port.platformData devRef))
    (privileged : Bool) (mapped : Mapped config privileged) :
    (mapPeripheral config privileged (port.platformData devRef) spe).2 = .success ∧
      Represents config symbols port
        (mapPeripheral config privileged (port.platformData devRef) spe).1 (bound ++ [devRef]) spare := by
  have room : ¬ spe.mpu.region.length ≤ spe.nConfiguredRegions := by
    rw [represents_length config symbols port spe bound (spare + 1) shown]
    omega
  have off : (if spe.mpu.enabled then spe.mpu.disable else spe.mpu) = spe.mpu.disable :=
    if_pos shown.enabled
  have level : config.isolationLevel = 2 ∧ privileged = false := mapped
  rw [mapPeripheral, if_pos level, if_neg room, if_neg (not_not.mpr aligned.1),
    if_neg (not_not.mpr aligned.2), off]
  obtain ⟨idle, regions, length, silent⟩ := shown.regions
  have some : idle ≠ [] := by
    rintro rfl
    exact absurd length (by simp)
  refine ⟨rfl, ⟨idle.tail, ?_, ?_, ?_⟩, ?_, rfl, rfl, rfl, shown.memAttr, ?_⟩
  · change spe.mpu.region.set spe.nConfiguredRegions _ = _
    rw [shown.count, regions, set_first_idle _ _ _ some, table_add]
  · rw [List.length_tail, length]
    rfl
  · exact fun region member => silent region (List.mem_of_mem_tail member)
  · change spe.nConfiguredRegions + 1 = _
    rw [shown.count, table_add, List.length_append, List.length_singleton]
  · intro other member
    rcases List.mem_append.mp member with old | new
    · exact shown.allowed other old
    · obtain rfl := List.mem_singleton.mp new
      exact ⟨allowed, aligned⟩

theorem map_refused (spe : Spe) (bound : List Word) (spare : Nat) (devRef : Word)
    (shown : Represents config symbols port spe bound spare)
    (refused : spare = 0 ∨ ¬ Aligned (port.platformData devRef))
    (privileged : Bool) (mapped : Mapped config privileged) :
    mapPeripheral config privileged (port.platformData devRef) spe = (spe, .errorGeneric) := by
  have level : config.isolationLevel = 2 ∧ privileged = false := mapped
  have length := represents_length config symbols port spe bound spare shown
  rw [mapPeripheral, if_pos level]
  split
  · rfl
  · rename_i room
    split
    · rfl
    · rename_i start
      split
      · rfl
      · rename_i limit
        rcases refused with full | misaligned
        · exact absurd (Nat.le_of_eq (by rw [length, full, Nat.add_zero])) room
        · exact absurd ⟨not_not.mp start, not_not.mp limit⟩ misaligned

theorem named_cons_skip (asset : AssetDesc) (rest : List AssetDesc)
    (numbered : isNamed port asset = false) : namedMmio port (asset :: rest) = namedMmio port rest := by
  simp [namedMmio, numbered]

theorem named_cons (asset : AssetDesc) (rest : List AssetDesc) (named : isNamed port asset = true) :
    namedMmio port (asset :: rest) = asset.devRef :: namedMmio port rest := by
  simp [namedMmio, named]

theorem bind_asset_cases (privileged : Bool) (spe : Spe) (asset : AssetDesc) (bound : List Word)
    (spare : Nat) (shown : Represents config symbols port spe bound spare) :
    let result := bindAsset config port chip privileged spe asset
    (isNamed port asset = false ∧ result = (spe, .success)) ∨
    (isNamed port asset = true ∧ result.2 = .errorGeneric ∧
      Represents config symbols port result.1 bound spare ∧
      (asset.devRef ∉ port.mmioList ∨
        (Mapped config privileged ∧ (spare = 0 ∨ ¬ Aligned (port.platformData asset.devRef))))) ∨
    (isNamed port asset = true ∧ result.2 = .success ∧ asset.devRef ∈ port.mmioList ∧
      ((¬ Mapped config privileged ∧ Represents config symbols port result.1 bound spare) ∨
        (Mapped config privileged ∧ Aligned (port.platformData asset.devRef) ∧
          ∃ left, spare = left + 1 ∧
            Represents config symbols port result.1 (bound ++ [asset.devRef]) left))) := by
  intro result
  simp only [result, bindAsset]
  by_cases zero : asset.attr &&& port.assetAttrNamedMmio = 0
  · exact Or.inl ⟨by simp [isNamed, zero], if_pos zero⟩
  right
  have named : isNamed port asset = true := bne_iff_ne.mpr zero
  rw [if_neg zero]
  by_cases allowed : asset.devRef ∈ port.mmioList
  · rw [if_neg (not_not.mpr allowed)]
    have assigned := assign_mpu port chip privileged (port.platformData asset.devRef) spe
    have still := represents_same config symbols port spe _ bound spare assigned.1 assigned.2 shown
    by_cases mapped : Mapped config privileged
    · by_cases refused : spare = 0 ∨ ¬ Aligned (port.platformData asset.devRef)
      · rw [map_refused config symbols port _ bound spare asset.devRef still refused privileged mapped]
        exact Or.inl ⟨named, rfl, still, Or.inr ⟨mapped, refused⟩⟩
      · rw [not_or, not_not] at refused
        obtain ⟨left, rfl⟩ := Nat.exists_eq_succ_of_ne_zero refused.1
        obtain ⟨passed, next⟩ := map_represents config symbols port _ bound left asset.devRef still
          allowed refused.2 privileged mapped
        exact Or.inr ⟨named, passed, allowed, Or.inr ⟨mapped, refused.2, left, rfl, next⟩⟩
    · have skipped : mapPeripheral config privileged (port.platformData asset.devRef)
          (assignPeripheral port chip privileged (port.platformData asset.devRef) spe) =
          (assignPeripheral port chip privileged (port.platformData asset.devRef) spe, .success) :=
        if_neg mapped
      rw [skipped]
      exact Or.inr ⟨named, rfl, allowed, Or.inl ⟨mapped, still⟩⟩
  · rw [if_pos allowed]
    exact Or.inl ⟨named, rfl, shown, Or.inl allowed⟩

theorem requested_unmapped (privileged : Bool) (assets : List AssetDesc)
    (unmapped : ¬ Mapped config privileged) : requested config port privileged assets = [] :=
  if_neg unmapped

theorem requested_cons (privileged : Bool) (asset : AssetDesc) (rest : List AssetDesc)
    (named : isNamed port asset = true) (mapped : Mapped config privileged) :
    requested config port privileged (asset :: rest) =
      asset.devRef :: requested config port privileged rest := by
  simp only [requested, if_pos mapped, named_cons port asset rest named]

instance (privileged : Bool) (assets : List AssetDesc) (spare : Nat) :
    Decidable (Admissible config port privileged assets spare) :=
  inferInstanceAs (Decidable (_ ∧ _ ∧ _))

theorem admissible_skip (privileged : Bool) (asset : AssetDesc) (rest : List AssetDesc) (spare : Nat)
    (numbered : isNamed port asset = false) :
    Admissible config port privileged (asset :: rest) spare ↔
      Admissible config port privileged rest spare := by
  simp only [Admissible, requested, named_cons_skip port asset rest numbered]

theorem admissible_unmapped (privileged : Bool) (asset : AssetDesc) (rest : List AssetDesc)
    (spare : Nat) (named : isNamed port asset = true) (allowed : asset.devRef ∈ port.mmioList)
    (unmapped : ¬ Mapped config privileged) :
    Admissible config port privileged (asset :: rest) spare ↔
      Admissible config port privileged rest spare := by
  rw [Admissible, Admissible, requested_unmapped config port privileged _ unmapped,
    requested_unmapped config port privileged _ unmapped, named_cons port asset rest named]
  simp [allowed]

theorem admissible_mapped (privileged : Bool) (asset : AssetDesc) (rest : List AssetDesc)
    (left : Nat) (named : isNamed port asset = true) (allowed : asset.devRef ∈ port.mmioList)
    (mapped : Mapped config privileged) (aligned : Aligned (port.platformData asset.devRef)) :
    Admissible config port privileged (asset :: rest) (left + 1) ↔
      Admissible config port privileged rest left := by
  rw [Admissible, Admissible, requested_cons config port privileged asset rest named mapped,
    named_cons port asset rest named]
  simp [allowed, aligned]

/-- The first asset that is refused, and the request before it. -/
def Refusal (privileged : Bool) (assets : List AssetDesc) (spare : Nat) (done : List Word) : Prop :=
  ∃ front asset back, assets = front ++ asset :: back ∧
    Admissible config port privileged front spare ∧
    ¬ Admissible config port privileged (front ++ [asset]) spare ∧
    done = requested config port privileged front

theorem refusal_cons (privileged : Bool) (asset : AssetDesc) (rest : List AssetDesc)
    (spare left : Nat) (done more : List Word)
    (admissible : ∀ assets, Admissible config port privileged (asset :: assets) spare ↔
      Admissible config port privileged assets left)
    (grows : ∀ assets, requested config port privileged (asset :: assets) =
      more ++ requested config port privileged assets)
    (refusal : Refusal config port privileged rest left done) :
    Refusal config port privileged (asset :: rest) spare (more ++ done) := by
  obtain ⟨front, refused, back, rfl, before, here, rfl⟩ := refusal
  refine ⟨asset :: front, refused, back, rfl, (admissible front).mpr before, ?_, (grows front).symm⟩
  rw [List.cons_append, admissible]
  exact here

/-- What a loop through the assets of a partition has done when it ends: it maps requested
peripherals in their order, all of them exactly when the whole request is admissible, and
otherwise those in front of the first asset that is refused. -/
structure Outcome (privileged : Bool) (assets : List AssetDesc) (bound : List Word) (spare : Nat)
    (result : Spe × HalStatus) (done : List Word) : Prop where
  ordered : done <+: requested config port privileged assets
  shown : Represents config symbols port result.1 (bound ++ done) (spare - done.length)
  success : result.2 = .success ↔ Admissible config port privileged assets spare
  complete : result.2 = .success → done = requested config port privileged assets
  refused : result.2 ≠ .success → Refusal config port privileged assets spare done

theorem outcome_refused (privileged : Bool) (asset : AssetDesc) (rest : List AssetDesc)
    (bound : List Word) (spare : Nat) (result : Spe × HalStatus) (failed : result.2 = .errorGeneric)
    (shown : Represents config symbols port result.1 bound spare)
    (refused : ∀ rest, ¬ Admissible config port privileged (asset :: rest) spare) :
    Outcome config symbols port privileged (asset :: rest) bound spare result [] where
  ordered := List.nil_prefix
  shown := by
    rw [List.append_nil]
    exact shown
  success := by
    rw [failed]
    exact ⟨nofun, fun admissible => absurd admissible (refused rest)⟩
  complete := by
    rw [failed]
    exact nofun
  refused := fun _ => ⟨[], asset, rest, rfl, by simp [Admissible, requested, namedMmio], refused [],
    by simp [requested, namedMmio]⟩

theorem outcome_cons (privileged : Bool) (asset : AssetDesc) (rest : List AssetDesc)
    (bound : List Word) (spare left : Nat) (result : Spe × HalStatus) (done more : List Word)
    (room : spare = left + more.length)
    (admissible : ∀ assets, Admissible config port privileged (asset :: assets) spare ↔
      Admissible config port privileged assets left)
    (grows : ∀ assets, requested config port privileged (asset :: assets) =
      more ++ requested config port privileged assets)
    (outcome : Outcome config symbols port privileged rest (bound ++ more) left result done) :
    Outcome config symbols port privileged (asset :: rest) bound spare result (more ++ done) where
  ordered := by
    rw [grows]
    exact (List.prefix_append_right_inj more).mpr outcome.ordered
  shown := by
    rw [← List.append_assoc, List.length_append, room, Nat.add_comm left, Nat.add_sub_add_left]
    exact outcome.shown
  success := outcome.success.trans (admissible rest).symm
  complete := fun success => by rw [grows, outcome.complete success]
  refused := fun failed => refusal_cons config port privileged asset rest spare left done more
    admissible grows (outcome.refused failed)

theorem bind_assets_outcome (privileged : Bool) (spe : Spe) (assets : List AssetDesc)
    (bound : List Word) (spare : Nat) (shown : Represents config symbols port spe bound spare) :
    ∃ done, Outcome config symbols port privileged assets bound spare
      (bindAssets config port chip privileged spe assets) done := by
  induction assets generalizing spe bound spare with
  | nil =>
      have nothing : requested config port privileged [] = [] := by simp [requested, namedMmio]
      refine ⟨[], ⟨List.nil_prefix, ?_, ?_, fun _ => nothing.symm, fun failed => absurd rfl failed⟩⟩
      · rw [List.append_nil]
        exact shown
      · simp [bindAssets, Admissible, nothing, namedMmio]
  | cons asset rest ih =>
      rw [bindAssets]
      rcases bind_asset_cases config symbols port chip privileged spe asset bound spare shown with
        ⟨numbered, skipped⟩ | ⟨named, failed, still, cause⟩ | ⟨named, passed, allowed, bound_⟩
      · obtain ⟨done, outcome⟩ := ih spe bound spare shown
        rw [skipped, if_pos rfl]
        refine ⟨[] ++ done, outcome_cons config symbols port privileged asset rest bound spare spare _
          done [] rfl (fun _ => admissible_skip config port privileged asset _ spare numbered)
          (fun assets => ?_) ?_⟩
        · simp only [requested, named_cons_skip port asset assets numbered, List.nil_append]
        · rw [List.append_nil]
          exact outcome
      · rw [if_neg (by rw [failed]; decide)]
        refine ⟨[], outcome_refused config symbols port privileged asset rest bound spare _ failed still ?_⟩
        rintro rest ⟨all, aligned, fits⟩
        rcases cause with forbidden | ⟨mapped, full⟩
        · rw [named_cons port asset rest named] at all
          exact forbidden (all asset.devRef List.mem_cons_self)
        · rw [requested_cons config port privileged asset rest named mapped] at aligned fits
          rcases full with rfl | misaligned
          · simp at fits
          · exact misaligned (aligned asset.devRef List.mem_cons_self)
      · rw [if_pos passed]
        rcases bound_ with ⟨unmapped, still⟩ | ⟨mapped, aligned, left, rfl, next⟩
        · obtain ⟨done, outcome⟩ := ih _ bound spare still
          refine ⟨[] ++ done, outcome_cons config symbols port privileged asset rest bound spare spare
            _ done [] rfl (fun _ => admissible_unmapped config port privileged asset _ spare named
              allowed unmapped) (fun assets => ?_) ?_⟩
          · simp only [requested_unmapped config port privileged _ unmapped, List.nil_append]
          · rw [List.append_nil]
            exact outcome
        · obtain ⟨done, outcome⟩ := ih _ (bound ++ [asset.devRef]) left next
          exact ⟨[asset.devRef] ++ done, outcome_cons config symbols port privileged asset rest bound
            (left + 1) left _ done [asset.devRef] rfl
            (fun _ => admissible_mapped config port privileged asset _ left named allowed mapped aligned)
            (fun assets => requested_cons config port privileged asset assets named mapped) outcome⟩

theorem bind_boundary_outcome (info : PartitionLoadInfo) (spe : Spe) (bound : List Word)
    (spare : Nat) (shown : Represents config symbols port spe bound spare) :
    let privileged := partitionPrivileged config info
    let result := tfmHalBindBoundary config port chip (some info) true spe
    ∃ done, Outcome config symbols port privileged info.assets bound spare (result.1, result.2.1) done ∧
      result.2.2 = if result.2.1 = .success then some (boundaryHandle privileged info.isNsAgentTz)
        else none := by
  intro privileged result
  obtain ⟨done, outcome⟩ :=
    bind_assets_outcome config symbols port chip privileged spe info.assets bound spare shown
  refine ⟨done, ?_⟩
  simp only [result, tfmHalBindBoundary, Bool.true_eq_false, if_false]
  by_cases success : (bindAssets config port chip privileged spe info.assets).2 = .success
  · rw [if_pos success, if_pos rfl]
    rw [← success]
    exact ⟨outcome, rfl⟩
  · rw [if_neg success, if_neg success]
    exact ⟨outcome, rfl⟩

/-- A partition is bound exactly when its request is admissible; then its peripherals follow
those bound before and the handle names its privilege. A refused partition gets no handle, but
keeps the regions of the peripherals in front of the first asset that is refused. -/
theorem bind_boundary_exact (info : PartitionLoadInfo) (spe : Spe) (bound : List Word)
    (spare : Nat) (shown : Represents config symbols port spe bound spare) :
    let privileged := partitionPrivileged config info
    let result := tfmHalBindBoundary config port chip (some info) true spe
    (result.2.1 = .success ↔ Admissible config port privileged info.assets spare) ∧
    (result.2.2 = if Admissible config port privileged info.assets spare then
        some (boundaryHandle privileged info.isNsAgentTz) else none) ∧
    ∃ done, (result.2.1 = .success → done = requested config port privileged info.assets) ∧
      (result.2.1 ≠ .success → Refusal config port privileged info.assets spare done) ∧
      Represents config symbols port result.1 (bound ++ done) (spare - done.length) := by
  intro privileged result
  obtain ⟨done, outcome, handle⟩ :=
    bind_boundary_outcome config symbols port chip info spe bound spare shown
  refine ⟨outcome.success, ?_, done, outcome.complete, outcome.refused, outcome.shown⟩
  by_cases admissible : Admissible config port privileged info.assets spare
  · rw [if_pos admissible]
    exact handle.trans (if_pos (outcome.success.mpr admissible))
  · rw [if_neg admissible]
    exact handle.trans (if_neg fun success => admissible (outcome.success.mp success))

/-- A build of level 2 with two peripherals on offer, on an MPU of eight regions. -/
def sampleConfig : HalConfig where
  memoryProtect := true
  useTrustZone := true
  partitionMeta := true
  pxnEnable := true
  multiCore := true
  isolationLevel := 2
  compiles := fun _ => rfl

def sampleSymbols : LinkerSymbols where
  erVeneerBase := 0x10060000
  veneerAlignLimit := 0x10060080
  unprivCodeStart := 0x10030000
  unprivCodeEnd := 0x10050000
  appCodeStart := 0x10020000
  appCodeEnd := 0x10030000
  appRwStackStart := 0x20010000
  appRwStackEnd := 0x20018000
  spMetaPtr := 0x20018000
  spMetaPtrEnd := 0x20018020

def stdUartRef : Word := 0x10050000
def timer0Ref : Word := 0x10050010

def samplePort : Port where
  mmioList := [stdUartRef, timer0Ref]
  platformData := fun devRef =>
    if devRef = stdUartRef then tfmPeripheralStdUart else tfmPeripheralTimer0
  assetAttrNamedMmio := 1
  ppcSpDoNotConfigure := 0xFFFFFFFF

def timerPartition : PartitionLoadInfo where
  assets := [⟨1, timer0Ref⟩]
  isPsaRot := false
  isNsAgentTz := false

def greedyPartition : PartitionLoadInfo :=
  { timerPartition with assets := [⟨1, timer0Ref⟩, ⟨1, 0x10050020⟩] }

def sampleSpe : Spe where
  platform := { samplePlatform with filter := BusPolicy.sampleFilter }
  mpu := ⟨List.replicate 8 ⟨⟨0, false, false, false⟩, ⟨0, false, 0, false⟩⟩, fun _ => none, false,
    false, false⟩
  nConfiguredRegions := 0
  nPriv := false
  nPrivNs := false

theorem sample_succeeds (symbols : LinkerSymbols) (memoryRegions : MemoryRegionLimits) :
    (tfmHalSetUpStaticBoundaries sampleConfig symbols BusPolicy.documentedChip memoryRegions
      sampleSpe).2.1 = .success := by
  have passed := BusPolicy.sample_configured BusPolicy.sampleFilter (by decide)
  obtain ⟨_, outcome⟩ :=
    set_up_cases sampleConfig symbols BusPolicy.documentedChip memoryRegions sampleSpe
  rcases outcome with ⟨failed | ⟨_, small⟩, _⟩ | ⟨_, status, _⟩
  · exact absurd passed failed
  · exact absurd small (show ¬ 8 < 5 by decide)
  · rw [status]

theorem sample_set_up :
    (tfmHalSetUpStaticBoundaries sampleConfig sampleSymbols BusPolicy.documentedChip
      sampleRegions.toMemoryRegionLimits sampleSpe).2.1 = .success :=
  sample_succeeds sampleSymbols sampleRegions.toMemoryRegionLimits

theorem sample_filters_agree :
    let platform := (tfmHalSetUpStaticBoundaries sampleConfig sampleSymbols BusPolicy.documentedChip
      sampleRegions.toMemoryRegionLimits sampleSpe).1.platform
    (platform.soc.sau.attribution 0x20040004 ≠ .secure ↔
        platform.filter.grants .acSram5 &&& accessctrlNsp ≠ 0) ∧
      (platform.soc.dma.nonSecureAccess 0x20040004 = true ↔
        platform.filter.grants .acSram5 &&& accessctrlDma ≠ 0) :=
  filters_agree_on_sram sampleConfig sampleSymbols BusPolicy.documentedChip sampleRegions sampleSpe
    reset_left sample_set_up 0x20040004 .acSram5 (by decide)

theorem sample_shown :
    Represents sampleConfig sampleSymbols samplePort
      (tfmHalSetUpStaticBoundaries sampleConfig sampleSymbols BusPolicy.documentedChip
        sampleRegions.toMemoryRegionLimits sampleSpe).1 [] 3 :=
  set_up_represents sampleConfig sampleSymbols samplePort BusPolicy.documentedChip _ sampleSpe rfl
    sample_set_up

theorem greedy_partition_bound :
    let spe := (tfmHalSetUpStaticBoundaries sampleConfig sampleSymbols BusPolicy.documentedChip
      sampleRegions.toMemoryRegionLimits sampleSpe).1
    let privileged := partitionPrivileged sampleConfig greedyPartition
    let result := tfmHalBindBoundary sampleConfig samplePort BusPolicy.documentedChip
      (some greedyPartition) true spe
    (result.2.1 = .success ↔ Admissible sampleConfig samplePort privileged greedyPartition.assets 3) ∧
    (result.2.2 = if Admissible sampleConfig samplePort privileged greedyPartition.assets 3 then
        some (boundaryHandle privileged greedyPartition.isNsAgentTz) else none) ∧
    ∃ done, (result.2.1 = .success →
        done = requested sampleConfig samplePort privileged greedyPartition.assets) ∧
      (result.2.1 ≠ .success →
        Refusal sampleConfig samplePort privileged greedyPartition.assets 3 done) ∧
      Represents sampleConfig sampleSymbols samplePort result.1 ([] ++ done) (3 - done.length) :=
  bind_boundary_exact sampleConfig sampleSymbols samplePort BusPolicy.documentedChip greedyPartition _ []
    3 sample_shown

end Rp2350Tee.PartitionBoundaries
