import Rp2350Tee.ArmMpu
import Rp2350Tee.TargetConfig

/-!
`reference/tfm_hal_isolation_rp2350.c`: the isolation boundaries of the Secure partitions.
The switches of the build are a configuration record; what the SPM, the partitions'
manifests and the linker supply are parameters.
-/

namespace Rp2350Tee.TfmIsolation

open TzConfig BusFilter TargetConfig ArmMpu

/-- `TFM_ISOLATION_LEVEL` and the other switches of the file. Level 2 does not compile
without memory protection. -/
structure HalConfig where
  memoryProtect : Bool
  useTrustZone : Bool
  partitionMeta : Bool
  pxnEnable : Bool
  multiCore : Bool
  isolationLevel : Nat
  compiles : isolationLevel = 2 → memoryProtect = true

/-- The section symbols of `linker_s.ld`. -/
structure LinkerSymbols where
  erVeneerBase : Word
  veneerAlignLimit : Word
  unprivCodeStart : Word
  unprivCodeEnd : Word
  appCodeStart : Word
  appCodeEnd : Word
  appRwStackStart : Word
  appRwStackEnd : Word
  spMetaPtr : Word
  spMetaPtrEnd : Word

/-- What other files of the port supply: the named MMIO that partitions may ask for, the
record behind a reference to one, and two constants. -/
structure Port where
  mmioList : List Word
  platformData : Word → PlatformData
  assetAttrNamedMmio : Word
  ppcSpDoNotConfigure : Word

structure AssetDesc where
  attr : Word
  devRef : Word

structure PartitionLoadInfo where
  assets : List AssetDesc
  isPsaRot : Bool
  isNsAgentTz : Bool

/-- `CONTROL.nPRIV` of either world is all that the file uses of the register. -/
structure Spe where
  platform : Platform
  mpu : Mpu
  nConfiguredRegions : Nat
  nPriv : Bool
  nPrivNs : Bool

inductive HalStatus where
  | success | errorGeneric | errorInvalidInput | errorMemFault
  deriving DecidableEq

def handleAttrPrivPos : Nat := 1
def handleAttrPrivMask : Word := 0x1 <<< handleAttrPrivPos
def handleAttrNsPos : Nat := 0
def handleAttrNsMask : Word := 0x1 <<< handleAttrNsPos
def protBoundaryVal : Word := (1 <<< handleAttrPrivPos) &&& handleAttrPrivMask

variable (config : HalConfig) (symbols : LinkerSymbols) (port : Port)
  (chip : Chip AccessCtrlRegOffset)

/-- `ARM_MPU_RLAR_PXN` where `TFM_PXN_ENABLE` is set, else `ARM_MPU_RLAR`. -/
def rlar (limit : Word) (privilegedExecuteNever : Bool) (attrIndx : Nat) : Rlar :=
  if config.pxnEnable then armMpuRlarPxn limit privilegedExecuteNever attrIndx
  else armMpuRlar limit attrIndx

def mpuRegionAttributes : List MpuRegion :=
  -- TFM Veneer region (Bootrom SGs are not included)
  (if config.useTrustZone then
    [⟨armMpuRbar symbols.erVeneerBase true true false,
      rlar config (symbols.veneerAlignLimit - 1) false 0⟩]
  else []) ++
  -- TFM Core unprivileged code region
  [⟨armMpuRbar symbols.unprivCodeStart true true false,
      rlar config (symbols.unprivCodeEnd - 1) false 0⟩,
  -- RO region
    ⟨armMpuRbar symbols.appCodeStart true true false,
      rlar config (symbols.appCodeEnd - 1) (config.isolationLevel ≠ 1) 0⟩,
  -- RW, ZI and stack as one region
    ⟨armMpuRbar symbols.appRwStackStart false true true,
      rlar config (symbols.appRwStackEnd - 1) true 1⟩] ++
  -- TFM partition metadata pointer region
  (if config.partitionMeta then
    [⟨armMpuRbar symbols.spMetaPtr false true true,
      rlar config (symbols.spMetaPtrEnd - 1) true 1⟩]
  else [])

/-- The MPU part of `tfm_hal_set_up_static_boundaries`, once the regions are known to fit. -/
def programStatic (mpu : Mpu) : Mpu :=
  -- Turn off MPU during configuration
  let mpu := if mpu.enabled then mpu.disable else mpu
  -- Disable all regions
  let mpu := (List.range mpu.region.length).foldl Mpu.clrRegion mpu
  -- Configure attribute registers
  let mpu := mpu.setMemAttr 0 .writeThroughReadAllocate
  let mpu := mpu.setMemAttr 1 .writeBackReadWriteAllocate
  let mpu := mpu.setMemAttr 2 .deviceNGnRE
  -- Configure regions
  let mpu := (mpuRegionAttributes config symbols).zipIdx.foldl
    (fun mpu entry => mpu.setRegion entry.2 entry.1) mpu
  mpu.enable

/-- The last component is what `*p_spm_boundary` receives, if anything. -/
def tfmHalSetUpStaticBoundaries (memoryRegions : MemoryRegionLimits) (spe : Spe) :
    Spe × HalStatus × Option Word :=
  -- Set up isolation boundaries between SPE and NSPE
  let platform := { spe.platform with soc := sauAndIdauCfg memoryRegions spe.platform.soc }
  let filtered := busFilterCfg chip config.multiCore platform.filter
  let platform := { platform with filter := filtered.1 }
  if filtered.2 ≠ .success then ({ spe with platform := platform }, .errorGeneric, none)
  else
    let secured := dmaSecurityConfig memoryRegions platform
    let spe := { spe with platform := secured.1 }
    if secured.2 ≠ .success then (spe, .errorGeneric, none)
    -- Set up static isolation boundaries inside SPE
    else if config.memoryProtect then
      if spe.mpu.region.length < (mpuRegionAttributes config symbols).length then
        (spe, .errorGeneric, none)
      else
        ({ spe with
            mpu := programStatic config symbols spe.mpu
            nConfiguredRegions := (mpuRegionAttributes config symbols).length },
          .success, some protBoundaryVal)
    else (spe, .success, some protBoundaryVal)

def deviceRegion (data : PlatformData) : MpuRegion :=
  ⟨armMpuRbar data.periphStart false true true, rlar config data.periphLimit true 2⟩

def assignPeripheral (privileged : Bool) (data : PlatformData) (spe : Spe) : Spe :=
  if data.periphPpcBank ≠ port.ppcSpDoNotConfigure then
    let filter :=
      if privileged then
        accessCtrlConfigureToSecurePrivileged chip data.periphPpcMask spe.platform.filter
      else accessCtrlConfigureToSecureUnprivileged chip data.periphPpcMask spe.platform.filter
    { spe with platform := { spe.platform with filter := filter } }
  else spe

/-- The MPU part of one asset: unprivileged assets of level 2 only. -/
def mapPeripheral (privileged : Bool) (data : PlatformData) (spe : Spe) : Spe × HalStatus :=
  if config.isolationLevel = 2 ∧ privileged = false then
    -- There is a limited number of available MPU regions in v8M
    if spe.mpu.region.length ≤ spe.nConfiguredRegions then (spe, .errorGeneric)
    else if data.periphStart &&& ~~~mpuRbarBaseMsk ≠ 0 then (spe, .errorGeneric)
    else if data.periphLimit &&& ~~~mpuRlarLimitMsk ≠ 0x1F then (spe, .errorGeneric)
    else
      let mpu := if spe.mpu.enabled then spe.mpu.disable else spe.mpu
      let mpu := mpu.setRegion spe.nConfiguredRegions (deviceRegion config data)
      ({ spe with mpu := mpu.enable, nConfiguredRegions := spe.nConfiguredRegions + 1 }, .success)
  else (spe, .success)

def bindAsset (privileged : Bool) (spe : Spe) (asset : AssetDesc) : Spe × HalStatus :=
  if asset.attr &&& port.assetAttrNamedMmio = 0 then (spe, .success)
  -- The MMIO asset is not in the allowed list of platform.
  else if asset.devRef ∉ port.mmioList then (spe, .errorGeneric)
  else
    let data := port.platformData asset.devRef
    mapPeripheral config privileged data (assignPeripheral port chip privileged data spe)

def bindAssets (privileged : Bool) : Spe → List AssetDesc → Spe × HalStatus
  | spe, [] => (spe, .success)
  | spe, asset :: rest =>
      let bound := bindAsset config port chip privileged spe asset
      if bound.2 = .success then bindAssets privileged bound.1 rest else bound

def partitionPrivileged (partition : PartitionLoadInfo) : Bool :=
  if config.isolationLevel = 1 then true else partition.isPsaRot

def boundaryHandle (privileged nsAgentTz : Bool) : Word :=
  ((BitVec.ofNat 32 privileged.toNat <<< handleAttrPrivPos) &&& handleAttrPrivMask) |||
    ((BitVec.ofNat 32 nsAgentTz.toNat <<< handleAttrNsPos) &&& handleAttrNsMask)

/-- `none` stands for a null `p_ldinf`, `receives` for a `p_boundary` that is not null. -/
def tfmHalBindBoundary (partition : Option PartitionLoadInfo) (receives : Bool) (spe : Spe) :
    Spe × HalStatus × Option Word :=
  match partition with
  | none => (spe, .errorGeneric, none)
  | some info =>
      if receives = false then (spe, .errorGeneric, none)
      else
        let privileged := partitionPrivileged config info
        let bound := bindAssets config port chip privileged spe info.assets
        if bound.2 = .success then
          (bound.1, .success, some (boundaryHandle privileged info.isNsAgentTz))
        else (bound.1, bound.2, none)

def handlePrivileged (boundary : Word) : Bool := boundary &&& handleAttrPrivMask != 0

def tfmHalActivateBoundary (boundary : Word) (spe : Spe) : Spe × HalStatus :=
  ({ spe with nPriv := !handlePrivileged boundary }, .success)

def tfmHalBoundaryNeedSwitch (boundaryFrom boundaryTo : Word) : Bool :=
  if boundaryFrom = boundaryTo then false
  else if handlePrivileged boundaryFrom && handlePrivileged boundaryTo then false
  else true

/-- The bits of `access_type` that the check looks at. -/
structure AccessType where
  readable : Bool
  writable : Bool
  ns : Bool

/-- The flags for `cmse_check_address_range`. -/
structure CmseFlags where
  mpuReadWrite : Bool
  mpuRead : Bool
  mpuUnpriv : Bool
  nonsecure : Bool

/-- Whether `cmse_check_address_range` returns anything but `NULL`. -/
abbrev CmseCheck := Word → Word → CmseFlags → Bool

def memoryCheckFlags (boundary : Word) (nPrivNs : Bool) (access : AccessType) : CmseFlags :=
  let flags : CmseFlags :=
    { mpuReadWrite := access.readable && access.writable
      mpuRead := !(access.readable && access.writable) && access.readable
      mpuUnpriv := !handlePrivileged boundary
      nonsecure := access.ns }
  -- This check is only done for ns_agent_tz
  if boundary &&& handleAttrNsMask ≠ 0 then
    { flags with mpuUnpriv := nPrivNs, nonsecure := true }
  else flags

def tfmHalMemoryCheck (cmse : CmseCheck) (boundary base size : Word) (access : AccessType)
    (spe : Spe) : HalStatus :=
  if size = 0 then .success
  else if base = 0 then .errorInvalidInput
  else if access.readable = false then .errorInvalidInput
  else if cmse base size (memoryCheckFlags boundary spe.nPrivNs access) then .success
  else .errorMemFault

end Rp2350Tee.TfmIsolation
