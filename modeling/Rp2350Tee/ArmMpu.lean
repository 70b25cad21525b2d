import Rp2350Tee.RegionTable
import Rp2350Tee.TzConfig

/-!
The Secure MPU of the Cortex-M33 as the CMSIS macros and functions program it. A region
keeps what its two registers say: the macros drop the lower five bits of an address, and
a limit takes in its whole granule. The PPB is exempt from the MPU by architecture; the
answers below are those of the MPU itself.
-/

namespace Rp2350Tee.ArmMpu

open TzConfig (Word)
open RegionTable

def mpuRbarBaseMsk : Word := ~~~ 0x1F
def mpuRlarLimitMsk : Word := ~~~ 0x1F

structure Rbar where
  base : Word
  readOnly : Bool
  unprivileged : Bool
  executeNever : Bool

structure Rlar where
  limit : Word
  privilegedExecuteNever : Bool
  attrIndx : Nat
  enabled : Bool

structure MpuRegion where
  rbar : Rbar
  rlar : Rlar

/-- `ARM_MPU_RBAR`, for regions that are not shareable. -/
def armMpuRbar (base : Word) (readOnly unprivileged executeNever : Bool) : Rbar :=
  ⟨base &&& mpuRbarBaseMsk, readOnly, unprivileged, executeNever⟩

def armMpuRlar (limit : Word) (attrIndx : Nat) : Rlar :=
  ⟨limit &&& mpuRlarLimitMsk, false, attrIndx, true⟩

def armMpuRlarPxn (limit : Word) (privilegedExecuteNever : Bool) (attrIndx : Nat) : Rlar :=
  ⟨limit &&& mpuRlarLimitMsk, privilegedExecuteNever, attrIndx, true⟩

inductive MemoryAttribute where
  | writeThroughReadAllocate | writeBackReadWriteAllocate | deviceNGnRE
  deriving DecidableEq

/-- `region` holds one entry for each region of `MPU_TYPE`. -/
structure Mpu where
  region : List MpuRegion
  memAttr : Nat → Option MemoryAttribute
  enabled : Bool
  privDefEna : Bool
  hfNmiEna : Bool

def Mpu.disable (mpu : Mpu) : Mpu := { mpu with enabled := false }

/-- `ARM_MPU_Enable(MPU_CTRL_PRIVDEFENA_Msk | MPU_CTRL_HFNMIENA_Msk)`. -/
def Mpu.enable (mpu : Mpu) : Mpu := { mpu with enabled := true, privDefEna := true, hfNmiEna := true }

/-- `ARM_MPU_ClrRegion` clears the limit register alone. -/
def clearRlar (region : MpuRegion) : MpuRegion := { region with rlar := ⟨0, false, 0, false⟩ }

def Mpu.clrRegion (mpu : Mpu) (index : Nat) : Mpu :=
  { mpu with region := mpu.region.modify index clearRlar }

def Mpu.setRegion (mpu : Mpu) (index : Nat) (region : MpuRegion) : Mpu :=
  { mpu with region := mpu.region.set index region }

def Mpu.setMemAttr (mpu : Mpu) (index : Nat) (memory : MemoryAttribute) : Mpu :=
  { mpu with memAttr := Function.update mpu.memAttr index (some memory) }

inductive AccessKind where
  | read | write | execute
  deriving DecidableEq

def MpuRegion.covers (region : MpuRegion) (address : Word) : Bool :=
  region.rlar.enabled && decide (region.rbar.base ≤ address) &&
    decide (address ≤ region.rlar.limit ||| 0x1F)

def MpuRegion.permits (region : MpuRegion) (privileged : Bool) : AccessKind → Bool
  | .read => region.rbar.unprivileged || privileged
  | .write => (region.rbar.unprivileged || privileged) && !region.rbar.readOnly
  | .execute => (region.rbar.unprivileged || privileged) && !region.rbar.executeNever &&
      !(privileged && region.rlar.privilegedExecuteNever)

/-- The processor: its privilege, and whether it runs a HardFault or NMI handler. -/
structure Context where
  privileged : Bool
  faultHandler : Bool

/-- The default memory map executes nothing from peripherals and devices. -/
def defaultPermits (address : Word) (kind : AccessKind) : Bool :=
  kind ≠ .execute || decide (address < 0x40000000) ||
    (decide (0x60000000 ≤ address) && decide (address < 0xA0000000))

def Mpu.active (mpu : Mpu) (context : Context) : Bool :=
  mpu.enabled && (!context.faultHandler || mpu.hfNmiEna)

/-- Regions that overlap at an address let nobody through. -/
def Mpu.permits (mpu : Mpu) (context : Context) (kind : AccessKind) (address : Word) : Bool :=
  if mpu.active context then
    match hits MpuRegion.covers mpu.region address with
    | [] => context.privileged && mpu.privDefEna && defaultPermits address kind
    | [region] => region.permits context.privileged kind
    | _ => false
  else defaultPermits address kind

theorem permits_unprivileged (mpu : Mpu) (faultHandler : Bool) (kind : AccessKind) (address : Word)
    (active : mpu.active ⟨false, faultHandler⟩ = true) :
    mpu.permits ⟨false, faultHandler⟩ kind address = true ↔
      ∃ region, soleHit MpuRegion.covers mpu.region address = some region ∧
        region.permits false kind = true := by
  rw [Mpu.permits, if_pos active]
  unfold soleHit
  match hits MpuRegion.covers mpu.region address with
  | [] => simp
  | [_] => simp
  | _ :: _ :: _ => simp

theorem clear_silent (region : MpuRegion) (address : Word) :
    (clearRlar region).covers address = false := rfl

theorem clear_regions (mpu : Mpu) :
    (List.range mpu.region.length).foldl Mpu.clrRegion mpu =
      { mpu with region := mpu.region.map clearRlar } := by
  have through (indices : List Nat) (mpu : Mpu) :
      indices.foldl Mpu.clrRegion mpu =
        { mpu with region :=
            indices.foldl (fun table index => table.modify index clearRlar) mpu.region } := by
    induction indices generalizing mpu with
    | nil => rfl
    | cons index rest ih => exact ih (mpu.clrRegion index)
  rw [through, modify_all clearRlar mpu.region _ (Nat.le_refl _), List.take_length, List.drop_length,
    List.append_nil]

theorem set_regions (mpu : Mpu) (regions : List MpuRegion)
    (fits : regions.length ≤ mpu.region.length) :
    regions.zipIdx.foldl (fun mpu entry => mpu.setRegion entry.2 entry.1) mpu =
      { mpu with region := regions ++ mpu.region.drop regions.length } := by
  have through (entries : List (MpuRegion × Nat)) (mpu : Mpu) :
      entries.foldl (fun mpu entry => mpu.setRegion entry.2 entry.1) mpu =
        { mpu with region :=
            entries.foldl (fun table entry => table.set entry.2 entry.1) mpu.region } := by
    induction entries generalizing mpu with
    | nil => rfl
    | cons entry rest ih => exact ih (mpu.setRegion entry.2 entry.1)
  have all := set_all ([] : List MpuRegion) mpu.region regions fits
  rw [List.length_nil, List.nil_append, List.nil_append] at all
  rw [through, all]

end Rp2350Tee.ArmMpu
