import Rp2350Tee.ByteMemory
import Rp2350Tee.PartitionRuns

/-!
The handles of the boundaries: what a handle says of its partition, switching between
partitions only when the handles call for it, and checking buffers on behalf of a
partition. `cmse_check_address_range` is the compiler's and stays a parameter.
-/

namespace Rp2350Tee.BoundarySwitch

open TzConfig TargetConfig ArmMpu TfmIsolation ByteMemory Runs PartitionBoundaries PartitionRuns

theorem handle_privileged (privileged nsAgentTz : Bool) :
    handlePrivileged (boundaryHandle privileged nsAgentTz) = privileged := by
  cases privileged <;> cases nsAgentTz <;> decide

theorem handle_ns_agent (privileged nsAgentTz : Bool) :
    boundaryHandle privileged nsAgentTz &&& handleAttrNsMask ≠ 0 ↔ nsAgentTz = true := by
  cases privileged <;> cases nsAgentTz <;> decide

structure Running where
  boundary : Word
  spe : Spe

/-- As the SPM does it: the handles are compared first. -/
def switchIfNeeded (running : Running) (next : Word) : Running × Bool :=
  let spe := if tfmHalBoundaryNeedSwitch running.boundary next then
    (tfmHalActivateBoundary next running.spe).1 else running.spe
  (⟨next, spe⟩, spe.nPriv)

def switchAlways (running : Running) (next : Word) : Running × Bool :=
  let spe := (tfmHalActivateBoundary next running.spe).1
  (⟨next, spe⟩, spe.nPriv)

def InStep (running : Running) : Prop := running.spe.nPriv = !handlePrivileged running.boundary

theorem activate_same (spe : Spe) (boundary : Word) (same : spe.nPriv = !handlePrivileged boundary) :
    (tfmHalActivateBoundary boundary spe).1 = spe := by
  rw [tfmHalActivateBoundary, ← same]

theorem need_switch (boundaryFrom boundaryTo : Word)
    (spared : tfmHalBoundaryNeedSwitch boundaryFrom boundaryTo = false) :
    handlePrivileged boundaryTo = handlePrivileged boundaryFrom := by
  unfold tfmHalBoundaryNeedSwitch at spared
  split at spared
  · rename_i same
    rw [same]
  · split at spared
    · rename_i both
      rw [Bool.and_eq_true] at both
      rw [both.1, both.2]
    · exact absurd spared (by decide)

theorem switch_same (running : Running) (next : Word) (inStep : InStep running) :
    switchAlways running next = switchIfNeeded running next := by
  rw [switchAlways, switchIfNeeded]
  cases needed : tfmHalBoundaryNeedSwitch running.boundary next with
  | true => rfl
  | false =>
      have same : running.spe.nPriv = !handlePrivileged next := by
        rw [need_switch running.boundary next needed]
        exact inStep
      rw [activate_same running.spe next same]
      rfl

theorem switch_in_step (running : Running) (next : Word) (inStep : InStep running) :
    InStep (switchIfNeeded running next).1 := by
  rw [← switch_same running next inStep]
  rfl

theorem switch_shows (running : Running) (schedule : List Word) :
    trace switchAlways running schedule = schedule.map fun boundary => !handlePrivileged boundary := by
  induction schedule generalizing running with
  | nil => rfl
  | cons next rest ih => exact congrArg _ (ih (switchAlways running next).1)

/-- From the SPM's own boundary on, switching only when the handles call for it gives every
scheduled partition the privilege of its handle, and is the same as switching always. -/
theorem switching_if_needed_suffices (spe : Spe) (privileged : spe.nPriv = false)
    (schedule : List Word) :
    let start : Running := ⟨protBoundaryVal, spe⟩
    trace switchIfNeeded start schedule = (schedule.map fun boundary => !handlePrivileged boundary) ∧
      trace switchIfNeeded start schedule = trace switchAlways start schedule ∧
      finish switchIfNeeded start schedule = finish switchAlways start schedule := by
  intro start
  have named : false = !handlePrivileged protBoundaryVal := by decide
  have inStep : InStep start := privileged.trans named
  obtain ⟨same, final⟩ := simulates_run switchIfNeeded switchAlways id (fun _ _ => True) InStep
    (fun running next holds _ => switch_same running next holds)
    (fun running next holds => switch_in_step running next holds) start schedule inStep
    (meets_of_forall _ _ (fun _ _ => trivial) start schedule)
  refine ⟨?_, same.symm, final.symm⟩
  rw [← same]
  exact switch_shows start schedule

theorem sample_switching :
    let start : Running := ⟨protBoundaryVal, sampleSpe⟩
    trace switchIfNeeded start [0, 2, 2, 1] =
        (([0, 2, 2, 1] : List Word).map fun boundary => !handlePrivileged boundary) ∧
      trace switchIfNeeded start [0, 2, 2, 1] = trace switchAlways start [0, 2, 2, 1] ∧
      finish switchIfNeeded start [0, 2, 2, 1] = finish switchAlways start [0, 2, 2, 1] :=
  switching_if_needed_suffices sampleSpe rfl [0, 2, 2, 1]

/-- The kinds of access that a check with these flags vouches for. -/
def CmseFlags.vouches (flags : CmseFlags) (kind : AccessKind) : Prop :=
  (kind = .read ∧ (flags.mpuRead = true ∨ flags.mpuReadWrite = true)) ∨
    (kind = .write ∧ flags.mpuReadWrite = true)

/-- What the documentation of `cmse_check_address_range` promises of a range that passes: it
does not wrap, and each byte is Non-secure, or accessible at the privilege asked for. -/
def CmseSound (spe : Spe) (cmse : CmseCheck) : Prop :=
  ∀ base size flags, cmse base size flags = true →
    base.toNat + size.toNat ≤ 2 ^ 32 ∧ ∀ address, Within base size.toNat address →
      (flags.nonsecure = true → spe.platform.soc.sau.attribution address = .nonSecure) ∧
      (flags.nonsecure = false → ∀ kind, CmseFlags.vouches flags kind →
        spe.mpu.permits ⟨!flags.mpuUnpriv, false⟩ kind address = true)

theorem check_passed (cmse : CmseCheck) (boundary base size : Word) (access : AccessType) (spe : Spe)
    (some : size ≠ 0) (passed : tfmHalMemoryCheck cmse boundary base size access spe = .success) :
    access.readable = true ∧ cmse base size (memoryCheckFlags boundary spe.nPrivNs access) = true := by
  rw [tfmHalMemoryCheck, if_neg some] at passed
  split at passed
  · exact HalStatus.noConfusion passed
  · split at passed
    · exact HalStatus.noConfusion passed
    · rename_i readable
      split at passed
      · rename_i accepted
        exact ⟨by simpa using readable, accepted⟩
      · exact HalStatus.noConfusion passed

theorem flags_agent (boundary : Word) (nPrivNs : Bool) (access : AccessType)
    (outer : boundary &&& handleAttrNsMask ≠ 0 ∨ access.ns = true) :
    (memoryCheckFlags boundary nPrivNs access).nonsecure = true := by
  unfold memoryCheckFlags
  dsimp only
  split
  · rfl
  · rename_i inner
    rcases outer with agent | asked
    · exact absurd agent inner
    · exact asked

theorem flags_partition (boundary : Word) (nPrivNs : Bool) (access : AccessType)
    (inner : ¬ boundary &&& handleAttrNsMask ≠ 0) (secure : access.ns = false) :
    (memoryCheckFlags boundary nPrivNs access).nonsecure = false ∧
      (memoryCheckFlags boundary nPrivNs access).mpuUnpriv = !handlePrivileged boundary := by
  unfold memoryCheckFlags
  rw [if_neg inner]
  exact ⟨secure, rfl⟩

theorem flags_vouch (boundary : Word) (nPrivNs : Bool) (access : AccessType)
    (readable : access.readable = true) (kind : AccessKind)
    (asked : kind = .read ∨ (kind = .write ∧ access.writable = true)) :
    CmseFlags.vouches (memoryCheckFlags boundary nPrivNs access) kind := by
  unfold CmseFlags.vouches memoryCheckFlags
  rcases asked with rfl | ⟨rfl, writable⟩
  · left
    cases access.writable <;> split <;> simp [readable]
  · right
    split <;> simp [readable, writable]

section Checked

variable (config : HalConfig) (symbols : LinkerSymbols) (port : Port)
  (chip : BusFilter.Chip AccessCtrlRegOffset) (memoryRegions : MemoryRegionLimits) (start : Spe)

/-- In every run a buffer that passes the check for a partition is the partition's own: for
the Non-secure agent it is Non-secure, else the MPU lets the partition itself read it, and write
it where the check asked for that; so an unprivileged partition's buffer lies in a static region
or in a peripheral that was bound for an unprivileged partition. ACCESSCTRL takes no part in the
check. -/
theorem checked_buffer_is_own (protect : config.memoryProtect = true)
    (success : (tfmHalSetUpStaticBoundaries config symbols chip memoryRegions start).2.1 = .success)
    (events : List Event) (info : PartitionLoadInfo) (cmse : CmseCheck) (base size : Word)
    (access : AccessType) :
    let final := finish (step config port chip) (started config symbols chip memoryRegions start) events
    let handle := boundaryHandle (partitionPrivileged config info) info.isNsAgentTz
    let running := (tfmHalActivateBoundary handle final).1
    CmseSound final cmse → size ≠ 0 →
    tfmHalMemoryCheck cmse handle base size access final = .success →
    ∀ address, Within base size.toNat address →
      (info.isNsAgentTz = true ∨ access.ns = true →
        final.platform.soc.sau.attribution address = .nonSecure) ∧
      (info.isNsAgentTz = false → access.ns = false →
        (∀ kind, kind = .read ∨ (kind = .write ∧ access.writable = true) →
          running.mpu.permits ⟨!running.nPriv, false⟩ kind address = true) ∧
        (partitionPrivileged config info = false →
          (∃ region ∈ mpuRegionAttributes config symbols, region.covers address = true) ∨
          ∃ partition, Event.bind partition ∈ events ∧
            partitionPrivileged config partition = false ∧
            ∃ devRef ∈ namedMmio port partition.assets,
              (port.platformData devRef).periphStart ≤ address ∧
              address ≤ (port.platformData devRef).periphLimit)) := by
  intro final handle running sound some passed address inside
  obtain ⟨readable, accepted⟩ := check_passed cmse handle base size access final some passed
  obtain ⟨outerSound, innerSound⟩ := (sound base size _ accepted).2 address inside
  constructor
  · intro outer
    apply outerSound
    apply flags_agent
    rcases outer with agent | asked
    · exact Or.inl ((handle_ns_agent _ _).mpr agent)
    · exact Or.inr asked
  · intro partition secure
    have inner : ¬ handle &&& handleAttrNsMask ≠ 0 := by
      rw [handle_ns_agent, partition]
      decide
    obtain ⟨local_, level⟩ := flags_partition handle final.nPrivNs access inner secure
    have own (kind : AccessKind) (asked : kind = .read ∨ (kind = .write ∧ access.writable = true)) :=
      innerSound local_ kind (flags_vouch handle final.nPrivNs access readable kind asked)
    rw [level, handle_privileged] at own
    refine ⟨fun kind asked => ?_, fun unprivileged => ?_⟩
    · have same : running.nPriv = !partitionPrivileged config info :=
        congrArg not (handle_privileged (partitionPrivileged config info) info.isNsAgentTz)
      rw [same]
      exact own kind asked
    · have read := own .read (Or.inl rfl)
      rw [unprivileged] at read
      rcases run_confined config symbols port chip memoryRegions start protect success events false .read
        address read with
        ⟨region, fixed, covered, _⟩ | ⟨_, other, happened, level, devRef, named, _, where_⟩
      · exact Or.inl ⟨region, fixed, covered⟩
      · exact Or.inr ⟨other, happened, level, devRef, named, where_⟩

end Checked

/-- A check that asks the SAU or the MPU for every byte. -/
def regionCheck (spe : Spe) : CmseCheck := fun base size flags =>
  decide (base.toNat + size.toNat ≤ 2 ^ 32) && (List.range size.toNat).all fun index =>
    if flags.nonsecure then spe.platform.soc.sau.attribution (byteAt base index) == .nonSecure
    else
      (!(flags.mpuRead || flags.mpuReadWrite) ||
          spe.mpu.permits ⟨!flags.mpuUnpriv, false⟩ .read (byteAt base index)) &&
        (!flags.mpuReadWrite || spe.mpu.permits ⟨!flags.mpuUnpriv, false⟩ .write (byteAt base index))

theorem region_check_sound (spe : Spe) : CmseSound spe (regionCheck spe) := by
  intro base size flags accepted
  rw [regionCheck, Bool.and_eq_true, decide_eq_true_eq, List.all_eq_true] at accepted
  refine ⟨accepted.1, fun address inside => ?_⟩
  obtain ⟨index, below, rfl⟩ := (within_iff_index base address size.toNat).mp inside
  have byte := accepted.2 index (List.mem_range.mpr below)
  constructor
  · intro outer
    rw [if_pos outer] at byte
    exact beq_iff_eq.mp byte
  · intro inner kind vouched
    rw [if_neg (by rw [inner]; decide), Bool.and_eq_true] at byte
    rcases vouched with ⟨rfl, read | both⟩ | ⟨rfl, both⟩
    · simpa [read] using byte.1
    · simpa [both] using byte.1
    · simpa [both] using byte.2

theorem timer_run_shown (spe : Spe) (shown : Represents sampleConfig sampleSymbols samplePort spe [] 3) :
    ∃ left, Represents sampleConfig sampleSymbols samplePort
      (finish (step sampleConfig samplePort BusPolicy.documentedChip) spe timerRun) [timer0Ref] left := by
  obtain ⟨added, left, final, _, whole⟩ := run_represents sampleConfig sampleSymbols samplePort
    BusPolicy.documentedChip spe timerRun [] 3 shown
  have asked : timerRun.flatMap (requests sampleConfig samplePort) = [timer0Ref] := by decide
  rw [whole (timer_run_granted spe shown), asked] at final
  exact ⟨left, final⟩

theorem timer_permitted (spe : Spe) (left : Nat)
    (shown : Represents sampleConfig sampleSymbols samplePort spe [timer0Ref] left)
    (kind : AccessKind) (data : kind ≠ .execute) (index : Nat) (below : index < 8) :
    spe.mpu.permits ⟨false, false⟩ kind (byteAt 0x400b0000 index) = true := by
  have hit : ∀ index < 8, (RegionTable.soleHit MpuRegion.covers
      (table sampleConfig sampleSymbols samplePort [timer0Ref]) (byteAt 0x400b0000 index)).any
      (fun region => region.permits false .read && region.permits false .write) = true := by
    decide
  obtain ⟨region, sole, both⟩ := (Option.any_eq_true _ _).mp (hit index below)
  rw [Bool.and_eq_true] at both
  rw [shown_permits sampleConfig sampleSymbols samplePort spe [timer0Ref] left shown]
  refine ⟨region, sole, ?_⟩
  cases kind with
  | read => exact both.1
  | write => exact both.2
  | execute => exact absurd rfl data

theorem timer_passes (spe : Spe) (left : Nat)
    (shown : Represents sampleConfig sampleSymbols samplePort spe [timer0Ref] left) :
    tfmHalMemoryCheck (regionCheck spe) (boundaryHandle false false) 0x400b0000 8 ⟨true, true, false⟩ spe =
      .success := by
  have flags : memoryCheckFlags (boundaryHandle false false) spe.nPrivNs ⟨true, true, false⟩ =
      ⟨true, false, true, false⟩ := by
    rw [memoryCheckFlags, if_neg (by decide)]
    rfl
  have accepted : regionCheck spe 0x400b0000 8
      (memoryCheckFlags (boundaryHandle false false) spe.nPrivNs ⟨true, true, false⟩) = true := by
    rw [flags, regionCheck, Bool.and_eq_true, List.all_eq_true]
    refine ⟨by decide, fun index member => ?_⟩
    have below : index < 8 := List.mem_range.mp member
    have read := timer_permitted spe left shown .read (by decide) index below
    have write := timer_permitted spe left shown .write (by decide) index below
    simpa using And.intro read write
  rw [tfmHalMemoryCheck, if_neg (by decide), if_neg (by decide), if_neg (by decide), if_pos accepted]

theorem timer_registers_are_own :
    let final := finish (step sampleConfig samplePort BusPolicy.documentedChip)
      (started sampleConfig sampleSymbols BusPolicy.documentedChip sampleRegions.toMemoryRegionLimits
        sampleSpe) timerRun
    let handle := boundaryHandle (partitionPrivileged sampleConfig timerPartition)
      timerPartition.isNsAgentTz
    let running := (tfmHalActivateBoundary handle final).1
    ∀ address, Within 0x400b0000 (8 : Word).toNat address →
      (timerPartition.isNsAgentTz = true ∨ false = true →
        final.platform.soc.sau.attribution address = .nonSecure) ∧
      (timerPartition.isNsAgentTz = false → false = false →
        (∀ kind, kind = .read ∨ (kind = .write ∧ true = true) →
          running.mpu.permits ⟨!running.nPriv, false⟩ kind address = true) ∧
        (partitionPrivileged sampleConfig timerPartition = false →
          (∃ region ∈ mpuRegionAttributes sampleConfig sampleSymbols, region.covers address = true) ∨
          ∃ partition, Event.bind partition ∈ timerRun ∧
            partitionPrivileged sampleConfig partition = false ∧
            ∃ devRef ∈ namedMmio samplePort partition.assets,
              (samplePort.platformData devRef).periphStart ≤ address ∧
              address ≤ (samplePort.platformData devRef).periphLimit)) := by
  obtain ⟨left, shown⟩ := timer_run_shown _ sample_shown
  exact checked_buffer_is_own sampleConfig sampleSymbols samplePort BusPolicy.documentedChip
    sampleRegions.toMemoryRegionLimits sampleSpe rfl sample_set_up timerRun timerPartition
    (regionCheck _) 0x400b0000 8 ⟨true, true, false⟩ (region_check_sound _) (by decide)
    (timer_passes _ left shown)

end Rp2350Tee.BoundarySwitch
