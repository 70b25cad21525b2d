import Rp2350Tee.PartitionBoundaries

/-!
Runs of the SPM behind its boundaries: it binds and switches partitions in any order while
core 1 and the DMA write to ACCESSCTRL. Unprivileged partitions stay inside the static
regions and the peripherals that were bound for them.
-/

namespace Rp2350Tee.PartitionRuns

open TzConfig BusFilter TargetConfig ArmMpu TfmIsolation RegionTable Runs PartitionBoundaries

variable (config : HalConfig) (symbols : LinkerSymbols) (port : Port)
  (chip : Chip AccessCtrlRegOffset)

inductive Event where
  | bind (partition : PartitionLoadInfo)
  | activate (boundary : Word)
  | foreign (master : BusPolicy.LockedMaster) (request : Request AccessCtrlRegOffset)

def step (spe : Spe) : Event → Spe × HalStatus
  | .bind partition =>
      let bound := tfmHalBindBoundary config port chip (some partition) true spe
      (bound.1, bound.2.1)
  | .activate boundary => tfmHalActivateBoundary boundary spe
  | .foreign master request =>
      let filter := spe.platform.filter.write chip master.master request
      ({ spe with platform := { spe.platform with filter := filter } }, .success)

def requests : Event → List Word
  | .bind partition => requested config port (partitionPrivileged config partition) partition.assets
  | .activate _ => []
  | .foreign _ _ => []

theorem step_represents (spe : Spe) (event : Event) (bound : List Word) (spare : Nat)
    (shown : Represents config symbols port spe bound spare) :
    ∃ done left, done <+: requests config port event ∧
      ((step config port chip spe event).2 = .success → done = requests config port event) ∧
      Represents config symbols port (step config port chip spe event).1 (bound ++ done) left := by
  cases event with
  | bind partition =>
      obtain ⟨done, outcome, _⟩ :=
        bind_boundary_outcome config symbols port chip partition spe bound spare shown
      exact ⟨done, spare - done.length, outcome.ordered, outcome.complete, outcome.shown⟩
  | activate boundary =>
      refine ⟨[], spare, List.nil_prefix, fun _ => rfl, ?_⟩
      rw [List.append_nil]
      exact represents_same config symbols port spe _ bound spare rfl rfl shown
  | foreign master request =>
      refine ⟨[], spare, List.nil_prefix, fun _ => rfl, ?_⟩
      rw [List.append_nil]
      exact represents_same config symbols port spe _ bound spare rfl rfl shown

/-- Along a run peripherals are added as they are requested, all of them if nothing fails. -/
theorem run_represents (spe : Spe) (events : List Event) (bound : List Word) (spare : Nat)
    (shown : Represents config symbols port spe bound spare) :
    ∃ added left,
      Represents config symbols port (finish (step config port chip) spe events) (bound ++ added) left ∧
      (∀ devRef ∈ added, ∃ event ∈ events, devRef ∈ requests config port event) ∧
      (Meets (step config port chip) (fun state event => (step config port chip state event).2 = .success)
        spe events → added = events.flatMap (requests config port)) := by
  induction events generalizing spe bound spare with
  | nil =>
      refine ⟨[], spare, ?_, fun _ member => absurd member List.not_mem_nil, fun _ => rfl⟩
      rw [List.append_nil]
      exact shown
  | cons event rest ih =>
      obtain ⟨done, left, ordered, complete, next⟩ :=
        step_represents config symbols port chip spe event bound spare shown
      obtain ⟨added, remaining, final, source, whole⟩ := ih _ _ _ next
      refine ⟨done ++ added, remaining, ?_, ?_, ?_⟩
      · rw [← List.append_assoc]
        exact final
      · intro devRef member
        rcases List.mem_append.mp member with here | later
        · exact ⟨event, List.mem_cons_self, ordered.subset here⟩
        · obtain ⟨other, among, asked⟩ := source devRef later
          exact ⟨other, List.mem_cons_of_mem event among, asked⟩
      · rintro ⟨success, succeeded⟩
        rw [complete success, whole succeeded, List.flatMap_cons]

theorem requests_source (event : Event) (devRef : Word) (asked : devRef ∈ requests config port event) :
    ∃ partition, event = .bind partition ∧ partitionPrivileged config partition = false ∧
      devRef ∈ namedMmio port partition.assets := by
  cases event with
  | bind partition =>
      simp only [requests, requested] at asked
      split at asked
      · rename_i mapped
        exact ⟨partition, rfl, mapped.2, asked⟩
      · exact absurd asked List.not_mem_nil
  | activate boundary => exact absurd asked List.not_mem_nil
  | foreign master request => exact absurd asked List.not_mem_nil

theorem assign_closed (plain : chip.Plain) (multiCore privileged : Bool) (data : PlatformData)
    (spe : Spe) (closed : BusPolicy.Closed multiCore spe.platform.filter) :
    BusPolicy.Closed multiCore (assignPeripheral port chip privileged data spe).platform.filter := by
  unfold assignPeripheral
  split
  · exact BusPolicy.step_closed chip multiCore plain spe.platform.filter
      (.configure privileged data.periphPpcMask) closed
  · exact closed

theorem map_platform (privileged : Bool) (data : PlatformData) (spe : Spe) :
    (mapPeripheral config privileged data spe).1.platform = spe.platform := by
  unfold mapPeripheral
  split_ifs <;> rfl

theorem bind_closed (plain : chip.Plain) (multiCore privileged : Bool) (assets : List AssetDesc)
    (spe : Spe) (closed : BusPolicy.Closed multiCore spe.platform.filter) :
    BusPolicy.Closed multiCore
      (bindAssets config port chip privileged spe assets).1.platform.filter := by
  induction assets generalizing spe with
  | nil => exact closed
  | cons asset rest ih =>
      have one : BusPolicy.Closed multiCore
          (bindAsset config port chip privileged spe asset).1.platform.filter := by
        unfold bindAsset
        split
        · exact closed
        · split
          · exact closed
          · rw [map_platform]
            exact assign_closed port chip plain multiCore privileged _ spe closed
      rw [bindAssets]
      split
      · exact ih _ one
      · exact one

theorem step_closed (plain : chip.Plain) (multiCore : Bool) (spe : Spe) (event : Event)
    (closed : BusPolicy.Closed multiCore spe.platform.filter) :
    BusPolicy.Closed multiCore (step config port chip spe event).1.platform.filter := by
  cases event with
  | bind partition =>
      have bound := bind_closed config port chip plain multiCore (partitionPrivileged config partition)
        partition.assets spe closed
      simp only [step, tfmHalBindBoundary, Bool.true_eq_false, if_false]
      split <;> exact bound
  | activate boundary => exact closed
  | foreign master request =>
      exact BusPolicy.step_closed chip multiCore plain spe.platform.filter (.foreign master request) closed

theorem shown_active (spe : Spe) (bound : List Word) (spare : Nat)
    (shown : Represents config symbols port spe bound spare) (context : Context) :
    spe.mpu.active context = true := by
  simp [Mpu.active, shown.enabled, shown.hfNmiEna]

theorem shown_permits (spe : Spe) (bound : List Word) (spare : Nat)
    (shown : Represents config symbols port spe bound spare) (faultHandler : Bool)
    (kind : AccessKind) (address : Word) :
    spe.mpu.permits ⟨false, faultHandler⟩ kind address = true ↔
      ∃ region, soleHit MpuRegion.covers (table config symbols port bound) address = some region ∧
        region.permits false kind = true := by
  obtain ⟨idle, regions, _, silent⟩ := shown.regions
  rw [permits_unprivileged spe.mpu faultHandler kind address
    (shown_active config symbols port spe bound spare shown _), regions, soleHit_idle _ _ _ silent]

theorem device_not_execute (data : PlatformData) :
    (deviceRegion config data).permits false .execute = false := rfl

theorem device_read_write (data : PlatformData) (kind : AccessKind) (data_ : kind ≠ .execute) :
    (deviceRegion config data).permits false kind = true := by
  cases kind with
  | read => rfl
  | write => rfl
  | execute => exact absurd rfl data_

theorem shown_confined (spe : Spe) (bound : List Word) (spare : Nat)
    (shown : Represents config symbols port spe bound spare) (faultHandler : Bool)
    (kind : AccessKind) (address : Word)
    (permitted : spe.mpu.permits ⟨false, faultHandler⟩ kind address = true) :
    (∃ region ∈ mpuRegionAttributes config symbols,
        region.covers address = true ∧ region.permits false kind = true) ∨
      (kind ≠ .execute ∧ ∃ devRef ∈ bound, (port.platformData devRef).periphStart ≤ address ∧
        address ≤ (port.platformData devRef).periphLimit) := by
  obtain ⟨region, hit, allowed⟩ :=
    (shown_permits config symbols port spe bound spare shown faultHandler kind address).mp permitted
  obtain ⟨member, covered⟩ := soleHit_mem _ _ _ _ hit
  rcases List.mem_append.mp member with fixed | device
  · exact Or.inl ⟨region, fixed, covered, allowed⟩
  · obtain ⟨devRef, among, rfl⟩ := List.mem_map.mp device
    have aligned := (shown.allowed devRef among).2
    rw [device_covers config _ aligned, Bool.and_eq_true, decide_eq_true_eq, decide_eq_true_eq]
      at covered
    refine Or.inr ⟨?_, devRef, among, covered⟩
    rintro rfl
    rw [device_not_execute] at allowed
    exact Bool.noConfusion allowed

theorem shown_write_or_execute (spe : Spe) (bound : List Word) (spare : Nat)
    (shown : Represents config symbols port spe bound spare) (faultHandler : Bool) (address : Word) :
    ¬ (spe.mpu.permits ⟨false, faultHandler⟩ .write address = true ∧
      spe.mpu.permits ⟨false, faultHandler⟩ .execute address = true) := by
  rintro ⟨written, executed⟩
  obtain ⟨region, hit, write⟩ := (shown_permits config symbols port spe bound spare shown
    faultHandler .write address).mp written
  obtain ⟨other, same, execute⟩ := (shown_permits config symbols port spe bound spare shown
    faultHandler .execute address).mp executed
  obtain rfl := Option.some.inj (hit.symm.trans same)
  exact table_write_or_execute config symbols port bound region (soleHit_mem _ _ _ _ hit).1
    ⟨write, execute⟩

/-- Where static regions and other peripherals stay away, a peripheral is reached exactly when
it was bound once. -/
theorem shown_reaches (spe : Spe) (bound : List Word) (spare : Nat)
    (shown : Represents config symbols port spe bound spare) (devRef : Word)
    (aligned : Aligned (port.platformData devRef)) (address : Word)
    (inside : (port.platformData devRef).periphStart ≤ address ∧
      address ≤ (port.platformData devRef).periphLimit)
    (clear : ∀ region ∈ mpuRegionAttributes config symbols, region.covers address = false)
    (apart : ∀ other ∈ port.mmioList, other ≠ devRef →
      ¬ ((port.platformData other).periphStart ≤ address ∧
        address ≤ (port.platformData other).periphLimit))
    (faultHandler : Bool) (kind : AccessKind) (data : kind ≠ .execute) :
    spe.mpu.permits ⟨false, faultHandler⟩ kind address = true ↔ bound.count devRef = 1 := by
  have covered : (deviceRegion config (port.platformData devRef)).covers address = true := by
    rw [device_covers config _ aligned]
    simp [inside]
  have others (other : Word) (among : other ∈ bound) (different : other ≠ devRef) :
      (deviceRegion config (port.platformData other)).covers address = false := by
    obtain ⟨listed, whole⟩ := shown.allowed other among
    rw [device_covers config _ whole, Bool.and_eq_false_iff, decide_eq_false_iff_not,
      decide_eq_false_iff_not, ← not_and_or]
    exact apart other listed different
  have keyed := soleHit_keyed MpuRegion.covers
    (fun other => deviceRegion config (port.platformData other)) bound address devRef covered others
  have silent : hits MpuRegion.covers (mpuRegionAttributes config symbols) address = [] :=
    (hits_eq_nil _ _ _).mpr clear
  rw [shown_permits config symbols port spe bound spare shown, ← keyed]
  constructor
  · rintro ⟨region, hit, _⟩
    rcases (soleHit_append _ _ _ _ _).mp hit with ⟨fixed, _⟩ | ⟨_, device⟩
    · obtain ⟨member, here⟩ := soleHit_mem _ _ _ _ fixed
      exact absurd (here.symm.trans (clear region member)) (by decide)
    · obtain ⟨member, here⟩ := soleHit_mem _ _ _ _ device
      obtain ⟨other, among, rfl⟩ := List.mem_map.mp member
      by_cases same : other = devRef
      · subst same
        exact device
      · exact absurd (here.symm.trans (others other among same)) (by decide)
  · intro device
    refine ⟨_, (soleHit_append _ _ _ _ _).mpr (Or.inr ⟨silent, device⟩), ?_⟩
    exact device_read_write config _ kind data

section Started

variable (memoryRegions : MemoryRegionLimits) (start : Spe)

def started : Spe := (tfmHalSetUpStaticBoundaries config symbols chip memoryRegions start).1

theorem started_closed (free : start.platform.filter.locked .core0 = false)
    (success : (tfmHalSetUpStaticBoundaries config symbols chip memoryRegions start).2.1 = .success) :
    BusPolicy.Closed config.multiCore
      (started config symbols chip memoryRegions start).platform.filter := by
  obtain ⟨filter, outcome⟩ := set_up_cases config symbols chip memoryRegions start
  rcases outcome with ⟨_, status, _⟩ | ⟨passed, _⟩
  · rw [status] at success
    exact HalStatus.noConfusion success
  · rw [started, filter]
    exact BusPolicy.bus_filter_closed chip config.multiCore start.platform.filter free passed

theorem run_confined (protect : config.memoryProtect = true)
    (success : (tfmHalSetUpStaticBoundaries config symbols chip memoryRegions start).2.1 = .success)
    (events : List Event) (faultHandler : Bool) (kind : AccessKind) (address : Word)
    (permitted : (finish (step config port chip) (started config symbols chip memoryRegions start)
      events).mpu.permits ⟨false, faultHandler⟩ kind address = true) :
    (∃ region ∈ mpuRegionAttributes config symbols,
        region.covers address = true ∧ region.permits false kind = true) ∨
      (kind ≠ .execute ∧ ∃ partition, Event.bind partition ∈ events ∧
        partitionPrivileged config partition = false ∧
        ∃ devRef ∈ namedMmio port partition.assets, devRef ∈ port.mmioList ∧
          (port.platformData devRef).periphStart ≤ address ∧
          address ≤ (port.platformData devRef).periphLimit) := by
  have begun := set_up_represents config symbols port chip memoryRegions start protect success
  obtain ⟨added, left, shown, source, _⟩ := run_represents config symbols port chip
    (started config symbols chip memoryRegions start) events [] _ begun
  rw [List.nil_append] at shown
  rcases shown_confined config symbols port _ added left shown faultHandler kind address permitted with
    fixed | ⟨data, devRef, among, inside⟩
  · exact Or.inl fixed
  · obtain ⟨event, happened, asked⟩ := source devRef among
    obtain ⟨partition, rfl, unprivileged, named⟩ := requests_source config port event devRef asked
    exact Or.inr ⟨data, partition, happened, unprivileged, devRef, named,
      (shown.allowed devRef among).1, inside⟩

/-- In every run of the SPM the MPU stays on, in fault handlers too; unprivileged partitions
reach the static regions as these allow and else read and write peripherals that an
unprivileged partition asked for and the platform lists; they never write what they execute,
and no bus target opens wider than the policy. -/
theorem partitions_confined (protect : config.memoryProtect = true) (plain : chip.Plain)
    (free : start.platform.filter.locked .core0 = false)
    (success : (tfmHalSetUpStaticBoundaries config symbols chip memoryRegions start).2.1 = .success)
    (events : List Event) :
    let final := finish (step config port chip) (started config symbols chip memoryRegions start) events
    (∀ context, final.mpu.active context = true) ∧
    (∀ faultHandler kind address, final.mpu.permits ⟨false, faultHandler⟩ kind address = true →
      (∃ region ∈ mpuRegionAttributes config symbols,
        region.covers address = true ∧ region.permits false kind = true) ∨
      (kind ≠ .execute ∧ ∃ partition, Event.bind partition ∈ events ∧
        partitionPrivileged config partition = false ∧
        ∃ devRef ∈ namedMmio port partition.assets, devRef ∈ port.mmioList ∧
          (port.platformData devRef).periphStart ≤ address ∧
          address ≤ (port.platformData devRef).periphLimit)) ∧
    (∀ faultHandler address, ¬ (final.mpu.permits ⟨false, faultHandler⟩ .write address = true ∧
      final.mpu.permits ⟨false, faultHandler⟩ .execute address = true)) ∧
    (∀ entry ∈ BusPolicy.policy config.multiCore,
      Narrower (final.platform.filter.grants entry.1) entry.2) := by
  intro final
  have begun := set_up_represents config symbols port chip memoryRegions start protect success
  obtain ⟨added, left, shown, _⟩ := run_represents config symbols port chip
    (started config symbols chip memoryRegions start) events [] _ begun
  rw [List.nil_append] at shown
  refine ⟨shown_active config symbols port final added left shown, ?_,
    shown_write_or_execute config symbols port final added left shown, ?_⟩
  · exact run_confined config symbols port chip memoryRegions start protect success events
  · exact (invariant_always (step config port chip)
      (fun spe => BusPolicy.Closed config.multiCore spe.platform.filter)
      (fun state event closed => step_closed config port chip plain config.multiCore state event closed)
      _ events (started_closed config symbols chip memoryRegions start free success)).inside

end Started

def timerRun : List Event :=
  [.bind timerPartition, .activate 0, .foreign .dma (.grant .acTimer0 0xacce00ff)]

theorem timer_partition_confined :
    let final := finish (step sampleConfig samplePort BusPolicy.documentedChip)
      (started sampleConfig sampleSymbols BusPolicy.documentedChip sampleRegions.toMemoryRegionLimits
        sampleSpe) timerRun
    (∀ context, final.mpu.active context = true) ∧
    (∀ faultHandler kind address, final.mpu.permits ⟨false, faultHandler⟩ kind address = true →
      (∃ region ∈ mpuRegionAttributes sampleConfig sampleSymbols,
        region.covers address = true ∧ region.permits false kind = true) ∨
      (kind ≠ .execute ∧ ∃ partition, Event.bind partition ∈ timerRun ∧
        partitionPrivileged sampleConfig partition = false ∧
        ∃ devRef ∈ namedMmio samplePort partition.assets, devRef ∈ samplePort.mmioList ∧
          (samplePort.platformData devRef).periphStart ≤ address ∧
          address ≤ (samplePort.platformData devRef).periphLimit)) ∧
    (∀ faultHandler address, ¬ (final.mpu.permits ⟨false, faultHandler⟩ .write address = true ∧
      final.mpu.permits ⟨false, faultHandler⟩ .execute address = true)) ∧
    (∀ entry ∈ BusPolicy.policy sampleConfig.multiCore,
      Narrower (final.platform.filter.grants entry.1) entry.2) :=
  partitions_confined sampleConfig sampleSymbols samplePort BusPolicy.documentedChip
    sampleRegions.toMemoryRegionLimits sampleSpe rfl BusPolicy.documented_plain (by decide)
    sample_set_up timerRun

/-- ACCESSCTRL lets Secure unprivileged code of core 0 through to the target. -/
def OnBus (target : AccessCtrlRegOffset) (spe : Spe) : Prop :=
  spe.platform.filter.grants target &&& BusPolicy.unprivileged = BusPolicy.unprivileged

def Assigns (target : AccessCtrlRegOffset) (data : PlatformData) : Prop :=
  data.periphPpcMask = target ∧ data.periphPpcBank ≠ port.ppcSpDoNotConfigure

instance (target : AccessCtrlRegOffset) (data : PlatformData) : Decidable (Assigns port target data) :=
  inferInstanceAs (Decidable (_ ∧ _))

/-- The privileges for which assets of a partition assign the target, in their order. -/
def assetAssignments (target : AccessCtrlRegOffset) (privileged : Bool) (assets : List AssetDesc) :
    List Bool :=
  ((namedMmio port assets).filter fun devRef => Assigns port target (port.platformData devRef)).map
    fun _ => privileged

def assignments (target : AccessCtrlRegOffset) : Event → List Bool
  | .bind partition =>
      assetAssignments port target (partitionPrivileged config partition) partition.assets
  | .activate _ => []
  | .foreign _ _ => []

/-- The target is open to unprivileged code unless it was last assigned to a privileged one. -/
def FollowsLast (target : AccessCtrlRegOffset) (past : List Bool) (spe : Spe) : Prop :=
  OnBus target spe ↔ past.getLast? ≠ some true

section Bus

variable (holds : chip.HoldsGrants) (target : AccessCtrlRegOffset)
  (named : target ≠ .acDoNotConfigure)

include holds named

theorem assign_follows (privileged : Bool) (data : PlatformData) (spe : Spe)
    (free : spe.platform.filter.locked .core0 = false) (past : List Bool)
    (follows : FollowsLast target past spe) :
    FollowsLast target (past ++ if Assigns port target data then [privileged] else [])
      (assignPeripheral port chip privileged data spe) := by
  by_cases bank : data.periphPpcBank ≠ port.ppcSpDoNotConfigure
  · have filter : (assignPeripheral port chip privileged data spe).platform.filter =
        (BusPolicy.step chip spe.platform.filter (.configure privileged data.periphPpcMask)).1 := by
      rw [assignPeripheral, if_pos bank]
      rfl
    rw [FollowsLast, OnBus, filter]
    by_cases same : data.periphPpcMask = target
    · subst same
      rw [if_pos ⟨rfl, bank⟩, List.getLast?_concat,
        BusPolicy.configure_opens_iff chip holds _ privileged _ free named]
      cases privileged <;> decide
    · rw [if_neg fun assigns => same assigns.1, List.append_nil,
        BusPolicy.configure_elsewhere chip _ privileged _ target (Ne.symm same)]
      exact follows
  · rw [assignPeripheral, if_neg bank, if_neg fun assigns => bank assigns.2, List.append_nil]
    exact follows

theorem bind_asset_follows (privileged : Bool) (asset : AssetDesc) (spe : Spe)
    (free : spe.platform.filter.locked .core0 = false) (past : List Bool)
    (follows : FollowsLast target past spe)
    (passed : (bindAsset config port chip privileged spe asset).2 = .success) :
    ∃ here, (∀ rest, assetAssignments port target privileged (asset :: rest) =
        here ++ assetAssignments port target privileged rest) ∧
      FollowsLast target (past ++ here) (bindAsset config port chip privileged spe asset).1 := by
  by_cases numbered : asset.attr &&& port.assetAttrNamedMmio = 0
  · have skipped : isNamed port asset = false := by simp [isNamed, numbered]
    refine ⟨[], fun rest => ?_, ?_⟩
    · rw [assetAssignments, named_cons_skip port asset rest skipped]
      rfl
    · rw [bindAsset, if_pos numbered, List.append_nil]
      exact follows
  · rw [bindAsset, if_neg numbered] at passed ⊢
    by_cases allowed : asset.devRef ∉ port.mmioList
    · rw [if_pos allowed] at passed
      exact HalStatus.noConfusion passed
    · have assigned := assign_follows port chip holds target named privileged
        (port.platformData asset.devRef) spe free past follows
      rw [if_neg allowed]
      refine ⟨if Assigns port target (port.platformData asset.devRef) then [privileged] else [],
        fun rest => ?_, ?_⟩
      · rw [assetAssignments, named_cons port asset rest (bne_iff_ne.mpr numbered), List.filter_cons]
        by_cases assigns : Assigns port target (port.platformData asset.devRef) <;>
          simp [assigns, assetAssignments]
      · rw [FollowsLast, OnBus, map_platform]
        exact assigned

theorem bind_assets_follow (plain : chip.Plain) (multiCore privileged : Bool)
    (assets : List AssetDesc) (spe : Spe)
    (closed : BusPolicy.Closed multiCore spe.platform.filter) (past : List Bool)
    (follows : FollowsLast target past spe)
    (success : (bindAssets config port chip privileged spe assets).2 = .success) :
    FollowsLast target (past ++ assetAssignments port target privileged assets)
      (bindAssets config port chip privileged spe assets).1 := by
  induction assets generalizing spe past with
  | nil =>
      rw [show assetAssignments port target privileged [] = [] from rfl, List.append_nil]
      exact follows
  | cons asset rest ih =>
      have next := bind_closed config port chip plain multiCore privileged [asset] spe closed
      rw [bindAssets] at success next ⊢
      by_cases passed : (bindAsset config port chip privileged spe asset).2 = .success
      · rw [if_pos passed] at success next ⊢
        obtain ⟨here, grows, one⟩ := bind_asset_follows config port chip holds target named privileged
          asset spe closed.core0 past follows passed
        rw [grows, ← List.append_assoc]
        exact ih _ next _ one success
      · rw [if_neg passed] at success
        exact absurd success passed

theorem step_follows (plain : chip.Plain) (multiCore : Bool) (spe : Spe) (event : Event)
    (closed : BusPolicy.Closed multiCore spe.platform.filter) (past : List Bool)
    (follows : FollowsLast target past spe)
    (success : (step config port chip spe event).2 = .success) :
    FollowsLast target (past ++ assignments config port target event)
      (step config port chip spe event).1 := by
  cases event with
  | bind partition =>
      have bound := bind_assets_follow config port chip holds target named plain multiCore
        (partitionPrivileged config partition) partition.assets spe closed past follows
      simp only [step, tfmHalBindBoundary, Bool.true_eq_false, if_false] at success ⊢
      split at success
      · rename_i passed
        rw [if_pos passed]
        exact bound passed
      · rename_i failed
        exact absurd success failed
  | activate boundary =>
      rw [assignments, List.append_nil]
      exact follows
  | foreign master request =>
      rw [assignments, List.append_nil]
      have same : (step config port chip spe (.foreign master request)).1.platform.filter =
          spe.platform.filter :=
        BusPolicy.foreign_step chip multiCore spe.platform.filter closed master request
      rw [FollowsLast, OnBus, same]
      exact follows

theorem run_follows (plain : chip.Plain) (multiCore : Bool) (spe : Spe) (events : List Event)
    (closed : BusPolicy.Closed multiCore spe.platform.filter) (past : List Bool)
    (follows : FollowsLast target past spe)
    (granted : Meets (step config port chip)
      (fun state event => (step config port chip state event).2 = .success) spe events) :
    FollowsLast target (past ++ events.flatMap (assignments config port target))
      (finish (step config port chip) spe events) := by
  induction events generalizing spe past with
  | nil =>
      rw [List.flatMap_nil, List.append_nil]
      exact follows
  | cons event rest ih =>
      obtain ⟨success, succeeded⟩ := granted
      rw [List.flatMap_cons, ← List.append_assoc]
      exact ih _ (step_closed config port chip plain multiCore spe event closed) _
        (step_follows config port chip holds target named plain multiCore spe event closed past follows
          success) succeeded

end Bus

section Started

variable (memoryRegions : MemoryRegionLimits) (start : Spe)

theorem started_on_bus (target : AccessCtrlRegOffset) (named : target ≠ .acDoNotConfigure)
    (success : (tfmHalSetUpStaticBoundaries config symbols chip memoryRegions start).2.1 = .success) :
    OnBus target (started config symbols chip memoryRegions start) := by
  obtain ⟨filter, outcome⟩ := set_up_cases config symbols chip memoryRegions start
  rcases outcome with ⟨_, status, _⟩ | ⟨passed, _⟩
  · rw [status] at success
    exact HalStatus.noConfusion success
  · obtain ⟨value, listed, _⟩ := BusPolicy.policy_complete config.multiCore target named
    have held := (BusPolicy.bus_filter_success chip config.multiCore start.platform.filter).mp passed
      (target, value) listed
    rw [OnBus, started, filter, held]
    rcases BusPolicy.policy_value config.multiCore (target, value) listed with same | same | same <;>
      rw [same]
    · cases config.multiCore <;> decide
    · decide
    · decide

/-- After a run in which no binding fails, Secure unprivileged code reads and writes a peripheral
that is apart from the static regions and the other peripherals exactly when one unprivileged
partition has asked for it, once, and the bus target behind it was not assigned to a privileged
partition last: a second request shuts everybody out at the MPU, a later privileged one at the bus. -/
theorem peripheral_reached_iff_bound_once (protect : config.memoryProtect = true)
    (plain : chip.Plain) (holds : chip.HoldsGrants)
    (free : start.platform.filter.locked .core0 = false)
    (success : (tfmHalSetUpStaticBoundaries config symbols chip memoryRegions start).2.1 = .success)
    (events : List Event)
    (granted : Meets (step config port chip)
      (fun state event => (step config port chip state event).2 = .success)
      (started config symbols chip memoryRegions start) events)
    (devRef : Word) (aligned : Aligned (port.platformData devRef))
    (named : (port.platformData devRef).periphPpcMask ≠ .acDoNotConfigure) (address : Word)
    (inside : (port.platformData devRef).periphStart ≤ address ∧
      address ≤ (port.platformData devRef).periphLimit)
    (clear : ∀ region ∈ mpuRegionAttributes config symbols, region.covers address = false)
    (apart : ∀ other ∈ port.mmioList, other ≠ devRef →
      ¬ ((port.platformData other).periphStart ≤ address ∧
        address ≤ (port.platformData other).periphLimit))
    (faultHandler : Bool) (kind : AccessKind) (data : kind ≠ .execute) :
    let final := finish (step config port chip) (started config symbols chip memoryRegions start) events
    let target := (port.platformData devRef).periphPpcMask
    final.mpu.permits ⟨false, faultHandler⟩ kind address = true ∧ OnBus target final ↔
      (events.flatMap (requests config port)).count devRef = 1 ∧
        (events.flatMap (assignments config port target)).getLast? ≠ some true := by
  intro final target
  have begun := set_up_represents config symbols port chip memoryRegions start protect success
  obtain ⟨added, left, shown, _, whole⟩ := run_represents config symbols port chip
    (started config symbols chip memoryRegions start) events [] _ begun
  rw [List.nil_append] at shown
  have bus := run_follows config port chip holds target named plain config.multiCore
    (started config symbols chip memoryRegions start) events
    (started_closed config symbols chip memoryRegions start free success) []
    (iff_of_true (started_on_bus config symbols chip memoryRegions start target named success)
      (by simp)) granted
  rw [← whole granted]
  exact and_congr (shown_reaches config symbols port _ added left shown devRef aligned address inside
    clear apart faultHandler kind data) bus

end Started

theorem timer_run_granted (spe : Spe)
    (shown : Represents sampleConfig sampleSymbols samplePort spe [] 3) :
    Meets (step sampleConfig samplePort BusPolicy.documentedChip)
      (fun state event => (step sampleConfig samplePort BusPolicy.documentedChip state event).2 = .success)
      spe timerRun := by
  obtain ⟨done, outcome, _⟩ := bind_boundary_outcome sampleConfig sampleSymbols samplePort
    BusPolicy.documentedChip timerPartition spe [] 3 shown
  have admissible : Admissible sampleConfig samplePort
      (partitionPrivileged sampleConfig timerPartition) timerPartition.assets 3 := by
    refine ⟨?_, ?_, by decide⟩
    · simp [namedMmio, timerPartition, samplePort, isNamed]
    · intro devRef asked
      obtain rfl := List.mem_singleton.mp asked
      decide
  exact ⟨outcome.success.mpr admissible, rfl, rfl, trivial⟩

theorem timer_apart (other : Word) (listed : other ∈ samplePort.mmioList) (different : other ≠ timer0Ref) :
    ¬ ((samplePort.platformData other).periphStart ≤ 0x400b0000 ∧
      0x400b0000 ≤ (samplePort.platformData other).periphLimit) := by
  rcases List.mem_cons.mp listed with rfl | last
  · exact fun inside => absurd inside.2 (by decide)
  · exact absurd (List.mem_singleton.mp last) different

theorem timer_reached :
    let final := finish (step sampleConfig samplePort BusPolicy.documentedChip)
      (started sampleConfig sampleSymbols BusPolicy.documentedChip sampleRegions.toMemoryRegionLimits
        sampleSpe) timerRun
    let target := (samplePort.platformData timer0Ref).periphPpcMask
    final.mpu.permits ⟨false, false⟩ .write 0x400b0000 = true ∧ OnBus target final ↔
      (timerRun.flatMap (requests sampleConfig samplePort)).count timer0Ref = 1 ∧
        (timerRun.flatMap (assignments sampleConfig samplePort target)).getLast? ≠ some true :=
  peripheral_reached_iff_bound_once sampleConfig sampleSymbols samplePort BusPolicy.documentedChip
    sampleRegions.toMemoryRegionLimits sampleSpe rfl BusPolicy.documented_plain
    BusPolicy.documented_holds_grants (by decide) sample_set_up timerRun
    (timer_run_granted _ sample_shown) timer0Ref (by decide) (by decide) 0x400b0000 (by decide)
    (by decide) timer_apart false .write (by decide)

end Rp2350Tee.PartitionRuns
