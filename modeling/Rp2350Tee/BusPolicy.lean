import Rp2350Tee.Runs
import Rp2350Tee.TargetConfig

/-!
What `bus_filter_cfg` of the port decides about the bus targets, and that it stays
decided: the other masters are locked out, and the two functions through which the SPM
assigns peripherals to partitions can only take grants away.
-/

namespace Rp2350Tee.BusPolicy

open TzConfig BusFilter TargetConfig Runs
open AccessCtrlRegOffset

variable (chip : Chip AccessCtrlRegOffset) (multiCore : Bool)

/-- All that the three loops write, in their order. -/
def policy : List (AccessCtrlRegOffset × Word) :=
  (c0C1UnprivPeriphOffsets.map fun offset => (offset, accessctrlSUnprivC0C1 multiCore)) ++
    (c0UnprivPeriphOffsets.map fun offset => (offset, accessctrlSUnprivC0)) ++
    nsPrivPeriphOffsets.map fun offset => (offset, accessctrlNsPriv)

theorem policy_keys :
    (policy multiCore).map Prod.fst =
      c0C1UnprivPeriphOffsets ++ c0UnprivPeriphOffsets ++ nsPrivPeriphOffsets := by
  simp [policy, Function.comp_def]

theorem policy_unique : ((policy multiCore).map Prod.fst).Nodup := by
  rw [policy_keys]
  decide

theorem policy_value (entry : AccessCtrlRegOffset × Word) (member : entry ∈ policy multiCore) :
    entry.2 = accessctrlSUnprivC0C1 multiCore ∨ entry.2 = accessctrlSUnprivC0 ∨
      entry.2 = accessctrlNsPriv := by
  simp only [policy, List.mem_append, List.mem_map] at member
  rcases member with (⟨offset, _, rfl⟩ | ⟨offset, _, rfl⟩) | ⟨offset, _, rfl⟩
  · exact Or.inl rfl
  · exact Or.inr (Or.inl rfl)
  · exact Or.inr (Or.inr rfl)

def prepared (filter : Filter) : Filter :=
  ((filter.write chip .core0 (.cfgreset (passwordBits ||| 0x1))).write chip .core0
    (.gpioNsmask0 0xFFFFFFFC)).write chip .core0 (.gpioNsmask1 0xFF00FFFF)

def configured (filter : Filter) : Progress AccessCtrlRegOffset :=
  (policy multiCore).foldl (writeBack chip) ⟨prepared chip filter, false⟩

theorem bus_filter_eq (filter : Filter) :
    busFilterCfg chip multiCore filter =
      ((configured chip multiCore filter).unit.write chip .core0 (.lock (passwordBits ||| 0x6)),
        if (configured chip multiCore filter).failed then .systemErr else .success) := by
  rw [configured, policy, List.foldl_append, List.foldl_append]
  rfl

theorem lock_grants (master : Master) (filter : Filter) (value : Word) :
    (filter.write chip master (.lock value)).grants = filter.grants := by
  simp only [AccessCtrl.write]
  split_ifs <;> rfl

theorem bus_filter_grants (filter : Filter) :
    (busFilterCfg chip multiCore filter).1.grants = (configured chip multiCore filter).unit.grants := by
  rw [bus_filter_eq]
  exact lock_grants chip .core0 _ _

theorem bus_filter_success (filter : Filter) :
    (busFilterCfg chip multiCore filter).2 = .success ↔
      ∀ entry ∈ policy multiCore, (busFilterCfg chip multiCore filter).1.grants entry.1 = entry.2 := by
  have back := write_back_failed chip ⟨prepared chip filter, false⟩ (policy multiCore)
    (policy_unique multiCore)
  simp only [true_and] at back
  rw [bus_filter_grants, configured, ← back, bus_filter_eq, configured]
  cases ((policy multiCore).foldl (writeBack chip) ⟨prepared chip filter, false⟩).failed <;> simp

/-- Every register is in a list, and only the last list grants anything to Non-secure code. -/
theorem policy_complete (offset : AccessCtrlRegOffset) (named : offset ≠ acDoNotConfigure) :
    ∃ value, (offset, value) ∈ policy multiCore ∧
      (value &&& accessctrlNsp ≠ 0 ↔ offset ∈ nsPrivPeriphOffsets) := by
  have among : offset ∈ c0C1UnprivPeriphOffsets ∨ offset ∈ c0UnprivPeriphOffsets ∨
      offset ∈ nsPrivPeriphOffsets := by
    cases offset <;> first | decide | exact absurd rfl named
  have unique := policy_unique multiCore
  rw [policy_keys, List.nodup_append] at unique
  obtain ⟨_, _, apart⟩ := unique
  rcases among with shared | core0 | given
  · refine ⟨accessctrlSUnprivC0C1 multiCore, by simp [policy, shared], ?_⟩
    have closed : offset ∉ nsPrivPeriphOffsets := fun listed =>
      apart offset (List.mem_append_left _ shared) offset listed rfl
    simp only [closed, iff_false, not_not]
    cases multiCore <;> decide
  · refine ⟨accessctrlSUnprivC0, by simp [policy, core0], ?_⟩
    have closed : offset ∉ nsPrivPeriphOffsets := fun listed =>
      apart offset (List.mem_append_right _ core0) offset listed rfl
    simp only [closed, iff_false, not_not]
    decide
  · refine ⟨accessctrlNsPriv, by simp [policy, given], ?_⟩
    simp only [given, iff_true]
    decide

/-- The configuration reports success exactly when its whole policy is in force, on any chip;
then Non-secure privileged code has the targets of the last list and unprivileged code none. -/
theorem bus_filter_cfg_exact (filter : Filter) :
    ((busFilterCfg chip multiCore filter).2 = .success ↔
      ∀ entry ∈ policy multiCore, (busFilterCfg chip multiCore filter).1.grants entry.1 = entry.2) ∧
    ((busFilterCfg chip multiCore filter).2 = .success → ∀ offset, offset ≠ acDoNotConfigure →
      let grant := (busFilterCfg chip multiCore filter).1.grants offset
      (grant &&& accessctrlNsp ≠ 0 ↔ offset ∈ nsPrivPeriphOffsets) ∧ grant &&& accessctrlNsu = 0) := by
  refine ⟨bus_filter_success chip multiCore filter, fun success offset named => ?_⟩
  obtain ⟨value, listed, given⟩ := policy_complete multiCore offset named
  have held := (bus_filter_success chip multiCore filter).mp success (offset, value) listed
  dsimp only at held ⊢
  rw [held]
  refine ⟨given, ?_⟩
  rcases policy_value multiCore (offset, value) listed with rfl | rfl | rfl
  · cases multiCore <;> decide
  · decide
  · decide

inductive LockedMaster where
  | core1 | dma

def LockedMaster.master : LockedMaster → Master
  | .core1 => .core1
  | .dma => .dma

inductive Event where
  | configure (privileged : Bool) (offset : AccessCtrlRegOffset)
  | foreign (master : LockedMaster) (request : Request AccessCtrlRegOffset)

def step (filter : Filter) : Event → Filter × Unit
  | .configure privileged offset =>
      (if privileged then accessCtrlConfigureToSecurePrivileged chip offset filter
        else accessCtrlConfigureToSecureUnprivileged chip offset filter, ())
  | .foreign master request => (filter.write chip master.master request, ())

structure Closed (filter : Filter) : Prop where
  core0 : filter.locked .core0 = false
  core1 : filter.locked .core1 = true
  dma : filter.locked .dma = true
  inside : ∀ entry ∈ policy multiCore, Narrower (filter.grants entry.1) entry.2

def assigned (privileged : Bool) : Word :=
  if privileged then accessctrlSPrivC0 else accessctrlSUnprivC0

theorem assigned_inside (privileged : Bool) (entry : AccessCtrlRegOffset × Word)
    (member : entry ∈ policy multiCore) : Narrower (assigned privileged) entry.2 := by
  rcases policy_value multiCore entry member with same | same | same <;> rw [same]
  · cases privileged <;> cases multiCore <;> decide
  · cases privileged <;> decide
  · cases privileged <;> decide

theorem configure_step (filter : Filter) (privileged : Bool) (offset : AccessCtrlRegOffset) :
    (step chip filter (.configure privileged offset)).1 =
      if offset ≠ acDoNotConfigure then
        filter.write chip .core0 (.grant offset (assigned privileged ||| passwordBits))
      else filter := by
  cases privileged <;> rfl

theorem configure_grants (plain : chip.Plain) (filter : Filter) (privileged : Bool)
    (offset : AccessCtrlRegOffset) (free : filter.locked .core0 = false)
    (named : offset ≠ acDoNotConfigure) :
    Narrower ((step chip filter (.configure privileged offset)).1.grants offset)
      (assigned privileged) := by
  have low : (assigned privileged ||| passwordBits) &&& 0xffff = assigned privileged := by
    cases privileged <;> decide
  rw [configure_step, if_pos named, write_grant chip .core0 filter offset _ free
    (by cases privileged <;> decide)]
  simp only [Function.update_self, low]
  exact plain offset (filter.grants offset) (assigned privileged)

/-- What Secure unprivileged code of core 0 needs of a bus target. -/
def unprivileged : Word := accessctrlSu ||| accessctrlCore0

/-- On a chip that implements the grants an assignment decides who gets through. -/
theorem configure_opens_iff (holds : chip.HoldsGrants) (filter : Filter) (privileged : Bool)
    (offset : AccessCtrlRegOffset) (free : filter.locked .core0 = false)
    (named : offset ≠ acDoNotConfigure) :
    (step chip filter (.configure privileged offset)).1.grants offset &&& unprivileged = unprivileged ↔
      privileged = false := by
  have low : (assigned privileged ||| passwordBits) &&& 0xffff = assigned privileged := by
    cases privileged <;> decide
  have mask : unprivileged = 0xff &&& unprivileged := by decide
  have kept := holds offset (filter.grants offset) (assigned privileged)
  rw [configure_step, if_pos named, write_grant chip .core0 filter offset _ free
    (by cases privileged <;> decide), low]
  simp only [Function.update_self]
  rw [mask, ← BitVec.and_assoc, kept]
  cases privileged <;> decide

theorem configure_elsewhere (filter : Filter) (privileged : Bool)
    (offset other : AccessCtrlRegOffset) (different : other ≠ offset) :
    (step chip filter (.configure privileged offset)).1.grants other = filter.grants other := by
  rw [configure_step]
  split
  · exact grant_elsewhere chip .core0 filter offset other _ different
  · rfl

theorem configure_lock (filter : Filter) (privileged : Bool) (offset : AccessCtrlRegOffset) :
    (step chip filter (.configure privileged offset)).1.lock = filter.lock := by
  rw [configure_step]
  split
  · exact grant_lock chip .core0 filter offset _
  · rfl

theorem foreign_step (filter : Filter) (closed : Closed multiCore filter) (master : LockedMaster)
    (request : Request AccessCtrlRegOffset) :
    (step chip filter (.foreign master request)).1 = filter := by
  cases master with
  | core1 => exact write_locked chip .core1 filter request closed.core1
  | dma => exact write_locked chip .dma filter request closed.dma

theorem step_closed (plain : chip.Plain) (filter : Filter) (event : Event)
    (closed : Closed multiCore filter) : Closed multiCore (step chip filter event).1 := by
  cases event with
  | foreign master request =>
      rw [foreign_step chip multiCore filter closed master request]
      exact closed
  | configure privileged offset =>
      have lock := configure_lock chip filter privileged offset
      constructor
      · rw [AccessCtrl.locked, lock]
        exact closed.core0
      · rw [AccessCtrl.locked, lock]
        exact closed.core1
      · rw [AccessCtrl.locked, lock]
        exact closed.dma
      · intro entry member
        by_cases same : entry.1 = offset
        · by_cases named : offset ≠ acDoNotConfigure
          · rw [same]
            exact narrower_trans _ _ _
              (configure_grants chip plain filter privileged offset closed.core0 named)
              (assigned_inside multiCore privileged entry member)
          · rw [configure_step, if_neg named]
            exact closed.inside entry member
        · rw [configure_elsewhere chip filter privileged offset entry.1 same]
          exact closed.inside entry member

theorem prepared_lock (filter : Filter) : (prepared chip filter).lock = filter.lock := by
  simp only [prepared, AccessCtrl.write]
  split_ifs <;> rfl

theorem configured_lock (filter : Filter) :
    (configured chip multiCore filter).unit.lock = filter.lock := by
  rw [configured, write_back_lock]
  exact prepared_lock chip filter

theorem bus_filter_lock (filter : Filter) (free : filter.locked .core0 = false) :
    (busFilterCfg chip multiCore filter).1.lock = filter.lock ||| 0x6 := by
  have before : (configured chip multiCore filter).unit.locked .core0 = false := by
    rw [AccessCtrl.locked, configured_lock]
    exact free
  have password : hasPassword (passwordBits ||| 0x6) = true := by decide
  rw [bus_filter_eq]
  simp only [AccessCtrl.write, before, Bool.false_eq_true, if_false, password, if_true,
    configured_lock]
  rfl

theorem lock_added (lock added mask : Word) :
    (lock ||| added) &&& mask = (lock &&& mask) ||| (added &&& mask) := by
  ext index below
  simp only [BitVec.getElem_or, BitVec.getElem_and]
  exact Bool.and_or_distrib_right _ _ _

theorem lock_covers (lock added mask : Word) (covered : added &&& mask = mask)
    (given : mask ≠ 0) : ((lock ||| added) &&& mask != 0) = true := by
  rw [bne_iff_ne, lock_added, covered]
  exact fun zero => given (BitVec.or_eq_zero_iff.mp zero).2

theorem bus_filter_closed (filter : Filter) (free : filter.locked .core0 = false)
    (success : (busFilterCfg chip multiCore filter).2 = .success) :
    Closed multiCore (busFilterCfg chip multiCore filter).1 where
  core0 := by
    have none : filter.lock &&& Master.core0.lockMsk = 0 := by simpa [AccessCtrl.locked] using free
    rw [AccessCtrl.locked, bus_filter_lock chip multiCore filter free, lock_added, none]
    decide
  core1 := by
    rw [AccessCtrl.locked, bus_filter_lock chip multiCore filter free]
    exact lock_covers _ _ _ (by decide) (by decide)
  dma := by
    rw [AccessCtrl.locked, bus_filter_lock chip multiCore filter free]
    exact lock_covers _ _ _ (by decide) (by decide)
  inside := fun entry member => by
    rw [(bus_filter_success chip multiCore filter).mp success entry member]
    exact narrower_refl entry.2

theorem run_closed (plain : chip.Plain) (filter : Filter) (events : List Event)
    (closed : Closed multiCore filter) : Closed multiCore (finish (step chip) filter events) :=
  invariant_always (step chip) (Closed multiCore)
    (fun state event holds => step_closed chip multiCore plain state event holds) filter events closed

/-- Once a register is assigned, or if it already is as narrow, it stays so. -/
theorem run_assigned (plain : chip.Plain) (filter : Filter) (events : List Event)
    (closed : Closed multiCore filter) (offset : AccessCtrlRegOffset)
    (named : offset ≠ acDoNotConfigure)
    (taken : Narrower (filter.grants offset) accessctrlSUnprivC0 ∨
      ∃ privileged, Event.configure privileged offset ∈ events) :
    Narrower ((finish (step chip) filter events).grants offset) accessctrlSUnprivC0 := by
  have inside (privileged : Bool) : Narrower (assigned privileged) accessctrlSUnprivC0 := by
    cases privileged <;> decide
  induction events generalizing filter with
  | nil =>
      rcases taken with narrow | ⟨_, member⟩
      · exact narrow
      · exact absurd member List.not_mem_nil
  | cons event rest ih =>
      rw [finish]
      apply ih _ (step_closed chip multiCore plain filter event closed)
      cases event with
      | foreign master request =>
          rw [foreign_step chip multiCore filter closed master request]
          rcases taken with narrow | ⟨privileged, member⟩
          · exact Or.inl narrow
          · exact Or.inr ⟨privileged, by simpa using member⟩
      | configure privileged other =>
          by_cases same : offset = other
          · subst same
            exact Or.inl (narrower_trans _ _ _
              (configure_grants chip plain filter privileged offset closed.core0 named)
              (inside privileged))
          · rw [configure_elsewhere chip filter privileged other offset same]
            rcases taken with narrow | ⟨level, member⟩
            · exact Or.inl narrow
            · refine Or.inr ⟨level, ?_⟩
              simpa [same] using member

theorem run_unassigned (plain : chip.Plain) (filter : Filter) (events : List Event)
    (closed : Closed multiCore filter) (offset : AccessCtrlRegOffset)
    (spared : ∀ privileged, Event.configure privileged offset ∉ events) :
    (finish (step chip) filter events).grants offset = filter.grants offset := by
  induction events generalizing filter with
  | nil => rfl
  | cons event rest ih =>
      rw [finish, ih _ (step_closed chip multiCore plain filter event closed)
        fun privileged member => spared privileged (List.mem_cons_of_mem event member)]
      cases event with
      | foreign master request => rw [foreign_step chip multiCore filter closed master request]
      | configure privileged other =>
          apply configure_elsewhere
          rintro rfl
          exact spared privileged List.mem_cons_self

/-- After a successful configuration no assignment of peripherals and nothing that core 1
or the DMA writes ever grants more than the policy; what is assigned is out of reach of
Non-secure code, core 1 and the DMA from then on, and the rest stays as configured. -/
theorem policy_holds_over_runs (plain : chip.Plain) (filter : Filter)
    (free : filter.locked .core0 = false)
    (success : (busFilterCfg chip multiCore filter).2 = .success) (events : List Event) :
    let start := (busFilterCfg chip multiCore filter).1
    let final := finish (step chip) start events
    (∀ entry ∈ policy multiCore, Narrower (final.grants entry.1) entry.2) ∧
      ∀ offset, offset ≠ acDoNotConfigure →
        ((∃ privileged, Event.configure privileged offset ∈ events) →
          final.grants offset &&& (accessctrlNsp ||| accessctrlNsu ||| accessctrlCore1 |||
            accessctrlDma) = 0) ∧
        ((∀ privileged, Event.configure privileged offset ∉ events) →
          final.grants offset = start.grants offset) := by
  intro start final
  have closed := bus_filter_closed chip multiCore filter free success
  refine ⟨(run_closed chip multiCore plain start events closed).inside, fun offset named => ⟨?_, ?_⟩⟩
  · intro given
    apply narrower_refuses _ accessctrlSUnprivC0 _ _ (by decide)
    exact run_assigned chip multiCore plain start events closed offset named (Or.inr given)
  · exact run_unassigned chip multiCore plain start events closed offset

/-- A chip as documented: every grant register holds the eight bits last written to it. -/
def documentedChip : Chip AccessCtrlRegOffset where
  reset := fun _ => 0xFC
  resetGpioNsmask := 0
  keep := fun _ _ new => new &&& 0xff

theorem documented_plain : documentedChip.Plain := by
  intro reg old new
  change new &&& 0xff &&& new = new &&& 0xff
  ext index below
  simp only [BitVec.getElem_and]
  cases new[index] <;> cases (0xff : Word)[index] <;> rfl

theorem documented_holds_grants : documentedChip.HoldsGrants := fun _ _ new =>
  (BitVec.and_assoc new 0xff 0xff).trans (congrArg (new &&& ·) BitVec.and_self)

def sampleFilter : Filter := ⟨fun _ => 0xFC, 0, 0, 0⟩

theorem sample_configured (filter : Filter) (free : filter.locked .core0 = false) :
    (busFilterCfg documentedChip true filter).2 = .success := by
  rw [bus_filter_success]
  intro entry member
  have before : (prepared documentedChip filter).locked .core0 = false := by
    rw [AccessCtrl.locked, prepared_lock]
    exact free
  have held := write_back_grants documentedChip ⟨prepared documentedChip filter, false⟩ (policy true)
    (policy_unique true) before entry member ?_
  · rw [bus_filter_grants, configured, held]
    simp only [documentedChip]
    rcases policy_value true entry member with same | same | same <;> rw [same] <;> decide
  · intro entry member
    rcases policy_value true entry member with same | same | same <;> rw [same] <;> decide

theorem sample_policy_holds :
    let start := (busFilterCfg documentedChip true sampleFilter).1
    let final := finish (step documentedChip) start
      [.configure false acTimer0, .foreign .dma (.grant acTimer0 0xacce00ff)]
    (∀ entry ∈ policy true, Narrower (final.grants entry.1) entry.2) ∧
      ∀ offset, offset ≠ acDoNotConfigure →
        ((∃ privileged, Event.configure privileged offset ∈
            [Event.configure false acTimer0, .foreign .dma (.grant acTimer0 0xacce00ff)]) →
          final.grants offset &&& (accessctrlNsp ||| accessctrlNsu ||| accessctrlCore1 |||
            accessctrlDma) = 0) ∧
        ((∀ privileged, Event.configure privileged offset ∉
            [Event.configure false acTimer0, .foreign .dma (.grant acTimer0 0xacce00ff)]) →
          final.grants offset = start.grants offset) :=
  policy_holds_over_runs documentedChip true documented_plain sampleFilter (by decide)
    (sample_configured sampleFilter (by decide))
    [.configure false acTimer0, .foreign .dma (.grant acTimer0 0xacce00ff)]

end Rp2350Tee.BusPolicy
