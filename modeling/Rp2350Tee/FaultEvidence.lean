import Rp2350Tee.PreemptedServices

/-!
What `isr_hardfault` of minimal-tz leaves in `s_result`. Non-Secure code runs into it exactly
when it touches memory that is not its own; the eight words then show the Non-Secure mailbox
as it was at the first such access, whatever was called, preempted or tried again around it.
-/

namespace Rp2350Tee.FaultEvidence

open ByteMemory TzConfig SecureService WorldIsolation VeneerNesting PreemptedServices Runs

variable (image : SecureImage) (cmse : CmseCheck) (soc : Soc)

/-- The words of `s_result`, from `SR_MARK` to `SR_NS_STAGE`, after an access refused in this
memory: the fault adds AUVIOL and SFARVALID to SFSR before the handler reads it. -/
def evidence (memory : Memory 32) : List Word :=
  let nsWord (index : Nat) := load32 memory (byteAt nsMailboxAddr (4 * index))
  [0x5ECF0000, load32 memory sfsrAddr ||| 0x48, nsWord 1, nsWord 2, nsWord 3, nsWord 4, nsWord 5,
    nsWord 6]

def resultWord (memory : Memory 32) (index : Nat) : Word :=
  load32 memory (byteAt image.sResult (4 * index))

theorem status_raised (memory : Memory 32) :
    load32 (secureFault memory) sfsrAddr = load32 memory sfsrAddr ||| 0x48 := by
  have other (index : Nat) (apart : byteAt sfsrAddr index ≠ sfsrAddr) :
      secureFault memory (byteAt sfsrAddr index) = memory (byteAt sfsrAddr index) :=
    Function.update_of_ne apart _ _
  have low : secureFault memory sfsrAddr = memory sfsrAddr ||| 0x48 := Function.update_self _ _ _
  have bits : (0x48 : Word) = 0#8 ++ 0#8 ++ 0#8 ++ (0x48 : Byte) := by decide
  rw [load32, load32, other 3 (by decide), other 2 (by decide), other 1 (by decide), low, bits,
    BitVec.or_append, BitVec.or_append, BitVec.or_append, BitVec.or_zero, BitVec.or_zero,
    BitVec.or_zero]

theorem mailbox_kept (memory : Memory 32) (index : Nat) (few : index < 8) :
    load32 (secureFault memory) (byteAt nsMailboxAddr (4 * index)) =
      load32 memory (byteAt nsMailboxAddr (4 * index)) := by
  apply load32_congr
  intro address inside
  apply Function.update_of_ne
  rintro rfl
  have mailboxAt : nsMailboxAddr.toNat = 0x2007C000 := by decide
  have status : sfsrAddr.toNat = 0xE000EDE4 := by decide
  have place : (byteAt nsMailboxAddr (4 * index)).toNat = 0x2007C000 + 4 * index := by
    rw [byteAt_toNat _ _ (by omega), mailboxAt]
  rw [within_iff_interval _ _ _ (by omega)] at inside
  omega

theorem evidence_recorded (memory : Memory 32) (index : Nat) (inside : index < 8) :
    (evidence memory)[index]? = some (resultWord image (refusedAccess image memory) index) := by
  have word (index : Nat) (few : index < 8) := mailbox_kept memory index few
  rw [resultWord, refusedAccess, isrHardfault, load32_storeWords _ _ _ (by simp) index
    (by simpa using inside), evidence]
  simp only [word 1 (by decide), word 2 (by decide), word 3 (by decide), word 4 (by decide),
    word 5 (by decide), word 6 (by decide), status_raised]
  exact List.getElem?_eq_getElem _

/-- The Private Peripheral Bus, which the SAU does not attribute. -/
def Ppb (address : Word) : Prop := 0xE0000000 ≤ address.toNat ∧ address.toNat < 0xE0100000

instance (address : Word) : Decidable (Ppb address) := inferInstanceAs (Decidable (_ ∧ _))

def accessed : Activity → List Word
  | .load width address => (List.range width.bytes).map (byteAt address)
  | .nest (.store width address _) => (List.range width.bytes).map (byteAt address)
  | .nest _ => []

/-- An access that the SAU refuses: it touches memory that is not Non-Secure. -/
def Refused (activity : Activity) : Prop :=
  ∃ address ∈ accessed activity, ¬ Ppb address ∧ soc.sau.attribution address ≠ .nonSecure

def OffPpb (activity : Activity) : Prop := ∀ address ∈ accessed activity, ¬ Ppb address

def Faults : Activity → Prop
  | .load width address => nonSecureRange soc address width.bytes = false
  | .nest (.store width address _) => nonSecureRange soc address width.bytes = false
  | .nest _ => False

theorem refused_iff_faults (activity : Activity) (off : OffPpb activity) :
    Refused soc activity ↔ Faults soc activity := by
  have range (base : Word) (count : Nat)
      (clear : ∀ address ∈ (List.range count).map (byteAt base), ¬ Ppb address) :
      (∃ address ∈ (List.range count).map (byteAt base),
        ¬ Ppb address ∧ soc.sau.attribution address ≠ .nonSecure) ↔
          nonSecureRange soc base count = false := by
    rw [nonSecureRange, List.all_eq_false]
    simp only [List.mem_map] at clear ⊢
    constructor
    · rintro ⟨_, ⟨index, below, rfl⟩, _, closed⟩
      exact ⟨index, below, by rw [beq_iff_eq]; exact closed⟩
    · rintro ⟨index, below, closed⟩
      rw [beq_iff_eq] at closed
      exact ⟨_, ⟨index, below, rfl⟩, clear _ ⟨index, below, rfl⟩, closed⟩
  cases activity with
  | load width address => exact range address width.bytes off
  | nest op =>
      cases op with
      | store width address value => exact range address width.bytes off
      | getCounter => simp [Refused, Faults, accessed]
      | sign challenge out len => simp [Refused, Faults, accessed]
      | resume => simp [Refused, Faults, accessed]

theorem resume_running (nest : Nest) (running : nest.faulted = false) :
    (nestOp image cmse soc nest .resume).1.faulted = false := by
  cases calls : nest.calls with
  | nil =>
      rw [nestOp, calls]
      exact running
  | cons call suspended =>
      rw [nestOp, calls]
      cases call with
      | counter stage => cases stage <;> exact running
      | sign call =>
          simp only [signResume]
          split <;> exact running

theorem step_faults (nest : Nest) (running : nest.faulted = false) (activity : Activity)
    (refused : Faults soc activity) :
    (activityStep image cmse soc nest activity).1.faulted = true ∧
      (activityStep image cmse soc nest activity).1.mem = refusedAccess image nest.mem := by
  cases activity with
  | load width address =>
      have denied : nonSecureRange soc address width.bytes = false := refused
      simp only [activityStep, running, denied, Bool.false_eq_true, if_false, and_self]
  | nest op =>
      cases op with
      | store width address value =>
          have denied : nonSecureRange soc address width.bytes = false := refused
          simp only [activityStep, nestStep, nestOp, running, denied, Bool.false_eq_true, if_false,
            and_self]
      | getCounter => exact refused.elim
      | sign challenge out len => exact refused.elim
      | resume => exact refused.elim

theorem step_running (nest : Nest) (running : nest.faulted = false) (activity : Activity)
    (granted : ¬ Faults soc activity) :
    (activityStep image cmse soc nest activity).1.faulted = false := by
  cases activity with
  | load width address =>
      have open_ : nonSecureRange soc address width.bytes = true := Bool.eq_true_of_not_eq_false granted
      simp only [activityStep, running, open_, Bool.false_eq_true, if_false, if_true]
  | nest op =>
      rw [activityStep, nestStep, running, if_neg Bool.false_ne_true]
      cases op with
      | store width address value =>
          have open_ : nonSecureRange soc address width.bytes = true :=
            Bool.eq_true_of_not_eq_false granted
          simp only [nestOp, open_, if_true, running]
      | getCounter => exact running
      | sign challenge out len => exact running
      | resume => exact resume_running image cmse soc nest running

theorem stopped_finish (nest : Nest) (stopped : nest.faulted = true) (activities : List Activity) :
    finish (activityStep image cmse soc) nest activities = nest := by
  induction activities with
  | nil => rfl
  | cons activity rest ih =>
      rw [finish, activity_stopped image cmse soc nest stopped activity]
      exact ih

theorem granted_run (nest : Nest) (running : nest.faulted = false) (activities : List Activity)
    (granted : ∀ activity ∈ activities, ¬ Faults soc activity) :
    (finish (activityStep image cmse soc) nest activities).faulted = false := by
  induction activities generalizing nest with
  | nil => exact running
  | cons activity rest ih =>
      obtain ⟨first, others⟩ := List.forall_mem_cons.mp granted
      exact ih _ (step_running image cmse soc nest running activity first) others

theorem fault_run (nest : Nest) (running : nest.faulted = false) (done rest : List Activity)
    (first : Activity) (granted : ∀ activity ∈ done, ¬ Faults soc activity)
    (refused : Faults soc first) :
    let final := finish (activityStep image cmse soc) nest (done ++ first :: rest)
    final.faulted = true ∧
      final.mem = refusedAccess image (finish (activityStep image cmse soc) nest done).mem := by
  have before := granted_run image cmse soc nest running done granted
  have fault := step_faults image cmse soc _ before first refused
  intro final
  have stays : final = (activityStep image cmse soc
      (finish (activityStep image cmse soc) nest done) first).1 := by
    rw [show final = finish _ nest (done ++ first :: rest) from rfl, finish_append, finish]
    exact stopped_finish image cmse soc _ fault.1 rest
  rw [stays]
  exact fault

theorem first_fault (activities : List Activity)
    (some_ : ∃ activity ∈ activities, Faults soc activity) :
    ∃ done first rest, activities = done ++ first :: rest ∧
      (∀ activity ∈ done, ¬ Faults soc activity) ∧ Faults soc first := by
  induction activities with
  | nil => obtain ⟨_, member, _⟩ := some_; exact absurd member List.not_mem_nil
  | cons activity rest ih =>
      by_cases refused : Faults soc activity
      · exact ⟨[], activity, rest, rfl, fun _ member => absurd member List.not_mem_nil, refused⟩
      · obtain ⟨other, member, denied⟩ := some_
        have later : other ∈ rest := by
          rcases List.mem_cons.mp member with rfl | later
          · exact absurd denied refused
          · exact later
        obtain ⟨done, first, others, rfl, granted, found⟩ := ih ⟨other, later, denied⟩
        exact ⟨activity :: done, first, others, rfl, List.forall_mem_cons.mpr ⟨refused, granted⟩, found⟩

/-- Non-Secure code that keeps off the PPB ends in the fault handler exactly when it ever tries an
access that the SAU refuses. `s_result` is as it was if it does not, and otherwise holds the
evidence of the moment of its first refused access. -/
theorem evidence_exact (unused : UnusedDisabled soc) (sound : CmseSound (tzSauConfig soc) cmse)
    (memory : Memory 32) (activities : List Activity)
    (off : ∀ activity ∈ activities, OffPpb activity) :
    let soc := tzSauConfig soc
    let reached := finish (activityStep image cmse soc) (atRest memory)
    ((reached activities).faulted = true ↔ ∃ activity ∈ activities, Refused soc activity) ∧
      ((∀ activity ∈ activities, ¬ Refused soc activity) → ∀ index < 8,
        resultWord image (reached activities).mem index = resultWord image memory index) ∧
      ∀ done first rest, activities = done ++ first :: rest →
        (∀ activity ∈ done, ¬ Refused soc activity) → Refused soc first → ∀ index < 8,
          (evidence (reached done).mem)[index]? = some (resultWord image (reached activities).mem index) := by
  intro configured reached
  have hidden := configured_hidden image soc unused
  have granted_iff (some_ : List Activity) (part : ∀ activity ∈ some_, activity ∈ activities) :
      (∀ activity ∈ some_, ¬ Refused configured activity) ↔
        ∀ activity ∈ some_, ¬ Faults configured activity :=
    forall₂_congr fun activity member =>
      not_congr (refused_iff_faults configured activity (off activity (part activity member)))
  refine ⟨⟨fun faulted => ?_, fun refused => ?_⟩, fun granted index below => ?_, ?_⟩
  · by_contra none
    push Not at none
    have running := granted_run image cmse configured (atRest memory) rfl activities
      ((granted_iff activities fun _ member => member).mp none)
    exact Bool.noConfusion (running.symm.trans faulted)
  · obtain ⟨activity, member, denied⟩ := refused
    obtain ⟨done, first, rest, same, granted, fault⟩ := first_fault configured activities
      ⟨activity, member, (refused_iff_faults configured activity (off activity member)).mp denied⟩
    subst same
    exact (fault_run image cmse configured (atRest memory) rfl done rest first granted fault).1
  · have running := granted_run image cmse configured (atRest memory) rfl activities
      ((granted_iff activities fun _ member => member).mp granted)
    have untouched := invariant_always (activityStep image cmse configured)
      (Untouched image cmse configured memory) (activity_untouched image cmse configured sound memory)
      (atRest memory) activities
      ⟨fun call member => absurd member List.not_mem_nil, fun _ _ _ _ _ => rfl⟩
    apply load32_congr
    intro address inside
    have owned : Within image.sResult 32 address :=
      within_of_part image.sResult address (4 * index) 4 32 (by omega) inside
    exact untouched.kept running address (hidden address (Or.inr (Or.inr (Or.inl owned))))
      (fun counter => counter_not_result image address counter owned)
      (data_not_on_stack image (image.sResult, 32) (by simp [SecurePlacement.data]) address owned)
  · rintro done first rest rfl granted refused index below
    have before := (granted_iff done fun _ member => List.mem_append_left _ member).mp granted
    have fault := (refused_iff_faults configured first (off first (by simp))).mp refused
    rw [(fault_run image cmse configured (atRest memory) rfl done rest first before fault).2]
    exact evidence_recorded image _ index below

instance (activity : Activity) : Decidable (OffPpb activity) :=
  List.decidableBAll _ _

theorem evidence_session_off :
    ∀ activity ∈ preemptingSession ++ [.load .word 0x20000000], OffPpb activity := by decide

/-- The preempted signature, and then a read of Secure RAM. -/
theorem preempting_session_evidence :
    let soc := tzSauConfig resetSoc
    let activities := preemptingSession ++ [.load .word 0x20000000]
    let reached := finish (activityStep sampleImage (attributionCheck soc) soc) (atRest blankMemory)
    ((reached activities).faulted = true ↔ ∃ activity ∈ activities, Refused soc activity) ∧
      ((∀ activity ∈ activities, ¬ Refused soc activity) → ∀ index < 8,
        resultWord sampleImage (reached activities).mem index =
          resultWord sampleImage blankMemory index) ∧
      ∀ done first rest, activities = done ++ first :: rest →
        (∀ activity ∈ done, ¬ Refused soc activity) → Refused soc first → ∀ index < 8,
          (evidence (reached done).mem)[index]? =
            some (resultWord sampleImage (reached activities).mem index) :=
  evidence_exact sampleImage (attributionCheck (tzSauConfig resetSoc)) resetSoc reset_unused
    (attribution_check_sound (tzSauConfig resetSoc)) blankMemory
    (preemptingSession ++ [.load .word 0x20000000]) evidence_session_off

end Rp2350Tee.FaultEvidence
