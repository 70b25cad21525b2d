import Rp2350Tee.VeneerNesting

/-!
The services of minimal-tz at the grain of single accesses. Whatever Non-Secure code does
between two of them, it learns no more and changes no more than when a call ran in one go;
and a call that nothing preempts does in small steps what the service does at once.
-/

namespace Rp2350Tee.PreemptedServices

open ByteMemory TzConfig SecureService WorldIsolation VeneerNesting Runs

variable (image : SecureImage) (cmse : CmseCheck) (soc : Soc)

/-- Non-Secure code that also reads memory between the steps of a call. -/
inductive Activity where
  | nest (op : NestOp)
  | load (width : Width) (address : Word)

def activityStep (nest : Nest) : Activity → Nest × Option NsResult
  | .nest op => nestStep image cmse soc nest op
  | .load width address =>
      if nest.faulted then (nest, some .stopped)
      else if nonSecureRange soc address width.bytes then
        (nest, some (.loaded (loadBytes nest.mem address width.bytes)))
      else ({ nest with mem := refusedAccess image nest.mem, faulted := true }, some .faulted)

theorem activity_stopped (nest : Nest) (stopped : nest.faulted = true) (activity : Activity) :
    activityStep image cmse soc nest activity = (nest, some .stopped) := by
  cases activity <;> simp [activityStep, nestStep, stopped]

/-- A call of `secure_sign` that is past its checks has passed them for both ranges. -/
def Entitled : Call → Prop
  | .counter _ => True
  | .sign call => call.stage = .checks ∨
      (cmse call.challenge call.len .read = true ∧ cmse call.out call.len .readWrite = true)

theorem sign_step_entitled (memory : Memory 32) (call next : SignCall)
    (entitled : Entitled cmse (.sign call))
    (goesOn : (signStep image cmse memory call).2 = .inl next) : Entitled cmse (.sign next) := by
  have past (stage : call.stage ≠ .checks) := entitled.resolve_left stage
  cases stage : call.stage with
  | checks =>
      simp only [signStep, stage] at goesOn
      split at goesOn
      · cases goesOn
      split at goesOn
      · cases goesOn
      split at goesOn
      · cases goesOn
      · rename_i readable writable
        obtain rfl := Sum.inl.inj goesOn
        exact Or.inr ⟨Bool.eq_true_of_not_eq_false readable, Bool.eq_true_of_not_eq_false writable⟩
  | copyIn index =>
      have passed := past (by rw [stage]; exact SignStage.noConfusion)
      simp only [signStep, stage] at goesOn
      split at goesOn <;>
      · obtain rfl := Sum.inl.inj goesOn
        exact Or.inr passed
  | transform index =>
      have passed := past (by rw [stage]; exact SignStage.noConfusion)
      simp only [signStep, stage] at goesOn
      split at goesOn <;>
      · obtain rfl := Sum.inl.inj goesOn
        exact Or.inr passed
  | copyOut index =>
      have passed := past (by rw [stage]; exact SignStage.noConfusion)
      simp only [signStep, stage] at goesOn
      split at goesOn
      · obtain rfl := Sum.inl.inj goesOn
        exact Or.inr passed
      · cases goesOn

theorem sign_step_outside (sound : CmseSound soc cmse) (memory : Memory 32) (call : SignCall)
    (entitled : Entitled cmse (.sign call)) (address : Word)
    (closed : soc.sau.attribution address ≠ .nonSecure) :
    (signStep image cmse memory call).1 address = memory address := by
  cases stage : call.stage with
  | checks =>
      simp only [signStep, stage]
      split
      · rfl
      split
      · rfl
      split <;> rfl
  | copyIn index =>
      simp only [signStep, stage]
      split <;> rfl
  | transform index =>
      simp only [signStep, stage]
      split <;> rfl
  | copyOut index =>
      have passed := entitled.resolve_left (by rw [stage]; exact SignStage.noConfusion)
      simp only [signStep, stage]
      split
      · rename_i below
        apply Function.update_of_ne
        rintro rfl
        exact closed ((sound _ _ _ passed.2).2 _ ((within_iff_index _ _ _).mpr ⟨index, below, rfl⟩))
      · rfl

theorem sign_step_agree (sound : CmseSound soc cmse) (left right : Memory 32)
    (agree : Agree image soc left right) (call : SignCall) (entitled : Entitled cmse (.sign call)) :
    (signStep image cmse left call).2 = (signStep image cmse right call).2 ∧
      Agree image soc (signStep image cmse left call).1 (signStep image cmse right call).1 := by
  cases stage : call.stage with
  | checks =>
      simp only [signStep, stage]
      split
      · exact ⟨rfl, agree⟩
      split
      · exact ⟨rfl, agree⟩
      split <;> exact ⟨rfl, agree⟩
  | copyIn index =>
      have passed := entitled.resolve_left (by rw [stage]; exact SignStage.noConfusion)
      simp only [signStep, stage]
      split
      · rename_i below
        have read : left (byteAt call.challenge index) = right (byteAt call.challenge index) :=
          agree _ (Or.inl ((sound _ _ _ passed.1).2 _
            ((within_iff_index _ _ _).mpr ⟨index, below, rfl⟩)))
        rw [read]
        exact ⟨rfl, agree⟩
      · exact ⟨rfl, agree⟩
  | transform index =>
      have key : keyByte image left index = keyByte image right index :=
        agree _ (Or.inr (Or.inl (within_byteAt _ 16 _ (Nat.mod_lt _ (by decide))
          (by unfold secretKeyLen; omega))))
      simp only [signStep, stage, key]
      split <;> exact ⟨rfl, agree⟩
  | copyOut index =>
      simp only [signStep, stage]
      split
      · refine ⟨rfl, fun address shared => ?_⟩
        dsimp only
        by_cases here : address = byteAt call.out index
        · rw [here, Function.update_self, Function.update_self]
        · rw [Function.update_of_ne here, Function.update_of_ne here, agree address shared]
      · exact ⟨rfl, agree⟩

structure NestsAgree (left right : Nest) : Prop where
  faulted : left.faulted = right.faulted
  calls : left.calls = right.calls
  entitled : ∀ call ∈ left.calls, Entitled cmse call
  memory : Agree image soc left.mem right.mem

theorem counter_resume_agree (left right : Nest) (agree : NestsAgree image cmse soc left right)
    (stage : CounterStage) (suspended : List Call) (calls : left.calls = .counter stage :: suspended) :
    (counterResume image left suspended stage).2 = (counterResume image right suspended stage).2 ∧
      NestsAgree image cmse soc (counterResume image left suspended stage).1
        (counterResume image right suspended stage).1 := by
  obtain ⟨faulted, _, entitled, memory⟩ := agree
  have rest (call : Call) (member : call ∈ suspended) : Entitled cmse call :=
    entitled call (by rw [calls]; exact List.mem_cons_of_mem _ member)
  cases stage with
  | entered =>
      have same : load32 left.mem image.sCounter = load32 right.mem image.sCounter :=
        load32_congr _ _ _ fun address inside => memory address (Or.inr (Or.inr inside))
      rw [counterResume, counterResume, same]
      exact ⟨rfl, faulted, rfl, List.forall_mem_cons.mpr ⟨trivial, rest⟩, memory⟩
  | loaded value =>
      refine ⟨rfl, faulted, rfl, List.forall_mem_cons.mpr ⟨trivial, rest⟩, fun address shared => ?_⟩
      exact storeBytes_congr _ _ _ _ _ (by rw [wordBytes_length]; decide) fun _ => memory address shared
  | stored value => exact ⟨rfl, faulted, rfl, rest, memory⟩

theorem resume_agree (sound : CmseSound soc cmse) (left right : Nest)
    (agree : NestsAgree image cmse soc left right) :
    (nestOp image cmse soc left .resume).2 = (nestOp image cmse soc right .resume).2 ∧
      NestsAgree image cmse soc (nestOp image cmse soc left .resume).1
        (nestOp image cmse soc right .resume).1 := by
  have same := agree.calls
  cases calls : left.calls with
  | nil =>
      rw [calls] at same
      rw [nestOp, nestOp, calls, ← same]
      exact ⟨rfl, agree⟩
  | cons call suspended =>
      rw [calls] at same
      rw [nestOp, nestOp, calls, ← same]
      cases call with
      | counter stage => exact counter_resume_agree image cmse soc left right agree stage suspended calls
      | sign call =>
          obtain ⟨faulted, _, entitled, memory⟩ := agree
          rw [calls, List.forall_mem_cons] at entitled
          obtain ⟨outcome, after⟩ :=
            sign_step_agree image cmse soc sound left.mem right.mem memory call entitled.1
          have next := sign_step_entitled image cmse left.mem call
          simp only [signResume]
          generalize signStep image cmse left.mem call = first at *
          generalize signStep image cmse right.mem call = second at *
          obtain ⟨firstMemory, firstNext⟩ := first
          obtain ⟨secondMemory, secondNext⟩ := second
          obtain rfl : firstNext = secondNext := outcome
          cases firstNext with
          | inl goesOn =>
              exact ⟨rfl, faulted, rfl,
                List.forall_mem_cons.mpr ⟨next goesOn entitled.1 rfl, entitled.2⟩, after⟩
          | inr code => exact ⟨rfl, faulted, rfl, entitled.2, after⟩

theorem op_agree (hidden : Hidden image soc) (sound : CmseSound soc cmse) (left right : Nest)
    (agree : NestsAgree image cmse soc left right) (op : NestOp) :
    (nestOp image cmse soc left op).2 = (nestOp image cmse soc right op).2 ∧
      NestsAgree image cmse soc (nestOp image cmse soc left op).1
        (nestOp image cmse soc right op).1 := by
  obtain ⟨faulted, calls, entitled, memory⟩ := agree
  cases op with
  | getCounter =>
      exact ⟨rfl, faulted, congrArg (Call.counter .entered :: ·) calls,
        List.forall_mem_cons.mpr ⟨trivial, entitled⟩, memory⟩
  | sign challenge out len =>
      exact ⟨rfl, faulted, congrArg (_ :: ·) calls,
        List.forall_mem_cons.mpr ⟨Or.inl rfl, entitled⟩, memory⟩
  | store width address value =>
      simp only [nestOp]
      split
      · refine ⟨rfl, faulted, calls, entitled, fun target shared => ?_⟩
        exact storeBytes_congr _ _ _ _ _ (by rw [storeValue_length]; cases width <;> decide)
          fun _ => memory target shared
      · exact ⟨rfl, (rfl : true = true), calls, entitled,
          fault_agree image soc hidden left.mem right.mem memory⟩
  | resume => exact resume_agree image cmse soc sound left right ⟨faulted, calls, entitled, memory⟩

theorem activity_agree (hidden : Hidden image soc) (sound : CmseSound soc cmse) (left right : Nest)
    (agree : NestsAgree image cmse soc left right) (activity : Activity) :
    (activityStep image cmse soc left activity).2 = (activityStep image cmse soc right activity).2 ∧
      NestsAgree image cmse soc (activityStep image cmse soc left activity).1
        (activityStep image cmse soc right activity).1 := by
  have faulted := agree.faulted
  cases activity with
  | nest op =>
      rw [activityStep, activityStep, nestStep, nestStep, faulted]
      split
      · exact ⟨rfl, agree⟩
      · exact op_agree image cmse soc hidden sound left right agree op
  | load width address =>
      rw [activityStep, activityStep, faulted]
      split
      · exact ⟨rfl, agree⟩
      split
      · rename_i granted
        have same : loadBytes left.mem address width.bytes = loadBytes right.mem address width.bytes :=
          loadBytes_congr _ _ _ _ fun index below => agree.memory _ (Or.inl
            (range_open soc address _ _ granted ((within_iff_index _ _ _).mpr ⟨index, below, rfl⟩)))
        exact ⟨by rw [same], agree⟩
      · exact ⟨rfl, (rfl : true = true), agree.calls, agree.entitled,
          fault_agree image soc hidden left.mem right.mem agree.memory⟩

/-- Until the first fault, Secure bytes outside the counter and the stack are as in `memory`. -/
structure Untouched (memory : Memory 32) (nest : Nest) : Prop where
  entitled : ∀ call ∈ nest.calls, Entitled cmse call
  kept : nest.faulted = false → ∀ address, soc.sau.attribution address ≠ .nonSecure →
    ¬ Within image.sCounter 4 address → ¬ OnSecureStack address → nest.mem address = memory address

theorem resume_untouched (sound : CmseSound soc cmse) (memory : Memory 32) (nest : Nest)
    (untouched : Untouched image cmse soc memory nest) :
    Untouched image cmse soc memory (nestOp image cmse soc nest .resume).1 := by
  obtain ⟨entitled, kept⟩ := untouched
  cases calls : nest.calls with
  | nil =>
      rw [nestOp, calls]
      exact ⟨entitled, kept⟩
  | cons call suspended =>
      rw [nestOp, calls]
      rw [calls, List.forall_mem_cons] at entitled
      cases call with
      | counter stage =>
          cases stage with
          | entered => exact ⟨List.forall_mem_cons.mpr ⟨trivial, entitled.2⟩, kept⟩
          | stored value => exact ⟨entitled.2, kept⟩
          | loaded value =>
              refine ⟨List.forall_mem_cons.mpr ⟨trivial, entitled.2⟩, ?_⟩
              intro running address closed outside offStack
              exact (store32_outside _ _ _ _ outside).trans (kept running address closed outside offStack)
      | sign call =>
          have outside := sign_step_outside image cmse soc sound nest.mem call entitled.1
          have next := sign_step_entitled image cmse nest.mem call
          simp only [signResume]
          generalize signStep image cmse nest.mem call = outcome at outside next
          obtain ⟨after, goesOn | code⟩ := outcome
          · refine ⟨List.forall_mem_cons.mpr ⟨next goesOn entitled.1 rfl, entitled.2⟩, ?_⟩
            intro running address closed notCounter offStack
            exact (outside address closed).trans (kept running address closed notCounter offStack)
          · refine ⟨entitled.2, fun running address closed notCounter offStack => ?_⟩
            exact (outside address closed).trans (kept running address closed notCounter offStack)

theorem activity_untouched (sound : CmseSound soc cmse) (memory : Memory 32) (nest : Nest)
    (activity : Activity) (untouched : Untouched image cmse soc memory nest) :
    Untouched image cmse soc memory (activityStep image cmse soc nest activity).1 := by
  cases running : nest.faulted with
  | true =>
      rw [activity_stopped image cmse soc nest running activity]
      exact untouched
  | false =>
      cases activity with
      | load width address =>
          simp only [activityStep, running, Bool.false_eq_true, if_false]
          split
          · exact untouched
          · exact ⟨untouched.entitled, fun contra => Bool.noConfusion contra⟩
      | nest op =>
          rw [activityStep, nestStep, running, if_neg Bool.false_ne_true]
          cases op with
          | getCounter =>
              exact ⟨List.forall_mem_cons.mpr ⟨trivial, untouched.entitled⟩, untouched.kept⟩
          | sign challenge out len =>
              exact ⟨List.forall_mem_cons.mpr ⟨Or.inl rfl, untouched.entitled⟩, untouched.kept⟩
          | store width address value =>
              simp only [nestOp]
              split
              · rename_i granted
                refine ⟨untouched.entitled, fun _ target closed notCounter offStack => ?_⟩
                rw [← untouched.kept running target closed notCounter offStack]
                apply storeBytes_outside
                rw [storeValue_length]
                exact fun inside => closed (range_open soc address _ target granted inside)
              · exact ⟨untouched.entitled, fun contra => Bool.noConfusion contra⟩
          | resume => exact resume_untouched image cmse soc sound memory nest untouched

/-- Isolation under preemption: in any two Secure states that agree on Non-Secure memory, the key
and the counter, Non-Secure code sees the same, wherever it interrupts the services and however
deep it nests them; until the first fault it changes no Secure byte but the counter and those
of the Secure stack. -/
theorem preempted_services_isolated (unused : UnusedDisabled soc)
    (sound : CmseSound (tzSauConfig soc) cmse) (left right : Memory 32)
    (agree : Agree image (tzSauConfig soc) left right) (activities : List Activity) :
    let step := activityStep image cmse (tzSauConfig soc)
    trace step (atRest left) activities = trace step (atRest right) activities ∧
      (∀ address, (tzSauConfig soc).sau.attribution address = .nonSecure →
        (finish step (atRest left) activities).mem address =
          (finish step (atRest right) activities).mem address) ∧
      ((finish step (atRest left) activities).faulted = false →
        ∀ address, (tzSauConfig soc).sau.attribution address ≠ .nonSecure →
          ¬ Within image.sCounter 4 address → ¬ OnSecureStack address →
          (finish step (atRest left) activities).mem address = left address) := by
  have hidden := configured_hidden image soc unused
  intro step
  obtain ⟨same, atEnd⟩ := unwinding step (fun _ _ => ((), ())) (fun _ _ => True)
    (fun _ => NestsAgree image cmse (tzSauConfig soc))
    (fun _ first second activity related _ =>
      activity_agree image cmse (tzSauConfig soc) hidden sound first second related activity)
    () (atRest left) (atRest right) activities
    ⟨rfl, rfl, fun call member => absurd member List.not_mem_nil, agree⟩
    (meets_of_forall _ _ (fun _ _ => trivial) () activities)
  have untouched := invariant_always step (Untouched image cmse (tzSauConfig soc) left)
    (activity_untouched image cmse (tzSauConfig soc) sound left) (atRest left) activities
    ⟨fun call member => absurd member List.not_mem_nil, fun _ _ _ _ _ => rfl⟩
  exact ⟨same, fun address visible => atEnd.memory address (Or.inl visible), untouched.kept⟩

def preemptingSession : List Activity :=
  [.nest (.sign 0x20041000 0x20041008 16), .nest .resume, .nest .resume,
    .nest (.store .byte 0x20041001 0x5A), .nest .getCounter, .nest .resume, .nest .resume,
    .nest .resume, .load .word 0x20041000, .nest .resume]

theorem preempting_session_isolated :
    let soc := tzSauConfig resetSoc
    let step := activityStep sampleImage (attributionCheck soc) soc
    trace step (atRest blankMemory) preemptingSession =
        trace step (atRest otherMemory) preemptingSession ∧
      (∀ address, soc.sau.attribution address = .nonSecure →
        (finish step (atRest blankMemory) preemptingSession).mem address =
          (finish step (atRest otherMemory) preemptingSession).mem address) ∧
      ((finish step (atRest blankMemory) preemptingSession).faulted = false →
        ∀ address, soc.sau.attribution address ≠ .nonSecure →
          ¬ Within sampleImage.sCounter 4 address → ¬ OnSecureStack address →
          (finish step (atRest blankMemory) preemptingSession).mem address = blankMemory address) := by
  apply preempted_services_isolated sampleImage (attributionCheck (tzSauConfig resetSoc)) resetSoc
    reset_unused (attribution_check_sound (tzSauConfig resetSoc))
  intro address shared
  by_cases here : address = 0x20002000
  · subst here
    rcases shared with outer | key | counter
    · exact absurd outer (by decide)
    · exact absurd key (by decide)
    · exact absurd counter (by decide)
  · exact (Function.update_of_ne here 1 blankMemory).symm

end Rp2350Tee.PreemptedServices
