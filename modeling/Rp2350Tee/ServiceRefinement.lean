import Rp2350Tee.PreemptedServices

/-!
The two views of the services of minimal-tz: `secure_sign` and `secure_get_counter` in one
go, and access by access. A program that is never preempted gets from the second what it
gets from the first, except that the first keeps the buffers of a call on the Secure stack.
-/

namespace Rp2350Tee.ServiceRefinement

open ByteMemory TzConfig SecureService WorldIsolation VeneerNesting PreemptedServices Runs

variable (image : SecureImage) (cmse : CmseCheck) (soc : Soc)

def resumes (count : Nat) : List Activity := List.replicate count (.nest .resume)

def GoesOn (first last : Nest) (count : Nat) : Prop :=
  finish (activityStep image cmse soc) first (resumes count) = last ∧
    trace (activityStep image cmse soc) first (resumes count) = List.replicate count none

theorem goes_on_trans (first middle last : Nest) (before after : Nat)
    (start : GoesOn image cmse soc first middle before) (rest : GoesOn image cmse soc middle last after) :
    GoesOn image cmse soc first last (before + after) := by
  obtain ⟨reached, quiet⟩ := start
  obtain ⟨atEnd, still⟩ := rest
  constructor
  · rw [resumes, List.replicate_add, finish_append]
    exact (congrArg (finish _ · _) reached).trans atEnd
  · rw [resumes, List.replicate_add, trace_append, List.replicate_add]
    exact congrArg₂ _ quiet ((congrArg (trace _ · _) reached).trans still)

theorem goes_on_step (first last : Nest)
    (step : activityStep image cmse soc first (.nest .resume) = (last, none)) :
    GoesOn image cmse soc first last 1 := by
  constructor
  · exact congrArg Prod.fst step
  · exact congrArg (fun outcome => [outcome.2]) step

def copiedIn (memory : Memory 32) (call : SignCall) (index : Nat) : SignCall :=
  { call with
    stage := .copyIn index
    tmpIn := fun i => if i < index then memory (byteAt call.challenge i) else call.tmpIn i }

def transformed (memory : Memory 32) (call : SignCall) (index : Nat) : SignCall :=
  let input := copiedIn memory call call.len.toNat
  { input with
    stage := .transform index
    tmpOut := fun i =>
      if i < index then input.tmpIn i ^^^ keyByte image memory i else call.tmpOut i }

def copiedOut (memory : Memory 32) (call : SignCall) (index : Nat) : Memory 32 × SignCall :=
  let result := transformed image memory call call.len.toNat
  (fillBytes call.out (fun i _ => result.tmpOut i) memory index, { result with stage := .copyOut index })

theorem filled_next (value rest : Nat → Byte) (index : Nat) :
    Function.update (fun i => if i < index then value i else rest i) index (value index) =
      fun i => if i < index + 1 then value i else rest i := by
  funext i
  by_cases here : i = index
  · subst here
    rw [Function.update_self, if_pos (Nat.lt_succ_self i)]
  · rw [Function.update_of_ne here]
    exact if_congr (by omega) rfl rfl

section Phases

variable (nest : Nest) (suspended : List Call) (call : SignCall)

def inCall (memory : Memory 32) (call : SignCall) : Nest :=
  { nest with mem := memory, calls := .sign call :: suspended }

variable (running : nest.faulted = false)

include running

theorem in_call_step (memory : Memory 32) (next : Memory 32 × SignCall)
    (step : signStep image cmse memory call = (next.1, .inl next.2)) :
    activityStep image cmse soc (inCall nest suspended memory call) (.nest .resume) =
      (inCall nest suspended next.1 next.2, none) := by
  have active : (inCall nest suspended memory call).faulted = false := running
  rw [activityStep, nestStep, active, if_neg Bool.false_ne_true]
  simp only [nestOp, inCall, signResume, step]

theorem copy_in_goes_on :
    GoesOn image cmse soc (inCall nest suspended nest.mem (copiedIn nest.mem call 0))
      (inCall nest suspended nest.mem (copiedIn nest.mem call call.len.toNat)) call.len.toNat := by
  apply run_phase _ _ _ fun index => inCall nest suspended nest.mem (copiedIn nest.mem call index)
  intro index below
  apply in_call_step image cmse soc nest suspended _ running nest.mem (nest.mem, _)
  refine (if_pos below).trans ?_
  simp only [copiedIn, filled_next fun i => nest.mem (byteAt call.challenge i)]

theorem transform_goes_on :
    GoesOn image cmse soc (inCall nest suspended nest.mem (transformed image nest.mem call 0))
      (inCall nest suspended nest.mem (transformed image nest.mem call call.len.toNat))
      call.len.toNat := by
  apply run_phase _ _ _ fun index =>
    inCall nest suspended nest.mem (transformed image nest.mem call index)
  intro index below
  apply in_call_step image cmse soc nest suspended _ running nest.mem (nest.mem, _)
  refine (if_pos below).trans ?_
  have next := filled_next (fun i =>
    (copiedIn nest.mem call call.len.toNat).tmpIn i ^^^ keyByte image nest.mem i) call.tmpOut index
  simp only [transformed, next]

theorem copy_out_goes_on :
    GoesOn image cmse soc
      (inCall nest suspended (copiedOut image nest.mem call 0).1 (copiedOut image nest.mem call 0).2)
      (inCall nest suspended (copiedOut image nest.mem call call.len.toNat).1
        (copiedOut image nest.mem call call.len.toNat).2) call.len.toNat := by
  apply run_phase _ _ _ fun index => inCall nest suspended (copiedOut image nest.mem call index).1
    (copiedOut image nest.mem call index).2
  intro index below
  apply in_call_step image cmse soc nest suspended _ running
  exact if_pos below

theorem accepted_goes_on (fresh : call.stage = .checks)
    (accepted : SignAccepted cmse call.challenge call.out call.len) :
    GoesOn image cmse soc (inCall nest suspended nest.mem call)
      (inCall nest suspended (copiedOut image nest.mem call call.len.toNat).1
        (copiedOut image nest.mem call call.len.toNat).2) (3 * call.len.toNat + 3) := by
  have checked : GoesOn image cmse soc (inCall nest suspended nest.mem call)
      (inCall nest suspended nest.mem (copiedIn nest.mem call 0)) 1 := by
    apply goes_on_step
    apply in_call_step image cmse soc nest suspended _ running nest.mem (nest.mem, _)
    simp only [signStep, fresh, if_neg accepted.1, accepted.2.1, accepted.2.2,
      Bool.true_eq_false, if_false]
    rfl
  have copied : GoesOn image cmse soc
      (inCall nest suspended nest.mem (copiedIn nest.mem call call.len.toNat))
      (inCall nest suspended nest.mem (transformed image nest.mem call 0)) 1 := by
    apply goes_on_step
    apply in_call_step image cmse soc nest suspended _ running nest.mem (nest.mem, _)
    simp only [signStep, copiedIn, Nat.lt_irrefl, if_false]
    rfl
  have combined : GoesOn image cmse soc
      (inCall nest suspended nest.mem (transformed image nest.mem call call.len.toNat))
      (inCall nest suspended (copiedOut image nest.mem call 0).1 (copiedOut image nest.mem call 0).2)
      1 := by
    apply goes_on_step
    apply in_call_step image cmse soc nest suspended _ running
    simp only [signStep, transformed, copiedIn, copiedOut, Nat.lt_irrefl, if_false, fillBytes]
  have whole := goes_on_trans image cmse soc _ _ _ _ _ checked
    (goes_on_trans image cmse soc _ _ _ _ _ (copy_in_goes_on image cmse soc nest suspended call running)
      (goes_on_trans image cmse soc _ _ _ _ _ copied
        (goes_on_trans image cmse soc _ _ _ _ _
          (transform_goes_on image cmse soc nest suspended call running)
          (goes_on_trans image cmse soc _ _ _ _ _ combined
            (copy_out_goes_on image cmse soc nest suspended call running)))))
  rw [show 3 * call.len.toNat + 3 = 1 + (call.len.toNat + (1 + (call.len.toNat + (1 + call.len.toNat))))
    by omega]
  exact whole

end Phases

theorem copied_out_returns (nest : Nest) (suspended : List Call) (call : SignCall)
    (running : nest.faulted = false) :
    let last := copiedOut image nest.mem call call.len.toNat
    activityStep image cmse soc (inCall nest suspended last.1 last.2) (.nest .resume) =
      ({ nest with mem := last.1, calls := suspended }, some (.signed 0)) := by
  intro last
  have active : (inCall nest suspended last.1 last.2).faulted = false := running
  have step : signStep image cmse last.1 last.2 = (last.1, .inr 0) := if_neg (Nat.lt_irrefl _)
  rw [activityStep, nestStep, active, if_neg Bool.false_ne_true]
  simp only [nestOp, inCall, signResume, step]

theorem copied_out_visible (hidden : Hidden image soc) (sound : CmseSound soc cmse)
    (memory : Memory 32) (call : SignCall)
    (accepted : SignAccepted cmse call.challenge call.out call.len) (address : Word)
    (notTemporary : ¬ Temporary image address) :
    signMemory image call.challenge call.out call.len memory address =
      (copiedOut image memory call call.len.toNat).1 address := by
  rw [sign_visible image cmse soc hidden sound accepted memory address notTemporary]
  by_cases inside : Within call.out call.len.toNat address
  · obtain ⟨index, below, rfl⟩ := (within_iff_index _ _ _).mp inside
    have short := accepted_length cmse accepted
    rw [if_pos inside, offset_byteAt call.out index (by omega)]
    refine ((fillBytes_inside call.out _ memory _ (Nat.le_of_lt call.len.isLt)
      (fun _ _ _ _ => rfl) index below).trans ?_).symm
    simp only [transformed, copiedIn, if_pos below]
  · rw [if_neg inside]
    exact (fillBytes_outside _ _ _ _ _ inside).symm

theorem rejected_returns (nest : Nest) (suspended : List Call) (call : SignCall)
    (running : nest.faulted = false) (fresh : call.stage = .checks)
    (rejected : ¬ SignAccepted cmse call.challenge call.out call.len) :
    activityStep image cmse soc (inCall nest suspended nest.mem call) (.nest .resume) =
      ({ nest with calls := suspended },
        some (.signed (secureSign image cmse call.challenge call.out call.len nest.mem).2)) := by
  have active : (inCall nest suspended nest.mem call).faulted = false := running
  have step : signStep image cmse nest.mem call =
      (nest.mem, .inr (secureSign image cmse call.challenge call.out call.len nest.mem).2) := by
    rw [signStep, fresh, secureSign]
    dsimp only
    split
    · rfl
    split
    · rfl
    split
    · rfl
    · rename_i bounded input output
      exact absurd ⟨bounded, Bool.eq_true_of_not_eq_false input, Bool.eq_true_of_not_eq_false output⟩
        rejected
  rw [activityStep, nestStep, active, if_neg Bool.false_ne_true]
  simp only [nestOp, inCall, signResume, step]

theorem idle_goes_on (nest : Nest) (running : nest.faulted = false) (idle : nest.calls = [])
    (count : Nat) : GoesOn image cmse soc nest nest count := by
  apply run_phase _ _ _ fun _ => nest
  intro _ _
  rw [activityStep, nestStep, running, if_neg Bool.false_ne_true, nestOp, idle]

/-- An operation, and as many steps as its call can take. -/
def undisturbed : NsOp → List Activity
  | .load width address => [.load width address]
  | .store width address value => [.nest (.store width address value)]
  | .getCounter => .nest .getCounter :: resumes 3
  | .sign challenge out len => .nest (.sign challenge out len) :: resumes (3 * len.toNat + 4)

/-- What the program gets, leaving out the steps after a fault. -/
def shown : Option NsResult → Option NsResult
  | some .stopped => none
  | result => result

structure Matches (world : World) (nest : Nest) : Prop where
  faulted : world.faulted = nest.faulted
  idle : nest.calls = []
  memory : ∀ address, ¬ Temporary image address → world.mem address = nest.mem address

/-- What a step of one machine and the steps of the other that stand for it have in common. -/
def Refined (world : World) (nest : Nest) (op : NsOp) : Prop :=
  (trace (activityStep image cmse soc) nest (undisturbed op)).filterMap shown =
      [(nsStep image cmse soc world op).2].filterMap (fun result => shown (some result)) ∧
    Matches image (nsStep image cmse soc world op).1
      (finish (activityStep image cmse soc) nest (undisturbed op))

theorem stopped_activities (nest : Nest) (stopped : nest.faulted = true) (activities : List Activity) :
    finish (activityStep image cmse soc) nest activities = nest ∧
      (trace (activityStep image cmse soc) nest activities).filterMap shown = [] := by
  induction activities with
  | nil => exact ⟨rfl, rfl⟩
  | cons activity rest ih =>
      rw [finish, trace, activity_stopped image cmse soc nest stopped activity]
      exact ih

theorem fault_matches (left right : Memory 32)
    (same : ∀ address, ¬ Temporary image address → left address = right address) (address : Word)
    (notTemporary : ¬ Temporary image address) :
    refusedAccess image left address = refusedAccess image right address := by
  have status (byte : Word) (outer : ¬ Temporary image byte) :
      secureFault left byte = secureFault right byte :=
    secure_fault_congr left right byte (same byte outer)
  have read (base : Word) (apart : base.toNat + 4 ≤ 0x20081000 ∨
      0x20082000 ≤ base.toNat ∧ base.toNat + 4 ≤ 2 ^ 32) :
      load32 (secureFault left) base = load32 (secureFault right) base := by
    apply load32_congr
    intro byte inside
    rw [within_iff_interval _ _ _ (by omega)] at inside
    exact status byte (off_stack_not_temporary image byte (by unfold OnSecureStack; omega))
  have word (index : Nat) (few : index < 8) :
      load32 (secureFault left) (byteAt nsMailboxAddr (4 * index)) =
        load32 (secureFault right) (byteAt nsMailboxAddr (4 * index)) := by
    have place : nsMailboxAddr.toNat = 0x2007C000 := by decide
    apply read
    rw [byteAt_toNat _ _ (by omega), place]
    omega
  simp only [refusedAccess, isrHardfault, word, read sfsrAddr (by decide), Nat.reduceLT]
  exact storeWords_congr _ _ _ _ _ (by simp) fun _ => status address notTemporary

theorem sign_matches (hidden : Hidden image soc) (sound : CmseSound soc cmse)
    (challenge out len : Word) (accepted : SignAccepted cmse challenge out len) (left right : Memory 32)
    (same : ∀ address, ¬ Temporary image address → left address = right address) (address : Word)
    (notTemporary : ¬ Temporary image address) :
    signMemory image challenge out len left address =
      signMemory image challenge out len right address := by
  have visible := sign_visible image cmse soc hidden sound accepted
  rw [visible left address notTemporary, visible right address notTemporary]
  split
  · rename_i inside
    have read : left (byteAt challenge (address - out).toNat) =
        right (byteAt challenge (address - out).toNat) := by
      apply same
      intro temporary
      exact hidden _ (Or.inr (Or.inr (Or.inr temporary)))
        ((sound _ _ _ accepted.2.1).2 _ ((within_iff_index _ _ _).mpr ⟨_, inside, rfl⟩))
    have key : keyByte image left (address - out).toNat = keyByte image right (address - out).toNat :=
      same _ (key_not_temporary image _ (within_byteAt _ 16 _ (Nat.mod_lt _ (by decide))
        (by unfold secretKeyLen; omega)))
    rw [read, key]
  · exact same address notTemporary

section Ops

variable (hidden : Hidden image soc) (world : World) (nest : Nest) (agree : Matches image world nest)

include hidden agree in
theorem access_refined (base : Word) (count : Nat)
    (granted : nonSecureRange soc base count = true) (index : Nat) (below : index < count) :
    world.mem (byteAt base index) = nest.mem (byteAt base index) := by
  apply agree.memory
  intro temporary
  exact hidden _ (Or.inr (Or.inr (Or.inr temporary)))
    (range_open soc base count _ granted ((within_iff_index _ _ _).mpr ⟨index, below, rfl⟩))

variable (running : nest.faulted = false)

include agree running

include hidden in
theorem load_refined (width : Width) (address : Word) :
    Refined image cmse soc world nest (.load width address) := by
  have world_running : world.faulted = false := agree.faulted.trans running
  rw [Refined, nsStep, world_running, if_neg Bool.false_ne_true, undisturbed, finish, finish, trace,
    trace, activityStep, running, if_neg Bool.false_ne_true, nsOp]
  split
  · rename_i granted
    have same : loadBytes world.mem address width.bytes = loadBytes nest.mem address width.bytes :=
      loadBytes_congr _ _ _ _ (access_refined image soc hidden world nest agree _ _ granted)
    rw [same]
    exact ⟨rfl, running.symm, agree.idle, agree.memory⟩
  · exact ⟨rfl, (rfl : true = true), agree.idle,
      fault_matches image world.mem nest.mem agree.memory⟩

theorem store_refined (width : Width) (address value : Word) :
    Refined image cmse soc world nest (.store width address value) := by
  have world_running : world.faulted = false := agree.faulted.trans running
  rw [Refined, nsStep, world_running, if_neg Bool.false_ne_true, undisturbed, finish, finish, trace,
    trace, activityStep, nestStep, running, if_neg Bool.false_ne_true, nsOp, nestOp]
  split
  · refine ⟨rfl, running.symm, agree.idle, fun target notTemporary => ?_⟩
    exact storeBytes_congr _ _ _ _ _ (by rw [storeValue_length]; cases width <;> decide)
      fun _ => agree.memory target notTemporary
  · exact ⟨rfl, (rfl : true = true), agree.idle,
      fault_matches image world.mem nest.mem agree.memory⟩

theorem counter_refined : Refined image cmse soc world nest .getCounter := by
  have world_running : world.faulted = false := agree.faulted.trans running
  have same : load32 world.mem image.sCounter = load32 nest.mem image.sCounter :=
    load32_congr _ _ _ fun address inside =>
      agree.memory address (counter_not_temporary image address inside)
  obtain ⟨memory, calls, completed, faulted⟩ := nest
  obtain rfl : faulted = false := running
  obtain rfl : calls = [] := agree.idle
  rw [Refined, nsStep, world_running, if_neg Bool.false_ne_true]
  simp only [nsOp, secureGetCounter, secretNextCounter, same]
  refine ⟨rfl, (rfl : false = false), (rfl : [] = []), fun address notTemporary => ?_⟩
  exact storeBytes_congr _ _ _ _ _ (by rw [wordBytes_length]; decide)
    fun _ => agree.memory address notTemporary

include hidden in
theorem sign_refined (sound : CmseSound soc cmse) (challenge out len : Word) :
    Refined image cmse soc world nest (.sign challenge out len) := by
  have world_running : world.faulted = false := agree.faulted.trans running
  let call : SignCall := ⟨challenge, out, len, .checks, fun _ => 0, fun _ => 0⟩
  have entered : activityStep image cmse soc nest (.nest (.sign challenge out len)) =
      (inCall nest [] nest.mem call, none) := by
    rw [activityStep, nestStep, running, if_neg Bool.false_ne_true, nestOp, agree.idle]
    rfl
  have silent (count : Nat) : (List.replicate count (none : Option NsResult)).filterMap shown = [] :=
    List.filterMap_replicate_of_none rfl
  rw [Refined, nsStep, world_running, if_neg Bool.false_ne_true, undisturbed, finish, trace, entered,
    List.filterMap_cons_none rfl, nsOp]
  by_cases accepted : SignAccepted cmse challenge out len
  · obtain ⟨reached, quiet⟩ :=
      accepted_goes_on image cmse soc nest [] call running rfl accepted
    have returned := copied_out_returns image cmse soc nest [] call running
    rw [secure_sign_accepted image cmse challenge out len _ accepted]
    rw [resumes, List.replicate_succ', finish_append, trace_append]
    rw [resumes] at reached quiet
    rw [reached, quiet, finish, finish, trace, trace, returned, List.filterMap_append, silent]
    refine ⟨rfl, running.symm, rfl, fun address notTemporary => ?_⟩
    exact (sign_matches image cmse soc hidden sound challenge out len accepted world.mem nest.mem
      agree.memory address notTemporary).trans
        (copied_out_visible image cmse soc hidden sound nest.mem call accepted address notTemporary)
  · have returned := rejected_returns image cmse soc nest [] call running rfl accepted
    obtain ⟨code, rejected⟩ := secure_sign_rejected image cmse challenge out len accepted
    obtain ⟨still, quiet⟩ := idle_goes_on image cmse soc { nest with calls := [] } running rfl
      (3 * len.toNat + 3)
    rw [rejected nest.mem] at returned
    rw [resumes] at still quiet
    rw [resumes, List.replicate_succ, finish, trace, returned, still, quiet, rejected world.mem]
    refine ⟨?_, running.symm, rfl, agree.memory⟩
    have first : shown (some (NsResult.signed code)) = some (.signed code) := rfl
    rw [List.filterMap_cons_some first, silent]
    rfl

end Ops

/-- One operation, in one go and access by access. -/
theorem op_refined (hidden : Hidden image soc) (sound : CmseSound soc cmse) (world : World)
    (nest : Nest) (agree : Matches image world nest) (op : NsOp) :
    Refined image cmse soc world nest op := by
  cases running : nest.faulted with
  | true =>
      have world_stopped : world.faulted = true := agree.faulted.trans running
      obtain ⟨still, silent⟩ := stopped_activities image cmse soc nest running (undisturbed op)
      rw [Refined, still, silent, nsStep, if_pos world_stopped]
      exact ⟨rfl, agree⟩
  | false =>
      cases op with
      | load width address =>
          exact load_refined image cmse soc hidden world nest agree running width address
      | store width address value =>
          exact store_refined image cmse soc world nest agree running width address value
      | getCounter => exact counter_refined image cmse soc world nest agree running
      | sign challenge out len =>
          exact sign_refined image cmse soc hidden world nest agree running sound challenge out len

/-- A program that is never preempted gets the same from the services access by access as from
the services in one go, and leaves the same memory outside the buffers of `secure_sign`. -/
theorem undisturbed_program_refines (hidden : Hidden image soc) (sound : CmseSound soc cmse)
    (memory : Memory 32) (ops : List NsOp) :
    let fine := activityStep image cmse soc
    let coarse := nsStep image cmse soc
    let schedule := ops.flatMap undisturbed
    (trace fine (atRest memory) schedule).filterMap shown =
        (trace coarse ⟨memory, false⟩ ops).filterMap (fun result => shown (some result)) ∧
      Matches image (finish coarse ⟨memory, false⟩ ops) (finish fine (atRest memory) schedule) := by
  intro fine coarse schedule
  have along (world : World) (nest : Nest) (agree : Matches image world nest) :
      (trace fine nest (ops.flatMap undisturbed)).filterMap shown =
          (trace coarse world ops).filterMap (fun result => shown (some result)) ∧
        Matches image (finish coarse world ops) (finish fine nest (ops.flatMap undisturbed)) := by
    clear schedule
    induction ops generalizing world nest with
    | nil => exact ⟨rfl, agree⟩
    | cons op rest ih =>
        obtain ⟨first, after⟩ := op_refined image cmse soc hidden sound world nest agree op
        obtain ⟨others, atEnd⟩ := ih _ _ after
        rw [List.flatMap_cons, trace_append, finish_append, List.filterMap_append, first, others]
        exact ⟨List.filterMap_append.symm, atEnd⟩
  exact along _ _ ⟨rfl, rfl, fun _ _ => rfl⟩

theorem session_refines :
    let soc := tzSauConfig resetSoc
    let fine := activityStep sampleImage (attributionCheck soc) soc
    let coarse := nsStep sampleImage (attributionCheck soc) soc
    let schedule := nsSession.flatMap undisturbed
    (trace fine (atRest blankMemory) schedule).filterMap shown =
        (trace coarse ⟨blankMemory, false⟩ nsSession).filterMap (fun result => shown (some result)) ∧
      Matches sampleImage (finish coarse ⟨blankMemory, false⟩ nsSession)
        (finish fine (atRest blankMemory) schedule) :=
  undisturbed_program_refines sampleImage _ _ (configured_hidden sampleImage resetSoc reset_unused)
    (attribution_check_sound (tzSauConfig resetSoc)) blankMemory nsSession

end Rp2350Tee.ServiceRefinement
