import Mathlib.Data.List.Induction
import Rp2350Tee.PreemptedServices

/-!
`secure_sign` copies the challenge to the Secure stack before it uses the key. While the
call is in progress Non-Secure code may go on changing the challenge, in a handler that
preempts it; but every byte of the output comes from one read of one byte of the challenge,
made during the call, and from the key as it was at the start.
-/

namespace Rp2350Tee.SingleFetch

open ByteMemory TzConfig SecureService WorldIsolation VeneerNesting PreemptedServices Runs

variable (image : SecureImage) (cmse : CmseCheck) (soc : Soc)

inductive StackChange (nest after : Nest) : Prop where
  | same (calls : after.calls = nest.calls)
  | entered (call : Call) (calls : after.calls = call :: nest.calls)
      (fresh : ∀ signing, call = .sign signing → signing.stage = .checks)
  | returned (call : Call) (suspended : List Call) (before : nest.calls = call :: suspended)
      (calls : after.calls = suspended)
  | counted (stage next : CounterStage) (suspended : List Call)
      (before : nest.calls = .counter stage :: suspended)
      (calls : after.calls = .counter next :: suspended)
  | signed (call next : SignCall) (suspended : List Call) (before : nest.calls = .sign call :: suspended)
      (calls : after.calls = .sign next :: suspended) (running : nest.faulted = false)
      (step : (signStep image cmse nest.mem call).2 = .inl next)

theorem resume_stack (nest : Nest) (running : nest.faulted = false) :
    StackChange image cmse nest (nestOp image cmse soc nest .resume).1 := by
  cases calls : nest.calls with
  | nil =>
      rw [nestOp, calls]
      exact .same rfl
  | cons call suspended =>
      rw [nestOp, calls]
      cases call with
      | counter stage =>
          cases stage with
          | entered => exact .counted _ _ suspended calls rfl
          | loaded value => exact .counted _ _ suspended calls rfl
          | stored value => exact .returned _ suspended calls rfl
      | sign call =>
          cases outcome : signStep image cmse nest.mem call with
          | mk memory next =>
              simp only [signResume, outcome]
              cases next with
              | inl next =>
                  exact .signed call next suspended calls rfl running (congrArg Prod.snd outcome)
              | inr code => exact .returned _ suspended calls rfl

theorem activity_stack (nest : Nest) (activity : Activity) :
    StackChange image cmse nest (activityStep image cmse soc nest activity).1 := by
  cases running : nest.faulted with
  | true => exact .same (by rw [activity_stopped image cmse soc nest running activity])
  | false =>
      cases activity with
      | load width address =>
          simp only [activityStep, running, Bool.false_eq_true, if_false]
          split <;> exact .same rfl
      | nest op =>
          rw [activityStep, nestStep, running, if_neg Bool.false_ne_true]
          cases op with
          | getCounter => exact .entered _ rfl fun _ other => Call.noConfusion other
          | sign challenge out len =>
              refine .entered _ rfl fun signing same => ?_
              obtain rfl := Call.sign.inj same
              rfl
          | store width address value =>
              simp only [nestOp]
              split <;> exact .same rfl
          | resume => exact resume_stack image cmse soc nest running

variable (memory : Memory 32)

def after (past : List Activity) : Nest := finish (activityStep image cmse soc) (atRest memory) past

theorem after_append (past : List Activity) (activity : Activity) :
    after image cmse soc memory (past ++ [activity]) =
      (activityStep image cmse soc (after image cmse soc memory past) activity).1 :=
  finish_append _ _ past [activity]

/-- `byte` is what the call over `suspended` found at the position `index` of its challenge when its
loop was there, and the call has not returned since. -/
def Fetched (past : List Activity) (call : SignCall) (suspended : List Call) (index : Nat)
    (byte : Byte) : Prop :=
  ∃ earlier, earlier <+: past ∧
    (∃ reading, (after image cmse soc memory earlier).calls = .sign reading :: suspended ∧
      reading.challenge = call.challenge ∧ reading.out = call.out ∧ reading.len = call.len ∧
      reading.stage = .copyIn index) ∧
    byte = (after image cmse soc memory earlier).mem (byteAt call.challenge index) ∧
    ∀ middle, earlier <+: middle → middle <+: past →
      suspended.length < (after image cmse soc memory middle).calls.length

theorem fetched_later (past : List Activity) (activity : Activity) (call : SignCall)
    (suspended : List Call) (index : Nat) (byte : Byte)
    (fetched : Fetched image cmse soc memory past call suspended index byte)
    (inProgress : suspended.length < (after image cmse soc memory (past ++ [activity])).calls.length) :
    Fetched image cmse soc memory (past ++ [activity]) call suspended index byte := by
  obtain ⟨earlier, before, reading, found, since⟩ := fetched
  refine ⟨earlier, before.trans (List.prefix_append past _), reading, found, fun middle start upTo => ?_⟩
  rcases List.prefix_concat_iff.mp upTo with rfl | upTo
  · exact inProgress
  · exact since middle start upTo

/-- How far the two loops in front of the last one have come. -/
def SignCall.fetchedCount (call : SignCall) : Nat :=
  match call.stage with
  | .checks => 0
  | .copyIn index => index
  | .transform _ => call.len.toNat
  | .copyOut _ => call.len.toNat

def SignCall.mixedCount (call : SignCall) : Nat :=
  match call.stage with
  | .checks => 0
  | .copyIn _ => 0
  | .transform index => index
  | .copyOut _ => call.len.toNat

/-- The buffers of a call hold what it has fetched, and that combined with the key. -/
structure Buffered (past : List Activity) (call : SignCall) (suspended : List Call) : Prop where
  input : ∀ index < SignCall.fetchedCount call,
    Fetched image cmse soc memory past call suspended index (call.tmpIn index)
  result : ∀ index < SignCall.mixedCount call,
    call.tmpOut index = call.tmpIn index ^^^ keyByte image memory index

theorem buffered_later (past : List Activity) (activity : Activity) (call : SignCall)
    (suspended : List Call) (buffered : Buffered image cmse soc memory past call suspended)
    (inProgress : suspended.length < (after image cmse soc memory (past ++ [activity])).calls.length) :
    Buffered image cmse soc memory (past ++ [activity]) call suspended :=
  ⟨fun index below => fetched_later image cmse soc memory past activity call suspended index _
    (buffered.input index below) inProgress, buffered.result⟩

theorem fetched_now (past : List Activity) (activity : Activity) (call : SignCall)
    (suspended : List Call) (index : Nat)
    (calls : (after image cmse soc memory past).calls = .sign call :: suspended)
    (stage : call.stage = .copyIn index)
    (inProgress : suspended.length < (after image cmse soc memory (past ++ [activity])).calls.length) :
    Fetched image cmse soc memory (past ++ [activity]) call suspended index
      ((after image cmse soc memory past).mem (byteAt call.challenge index)) := by
  refine ⟨past, List.prefix_append past _, ⟨call, calls, rfl, rfl, rfl, stage⟩, rfl, ?_⟩
  intro middle start upTo
  rcases List.prefix_concat_iff.mp upTo with rfl | upTo
  · exact inProgress
  · obtain rfl := start.eq_of_length_le upTo.length_le
    rw [calls]
    exact Nat.lt_succ_self _

theorem sign_step_buffered (past : List Activity) (activity : Activity) (call next : SignCall)
    (suspended : List Call)
    (calls : (after image cmse soc memory past).calls = .sign call :: suspended)
    (inProgress : suspended.length < (after image cmse soc memory (past ++ [activity])).calls.length)
    (key : ∀ index, keyByte image (after image cmse soc memory past).mem index = keyByte image memory index)
    (step : (signStep image cmse (after image cmse soc memory past).mem call).2 = .inl next)
    (buffered : Buffered image cmse soc memory past call suspended) :
    Buffered image cmse soc memory (past ++ [activity]) next suspended := by
  obtain ⟨input, result⟩ :=
    buffered_later image cmse soc memory past activity call suspended buffered inProgress
  cases stage : call.stage with
  | checks =>
      simp only [signStep, stage] at step
      split at step
      · cases step
      split at step
      · cases step
      split at step
      · cases step
      · obtain rfl := Sum.inl.inj step
        exact ⟨fun index below => absurd below (Nat.not_lt_zero index),
          fun index below => absurd below (Nat.not_lt_zero index)⟩
  | copyIn index =>
      simp only [SignCall.fetchedCount, SignCall.mixedCount, stage] at input result
      simp only [signStep, stage] at step
      split at step
      · obtain rfl := Sum.inl.inj step
        refine ⟨fun i below => ?_, fun i below => absurd below (Nat.not_lt_zero i)⟩
        have now := fetched_now image cmse soc memory past activity call suspended index calls stage
          inProgress
        by_cases here : i = index
        · subst here
          simp only [Function.update_self]
          exact now
        · simp only [Function.update_of_ne here]
          exact input i (by have : i < index + 1 := below; omega)
      · rename_i past_end
        obtain rfl := Sum.inl.inj step
        exact ⟨fun i below => input i (Nat.lt_of_lt_of_le below (Nat.le_of_not_lt past_end)),
          fun i below => absurd below (Nat.not_lt_zero i)⟩
  | transform index =>
      simp only [SignCall.fetchedCount, SignCall.mixedCount, stage] at input result
      simp only [signStep, stage] at step
      split at step
      · obtain rfl := Sum.inl.inj step
        refine ⟨input, fun i below => ?_⟩
        by_cases here : i = index
        · subst here
          simp only [Function.update_self, key]
        · simp only [Function.update_of_ne here]
          exact result i (by have : i < index + 1 := below; omega)
      · rename_i past_end
        obtain rfl := Sum.inl.inj step
        exact ⟨input, fun i below => result i (Nat.lt_of_lt_of_le below (Nat.le_of_not_lt past_end))⟩
  | copyOut index =>
      simp only [SignCall.fetchedCount, SignCall.mixedCount, stage] at input result
      simp only [signStep, stage] at step
      split at step
      · obtain rfl := Sum.inl.inj step
        exact ⟨input, result⟩
      · cases step

def AllBuffered (past : List Activity) : Prop :=
  ∀ call suspended, .sign call :: suspended <:+ (after image cmse soc memory past).calls →
    Buffered image cmse soc memory past call suspended

theorem key_kept (hidden : Hidden image soc) (sound : CmseSound soc cmse) (past : List Activity)
    (running : (after image cmse soc memory past).faulted = false) (index : Nat) :
    keyByte image (after image cmse soc memory past).mem index = keyByte image memory index := by
  have untouched := invariant_always (activityStep image cmse soc) (Untouched image cmse soc memory)
    (activity_untouched image cmse soc sound memory) (atRest memory) past
    ⟨fun call member => absurd member List.not_mem_nil, fun _ _ _ _ _ => rfl⟩
  have inside : Within image.sKey 16 (byteAt image.sKey (index % secretKeyLen)) :=
    within_byteAt _ 16 _ (Nat.mod_lt _ (by decide)) (by unfold secretKeyLen; omega)
  exact untouched.kept running _ (hidden _ (Or.inl inside)) (key_not_counter image _ inside)
    (data_not_on_stack image (image.sKey, 16) (by simp [SecurePlacement.data]) _ inside)

theorem step_buffered (hidden : Hidden image soc) (sound : CmseSound soc cmse) (past : List Activity)
    (activity : Activity) (all : AllBuffered image cmse soc memory past) :
    AllBuffered image cmse soc memory (past ++ [activity]) := by
  have change := activity_stack image cmse soc (after image cmse soc memory past) activity
  intro call suspended
  rw [← after_append] at change
  intro suffix
  have inProgress : suspended.length < (after image cmse soc memory (past ++ [activity])).calls.length :=
    suffix.length_le
  have earlier (before : .sign call :: suspended <:+ (after image cmse soc memory past).calls) :=
    buffered_later image cmse soc memory past activity call suspended (all call suspended before)
      inProgress
  cases change with
  | same calls => exact earlier (by rwa [calls] at suffix)
  | entered top calls fresh =>
      rw [calls, List.suffix_cons_iff] at suffix
      rcases suffix with top_is | under
      · obtain ⟨rfl, rfl⟩ := List.cons.inj top_is
        have start := fresh call rfl
        have nothing (index : Nat) : ¬ index < SignCall.fetchedCount call ∧
            ¬ index < SignCall.mixedCount call := by
          simp [SignCall.fetchedCount, SignCall.mixedCount, start]
        exact ⟨fun index below => absurd below (nothing index).1,
          fun index below => absurd below (nothing index).2⟩
      · exact earlier under
  | returned top rest before calls =>
      rw [calls] at suffix
      exact earlier (by rw [before]; exact suffix.trans (List.suffix_cons top rest))
  | counted stage next rest before calls =>
      rw [calls, List.suffix_cons_iff] at suffix
      rcases suffix with top_is | under
      · cases top_is
      · exact earlier (by rw [before]; exact under.trans (List.suffix_cons _ rest))
  | signed top next rest before calls running step =>
      rw [calls, List.suffix_cons_iff] at suffix
      rcases suffix with top_is | under
      · cases top_is
        exact sign_step_buffered image cmse soc memory past activity top call suspended before
          inProgress (key_kept image cmse soc memory hidden sound past running) step
          (all top suspended (by rw [before]))
      · exact earlier (by rw [before]; exact under.trans (List.suffix_cons _ rest))

theorem run_buffered (hidden : Hidden image soc) (sound : CmseSound soc cmse) (past : List Activity) :
    AllBuffered image cmse soc memory past := by
  induction past using List.reverseRecOn with
  | nil => exact fun call suspended suffix => absurd suffix (by simp [after, finish, atRest])
  | append_singleton past activity ih =>
      exact step_buffered image cmse soc memory hidden sound past activity ih

/-- Whatever preempts it and rewrites the challenge meanwhile, each byte that `secure_sign` stores
is one byte of the challenge, as the call found it in one read, combined with the original key. -/
theorem stored_byte_fetched_once (hidden : Hidden image soc) (sound : CmseSound soc cmse)
    (past : List Activity) (call : SignCall) (suspended : List Call) (index : Nat)
    (running : (after image cmse soc memory past).faulted = false)
    (calls : (after image cmse soc memory past).calls = .sign call :: suspended)
    (stage : call.stage = .copyOut index) (below : index < call.len.toNat) :
    ∃ byte, Fetched image cmse soc memory past call suspended index byte ∧
      (after image cmse soc memory (past ++ [.nest .resume])).mem (byteAt call.out index) =
        byte ^^^ keyByte image memory index := by
  have buffered := run_buffered image cmse soc memory hidden sound past call suspended
    (by rw [calls])
  have fetched := buffered.input index (by rw [SignCall.fetchedCount, stage]; exact below)
  have mixed := buffered.result index (by rw [SignCall.mixedCount, stage]; exact below)
  refine ⟨call.tmpIn index, fetched, ?_⟩
  rw [after_append, activityStep, nestStep, running, if_neg Bool.false_ne_true, nestOp, calls]
  simp only [signResume, signStep, stage, if_pos below, Function.update_self]
  exact mixed

def rewrittenChallenge : List Activity :=
  [.nest (.sign 0x20041000 0x20041008 1), .nest .resume, .nest .resume,
    .nest (.store .byte 0x20041000 0x5A), .nest .resume, .nest .resume, .nest .resume]

theorem rewritten_challenge_fetched_once :
    let cmse := attributionCheck (tzSauConfig resetSoc)
    let reached := after sampleImage cmse (tzSauConfig resetSoc) signingMemory
    ∃ call, (reached rewrittenChallenge).calls = [.sign call] ∧
      ∃ byte, Fetched sampleImage cmse (tzSauConfig resetSoc) signingMemory rewrittenChallenge call [] 0 byte ∧
        (reached (rewrittenChallenge ++ [.nest .resume])).mem (byteAt call.out 0) =
          byte ^^^ keyByte sampleImage signingMemory 0 := by
  intro cmse reached
  refine ⟨_, rfl, stored_byte_fetched_once sampleImage cmse (tzSauConfig resetSoc) signingMemory
    (configured_hidden sampleImage resetSoc reset_unused) (attribution_check_sound (tzSauConfig resetSoc))
    rewrittenChallenge _ [] 0 rfl rfl rfl (by decide)⟩

end Rp2350Tee.SingleFetch
