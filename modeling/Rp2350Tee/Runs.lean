import Mathlib.Logic.Basic

/-!
Runs of deterministic input/output machines. A machine is a step function from
a state and an input to the next state and an output; a run is a list of inputs.
Invariants, two-run relations and adaptive choice of the inputs are treated once
here, for any state, input and output type.
-/

namespace Rp2350Tee.Runs

universe u v w

variable {State : Type u} {Input : Type v} {Output : Type w}

def finish (step : State → Input → State × Output) : State → List Input → State
  | state, [] => state
  | state, input :: rest => finish step (step state input).1 rest

def trace (step : State → Input → State × Output) : State → List Input → List Output
  | _, [] => []
  | state, input :: rest => (step state input).2 :: trace step (step state input).1 rest

theorem finish_append (step : State → Input → State × Output) (state : State)
    (first second : List Input) :
    finish step state (first ++ second) = finish step (finish step state first) second := by
  induction first generalizing state with
  | nil => rfl
  | cons input rest ih => exact ih _

theorem trace_append (step : State → Input → State × Output) (state : State)
    (first second : List Input) :
    trace step state (first ++ second) =
      trace step state first ++ trace step (finish step state first) second := by
  induction first generalizing state with
  | nil => rfl
  | cons input rest ih => exact congrArg _ (ih _)

theorem run_phase (step : State → Input → State × Output) (input : Input) (output : Output)
    (phase : Nat → State) (count : Nat)
    (advance : ∀ index < count, step (phase index) input = (phase (index + 1), output)) :
    finish step (phase 0) (List.replicate count input) = phase count ∧
      trace step (phase 0) (List.replicate count input) = List.replicate count output := by
  induction count with
  | zero => exact ⟨rfl, rfl⟩
  | succ count ih =>
      obtain ⟨reached, shown⟩ := ih fun index below => advance index (Nat.lt_succ_of_lt below)
      have last := advance count (Nat.lt_succ_self count)
      rw [List.replicate_succ', List.replicate_succ', finish_append, trace_append, reached, shown]
      simp only [finish, trace, last]
      exact ⟨trivial, trivial⟩

/-- Every step of the run meets `ok`, a condition on its input and on the state before it. -/
def Meets (step : State → Input → State × Output) (ok : State → Input → Prop) :
    State → List Input → Prop
  | _, [] => True
  | state, input :: rest => ok state input ∧ Meets step ok (step state input).1 rest

instance (step : State → Input → State × Output) (ok : State → Input → Prop)
    [∀ state input, Decidable (ok state input)] :
    (state : State) → (inputs : List Input) → Decidable (Meets step ok state inputs)
  | _, [] => .isTrue trivial
  | state, input :: rest =>
      let : Decidable (Meets step ok (step state input).1 rest) :=
        instDecidableMeets step ok (step state input).1 rest
      inferInstanceAs (Decidable (ok state input ∧ Meets step ok (step state input).1 rest))

theorem meets_append (step : State → Input → State × Output) (ok : State → Input → Prop)
    (state : State) (first second : List Input) :
    Meets step ok state (first ++ second) ↔
      Meets step ok state first ∧ Meets step ok (finish step state first) second := by
  induction first generalizing state with
  | nil => simp [Meets, finish]
  | cons input rest ih => simp [Meets, finish, ih, and_assoc]

theorem meets_of_forall (step : State → Input → State × Output) (ok : State → Input → Prop)
    (always : ∀ state input, ok state input) (state : State) (inputs : List Input) :
    Meets step ok state inputs := by
  induction inputs generalizing state with
  | nil => trivial
  | cons input rest ih => exact ⟨always state input, ih _⟩

theorem meets_mono (step : State → Input → State × Output) (ok weaker : State → Input → Prop)
    (implies : ∀ state input, ok state input → weaker state input) (state : State)
    (inputs : List Input) (meets : Meets step ok state inputs) :
    Meets step weaker state inputs := by
  induction inputs generalizing state with
  | nil => trivial
  | cons input rest ih => exact ⟨implies _ _ meets.1, ih _ meets.2⟩

/-- What each step that meets the condition preserves holds in every state reached. -/
theorem invariant_run (step : State → Input → State × Output) (ok : State → Input → Prop)
    (inv : State → Prop)
    (preserved : ∀ state input, inv state → ok state input → inv (step state input).1)
    (state : State) (inputs : List Input) (start : inv state)
    (meets : Meets step ok state inputs) : inv (finish step state inputs) := by
  induction inputs generalizing state with
  | nil => exact start
  | cons input rest ih => exact ih _ (preserved state input start meets.1) meets.2

theorem invariant_always (step : State → Input → State × Output) (inv : State → Prop)
    (preserved : ∀ state input, inv state → inv (step state input).1)
    (state : State) (inputs : List Input) (start : inv state) :
    inv (finish step state inputs) :=
  invariant_run step (fun _ _ => True) inv (fun state input holds _ => preserved state input holds)
    state inputs start (meets_of_forall step _ (fun _ _ => trivial) state inputs)

/-- A condition on the outcome of a step that is equivalent, wherever the invariant holds,
to one on the state before it, is so along whole runs. -/
theorem meets_iff (step : State → Input → State × Output) (before after : State → Input → Prop)
    (inv : State → Prop) (same : ∀ state input, inv state → (after state input ↔ before state input))
    (preserved : ∀ state input, inv state → before state input → inv (step state input).1)
    (state : State) (inputs : List Input) (start : inv state) :
    Meets step after state inputs ↔ Meets step before state inputs := by
  induction inputs generalizing state with
  | nil => exact Iff.rfl
  | cons input rest ih =>
      constructor
      · rintro ⟨head, tail⟩
        have here := (same state input start).mp head
        exact ⟨here, (ih _ (preserved state input start here)).mp tail⟩
      · rintro ⟨head, tail⟩
        exact ⟨(same state input start).mpr head, (ih _ (preserved state input start head)).mpr tail⟩

/-- A property that a step neither mends nor breaks except by its condition holds at the end
of a run exactly when it held at the start and every step met the condition. -/
theorem holds_at_end_iff (step : State → Input → State × Output) (holds : State → Prop)
    (ok : State → Input → Prop) (inv : State → Prop)
    (stepIff : ∀ state input, inv state →
      (holds (step state input).1 ↔ holds state ∧ ok state input))
    (preserved : ∀ state input, inv state → inv (step state input).1)
    (state : State) (inputs : List Input) (start : inv state) :
    holds (finish step state inputs) ↔ holds state ∧ Meets step ok state inputs := by
  induction inputs generalizing state with
  | nil => simp [finish, Meets]
  | cons input rest ih =>
      rw [finish, Meets, ih _ (preserved state input start), stepIff state input start, and_assoc]

theorem simulates_run {Abstract : Type*} (step : State → Input → State × Output)
    (abstractStep : Abstract → Input → Abstract × Output) (abs : State → Abstract)
    (ok : State → Input → Prop) (inv : State → Prop)
    (simulates : ∀ state input, inv state → ok state input →
      abstractStep (abs state) input = (abs (step state input).1, (step state input).2))
    (preserved : ∀ state input, inv state → inv (step state input).1)
    (state : State) (inputs : List Input) (start : inv state) (meets : Meets step ok state inputs) :
    trace abstractStep (abs state) inputs = trace step state inputs ∧
      finish abstractStep (abs state) inputs = abs (finish step state inputs) := by
  induction inputs generalizing state with
  | nil => exact ⟨rfl, rfl⟩
  | cons input rest ih =>
      have head := simulates state input start meets.1
      obtain ⟨sameTrace, sameEnd⟩ := ih _ (preserved state input start) meets.2
      exact ⟨by rw [trace, trace, head, sameTrace], by rw [finish, finish, head, sameEnd]⟩

theorem related_run {Abstract : Type*} (step : State → Input → State × Output)
    (abstractStep : Abstract → Input → Abstract × Output) (rel : State → Abstract → Prop)
    (ok : State → Input → Prop)
    (related : ∀ state abstract input, rel state abstract → ok state input →
      (step state input).2 = (abstractStep abstract input).2 ∧
        rel (step state input).1 (abstractStep abstract input).1)
    (state : State) (abstract : Abstract) (inputs : List Input) (start : rel state abstract)
    (meets : Meets step ok state inputs) :
    trace step state inputs = trace abstractStep abstract inputs ∧
      rel (finish step state inputs) (finish abstractStep abstract inputs) := by
  induction inputs generalizing state abstract with
  | nil => exact ⟨rfl, start⟩
  | cons input rest ih =>
      obtain ⟨same, next⟩ := related state abstract input start meets.1
      obtain ⟨sameTrace, atEnd⟩ := ih _ _ next meets.2
      exact ⟨by rw [trace, trace, same, sameTrace], atEnd⟩

/-! Values returned along a run, by the steps that return one. `last` is what the state holds of
the latest one. -/

section Answers

variable {Value : Type*} (step : State → Input → State × Output) (answer : Input → Output → Option Value)

def answers : State → List Input → List Value
  | _, [] => []
  | state, input :: rest =>
      (answer input (step state input).2).toList ++ answers (step state input).1 rest

variable (less : Value → Value → Prop) (last : State → Value) (fair grows : State → Input → Prop)
  (inv : State → Prop)

/-- Each value is above all earlier ones and the starting one exactly when every single step
that returns a value goes up. -/
theorem answers_rising_iff (trans : ∀ a b c, less a b → less b c → less a c)
    (returns : ∀ state input value, inv state → fair state input →
      answer input (step state input).2 = some value →
        last (step state input).1 = value ∧ (less (last state) value ↔ grows state input))
    (idles : ∀ state input, inv state → fair state input → answer input (step state input).2 = none →
      last (step state input).1 = last state ∧ grows state input)
    (preserved : ∀ state input, inv state → inv (step state input).1)
    (state : State) (inputs : List Input) (start : inv state) (fairRun : Meets step fair state inputs) :
    (last state :: answers step answer state inputs).Pairwise less ↔
      Meets step grows state inputs := by
  induction inputs generalizing state with
  | nil => simp [answers, Meets]
  | cons input rest ih =>
      have tail := ih (step state input).1 (preserved state input start) fairRun.2
      rw [answers, Meets, ← tail]
      cases answered : answer input (step state input).2 with
      | none =>
          obtain ⟨same, grown⟩ := idles state input start fairRun.1 answered
          rw [same, Option.toList_none, List.nil_append, and_iff_right grown]
      | some value =>
          obtain ⟨latest, above⟩ := returns state input value start fairRun.1 answered
          rw [latest, ← above, Option.toList_some, List.singleton_append, List.pairwise_cons]
          constructor
          · rintro ⟨below, rising⟩
            exact ⟨below value List.mem_cons_self, rising⟩
          · rintro ⟨below, rising⟩
            refine ⟨fun later member => ?_, rising⟩
            rcases List.mem_cons.mp member with rfl | further
            · exact below
            · exact trans _ _ _ below ((List.pairwise_cons.mp rising).1 later further)

theorem answers_above_start (trans : ∀ a b c, less a b → less b c → less a c) (first : Value)
    (idles : ∀ state input, inv state → fair state input → answer input (step state input).2 = none →
      last (step state input).1 = last state ∧ grows state input)
    (floor : ∀ state input value, inv state → fair state input → last state = first →
      answer input (step state input).2 = some value → less first value)
    (preserved : ∀ state input, inv state → inv (step state input).1)
    (state : State) (inputs : List Input) (start : inv state) (fairRun : Meets step fair state inputs)
    (fresh : last state = first) (rising : (answers step answer state inputs).Pairwise less) :
    (first :: answers step answer state inputs).Pairwise less := by
  induction inputs generalizing state with
  | nil => exact List.pairwise_singleton less first
  | cons input rest ih =>
      rw [answers] at rising ⊢
      cases answered : answer input (step state input).2 with
      | none =>
          have same := (idles state input start fairRun.1 answered).1
          rw [answered, Option.toList_none, List.nil_append] at rising
          exact ih _ (preserved state input start) fairRun.2 (same.trans fresh) rising
      | some value =>
          have above := floor state input value start fairRun.1 fresh answered
          rw [answered, Option.toList_some, List.singleton_append] at rising
          refine List.pairwise_cons.mpr ⟨fun later member => ?_, rising⟩
          rcases List.mem_cons.mp member with rfl | further
          · exact above
          · exact trans _ _ _ above ((List.pairwise_cons.mp rising).1 later further)

theorem answers_increasing_iff (trans : ∀ a b c, less a b → less b c → less a c)
    (returns : ∀ state input value, inv state → fair state input →
      answer input (step state input).2 = some value →
        last (step state input).1 = value ∧ (less (last state) value ↔ grows state input))
    (idles : ∀ state input, inv state → fair state input → answer input (step state input).2 = none →
      last (step state input).1 = last state ∧ grows state input)
    (preserved : ∀ state input, inv state → inv (step state input).1) (state : State)
    (floor : ∀ other input value, inv other → fair other input → last other = last state →
      answer input (step other input).2 = some value → less (last state) value)
    (inputs : List Input) (start : inv state) (fairRun : Meets step fair state inputs) :
    (answers step answer state inputs).Pairwise less ↔ Meets step grows state inputs := by
  rw [← answers_rising_iff step answer less last fair grows inv trans returns idles preserved state
    inputs start fairRun]
  constructor
  · exact answers_above_start step answer less last fair grows inv trans (last state) idles floor
      preserved state inputs start fairRun rfl
  · intro rising
    exact (List.pairwise_cons.mp rising).2

end Answers

/-! Two runs on the same inputs. `Ghost` is what the relation is indexed by; it follows
the inputs alone, so it is the same for both runs. -/

section Unwinding

variable {Ghost : Type*} {Mark : Type*}

theorem unwinding (step : State → Input → State × Output) (next : Ghost → Input → Ghost × Mark)
    (ok : Ghost → Input → Prop) (rel : Ghost → State → State → Prop)
    (stepRel : ∀ ghost left right input, rel ghost left right → ok ghost input →
      (step left input).2 = (step right input).2 ∧
        rel (next ghost input).1 (step left input).1 (step right input).1)
    (ghost : Ghost) (left right : State) (inputs : List Input) (related : rel ghost left right)
    (meets : Meets next ok ghost inputs) :
    trace step left inputs = trace step right inputs ∧
      rel (finish next ghost inputs) (finish step left inputs) (finish step right inputs) := by
  induction inputs generalizing ghost left right with
  | nil => exact ⟨rfl, related⟩
  | cons input rest ih =>
      obtain ⟨sameOutput, stillRelated⟩ := stepRel ghost left right input related meets.1
      obtain ⟨sameTrace, atEnd⟩ := ih _ _ _ stillRelated meets.2
      exact ⟨by rw [trace, trace, sameOutput, sameTrace], atEnd⟩

/-- Where the condition also decides whether a step tells the two states apart, it decides
whether the run does. Steps that are not `fair` are left out. -/
theorem unwinding_iff (step : State → Input → State × Output) (next : Ghost → Input → Ghost × Mark)
    (fair ok : Ghost → Input → Prop) (rel : Ghost → State → State → Prop)
    (outputIff : ∀ ghost left right input, rel ghost left right → fair ghost input →
      ((step left input).2 = (step right input).2 ↔ ok ghost input))
    (stepRel : ∀ ghost left right input, rel ghost left right → fair ghost input →
      ok ghost input → rel (next ghost input).1 (step left input).1 (step right input).1)
    (ghost : Ghost) (left right : State) (inputs : List Input) (related : rel ghost left right)
    (fairRun : Meets next fair ghost inputs) :
    trace step left inputs = trace step right inputs ↔ Meets next ok ghost inputs := by
  induction inputs generalizing ghost left right with
  | nil => simp [trace, Meets]
  | cons input rest ih =>
      rw [trace, trace, List.cons.injEq, Meets, outputIff ghost left right input related fairRun.1]
      exact and_congr_right fun allowed =>
        ih _ _ _ (stepRel ghost left right input related fairRun.1 allowed) fairRun.2

end Unwinding

/-! Adaptive runs: each input is chosen from the outputs seen so far. -/

section Adaptive

variable (step : State → Input → State × Output) (strategy : List Output → Input)

/-- The inputs that `strategy` ends up choosing in a run of `rounds` steps. -/
def play : Nat → State → List Output → List Input
  | 0, _, _ => []
  | rounds + 1, state, seen =>
      let outcome := step state (strategy seen)
      strategy seen :: play rounds outcome.1 (seen ++ [outcome.2])

def observed (rounds : Nat) (state : State) : List Output :=
  trace step state (play step strategy rounds state [])

theorem play_congr (rounds : Nat) (left right : State) (seen : List Output)
    (same : trace step left (play step strategy rounds left seen) =
      trace step right (play step strategy rounds left seen)) :
    play step strategy rounds left seen = play step strategy rounds right seen := by
  induction rounds generalizing left right seen with
  | zero => rfl
  | succ rounds ih =>
      simp only [play, trace, List.cons.injEq] at same
      simp only [play, List.cons.injEq, true_and]
      rw [← same.1]
      exact ih _ _ _ same.2

theorem play_eq_of_trace (rounds : Nat) (left right : State) (seen : List Output)
    (same : trace step left (play step strategy rounds left seen) =
      trace step right (play step strategy rounds right seen)) :
    play step strategy rounds left seen = play step strategy rounds right seen := by
  induction rounds generalizing left right seen with
  | zero => rfl
  | succ rounds ih =>
      simp only [play, trace, List.cons.injEq] at same
      simp only [play, List.cons.injEq, true_and]
      obtain ⟨output, tail⟩ := same
      rw [← output] at tail ⊢
      exact ih _ _ _ tail

/-- An adaptive observer tells two states apart exactly when the inputs it chooses
from the first one do. -/
theorem observed_eq_iff (rounds : Nat) (left right : State) :
    observed step strategy rounds left = observed step strategy rounds right ↔
      trace step left (play step strategy rounds left []) =
        trace step right (play step strategy rounds left []) := by
  constructor
  · intro same
    have inputs := play_eq_of_trace step strategy rounds left right [] same
    rw [observed, observed, ← inputs] at same
    exact same
  · intro same
    rw [observed, observed, ← play_congr step strategy rounds left right [] same]
    exact same

end Adaptive

end Rp2350Tee.Runs
