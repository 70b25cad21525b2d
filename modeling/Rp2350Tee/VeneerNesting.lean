import Rp2350Tee.NestedUpdate
import Rp2350Tee.WorldIsolation

/-!
The veneers of minimal-tz under preemption. `tz_sau_config` does not set
`AIRCR.PRIS` and nothing masks Non-Secure exceptions, so a Non-Secure handler may
call the veneers again at any point of a call in progress, to any depth. A call
goes on one access at a time: the `++` on the volatile counter is a load and a
store, and the loops of `secure_sign` move a byte.

`tmp_in` and `tmp_out` are arrays on the Secure stack. Here they are kept with their
call and that stack is not written, which says what the code does for as long as the
stack holds the calls in progress: every call then has arrays of its own.
-/

namespace Rp2350Tee.VeneerNesting

open ByteMemory TzConfig SecureService WorldIsolation NestedUpdate Runs

inductive CounterStage where
  | entered
  | loaded (value : Word)
  | stored (value : Word)

inductive SignStage where
  | checks
  | copyIn (index : Nat)
  | transform (index : Nat)
  | copyOut (index : Nat)

structure SignCall where
  challenge : Word
  out : Word
  len : Word
  stage : SignStage
  /-- The call's own arrays on the Secure stack. -/
  tmpIn : Nat → Byte
  tmpOut : Nat → Byte

inductive Call where
  | counter (stage : CounterStage)
  | sign (call : SignCall)

structure Nest where
  mem : Memory 32
  /-- Innermost first. -/
  calls : List Call
  /-- What the completed calls of `secure_get_counter` have returned, latest first. -/
  completed : List Word
  faulted : Bool

/-- What happens next: Non-Secure code, in its thread or in a handler that preempts whatever is
in progress, calls a veneer or stores to memory, or the innermost call goes on. -/
inductive NestOp where
  | getCounter
  | sign (challenge out len : Word)
  | store (width : Width) (address value : Word)
  | resume

variable (image : SecureImage) (cmse : CmseCheck) (soc : Soc)

def counterResume (nest : Nest) (suspended : List Call) : CounterStage → Nest × Option NsResult
  | .entered =>
      let value := load32 nest.mem image.sCounter
      ({ nest with calls := .counter (.loaded value) :: suspended }, none)
  | .loaded value =>
      ({ nest with
        mem := store32 nest.mem image.sCounter (value + 1)
        calls := .counter (.stored (value + 1)) :: suspended }, none)
  | .stored value =>
      ({ nest with calls := suspended, completed := value :: nest.completed }, some (.counter value))

/-- One step of `secure_sign`: the call goes on or returns its code. -/
def signStep (memory : Memory 32) (call : SignCall) : Memory 32 × (SignCall ⊕ Int) :=
  match call.stage with
  | .checks =>
      if call.len = 0 ∨ call.len > secureSignMax then (memory, .inr (-1))
      else if cmse call.challenge call.len .read = false then (memory, .inr (-2))
      else if cmse call.out call.len .readWrite = false then (memory, .inr (-3))
      else (memory, .inl { call with stage := .copyIn 0 })
  | .copyIn index =>
      if index < call.len.toNat then
        let byte := memory (byteAt call.challenge index)
        (memory, .inl { call with
          stage := .copyIn (index + 1)
          tmpIn := Function.update call.tmpIn index byte })
      else (memory, .inl { call with stage := .transform 0 })
  | .transform index =>
      if index < call.len.toNat then
        let byte := call.tmpIn index ^^^ keyByte image memory index
        (memory, .inl { call with
          stage := .transform (index + 1)
          tmpOut := Function.update call.tmpOut index byte })
      else (memory, .inl { call with stage := .copyOut 0 })
  | .copyOut index =>
      if index < call.len.toNat then
        (Function.update memory (byteAt call.out index) (call.tmpOut index),
          .inl { call with stage := .copyOut (index + 1) })
      else (memory, .inr 0)

def signResume (nest : Nest) (suspended : List Call) (call : SignCall) : Nest × Option NsResult :=
  match signStep image cmse nest.mem call with
  | (memory, .inl next) => ({ nest with mem := memory, calls := .sign next :: suspended }, none)
  | (memory, .inr code) => ({ nest with mem := memory, calls := suspended }, some (.signed code))

def nestOp (nest : Nest) : NestOp → Nest × Option NsResult
  | .getCounter => ({ nest with calls := .counter .entered :: nest.calls }, none)
  | .sign challenge out len =>
      let call : SignCall := ⟨challenge, out, len, .checks, fun _ => 0, fun _ => 0⟩
      ({ nest with calls := .sign call :: nest.calls }, none)
  | .store width address value =>
      if nonSecureRange soc address width.bytes then
        ({ nest with mem := storeBytes nest.mem address (storeValue width value) }, some .stored)
      else ({ nest with mem := refusedAccess image nest.mem, faulted := true }, some .faulted)
  | .resume =>
      match nest.calls with
      | [] => (nest, none)
      | .counter stage :: suspended => counterResume image nest suspended stage
      | .sign call :: suspended => signResume image cmse nest suspended call

def nestStep (nest : Nest) (op : NestOp) : Nest × Option NsResult :=
  if nest.faulted then (nest, some .stopped) else nestOp image cmse soc nest op

def atRest (memory : Memory 32) : Nest := ⟨memory, [], [], false⟩

def Call.loadedValue : Call → Option Word
  | .counter (.loaded value) => some value
  | _ => none

def Call.storedValue : Call → Option Word
  | .counter (.stored value) => some value
  | _ => none

def Nest.ledger (nest : Nest) : Ledger 32 where
  counter := load32 nest.mem image.sCounter
  loaded := nest.calls.filterMap Call.loadedValue
  stored := nest.calls.filterMap Call.storedValue
  returned := nest.completed

def Call.act : Call → Act
  | .counter .entered => .load
  | .counter (.loaded _) => .store
  | .counter (.stored _) => .finish
  | .sign _ => .skip

def Nest.act (nest : Nest) : NestOp → Act
  | .resume => if nest.faulted then .skip else (nest.calls.head?.map Call.act).getD .skip
  | _ => .skip

/-- A counter store happens while no suspended call is between its load and its store, and
leaves fewer than `2 ^ 32` stores behind it. -/
def StoreApart (nest : Nest) (op : NestOp) : Prop :=
  nest.faulted = false → op = .resume →
    ∀ value suspended, nest.calls = .counter (.loaded value) :: suspended →
      suspended.filterMap Call.loadedValue = [] ∧
        (nest.calls.filterMap Call.storedValue).length + nest.completed.length + 1 < 2 ^ 32

/-- No completed calls have returned the same value, and at rest the counter has counted them. -/
structure UpdatesKept (memory : Memory 32) (nest : Nest) : Prop where
  distinct : nest.completed.Nodup
  counted : nest.calls = [] → load32 nest.mem image.sCounter =
    load32 memory image.sCounter + BitVec.ofNat 32 nest.completed.length

/-- The output range of a call that is past its checks has passed them. -/
def Call.Checked : Call → Prop
  | .counter _ => True
  | .sign call => call.stage = .checks ∨ cmse call.out call.len .readWrite = true

theorem counter_closed (hidden : Hidden image soc) (address : Word)
    (inside : Within image.sCounter 4 address) : soc.sau.attribution address ≠ .nonSecure :=
  hidden address (Or.inr (Or.inl inside))

theorem sign_step_spec (hidden : Hidden image soc) (sound : CmseSound soc cmse)
    (memory : Memory 32) (call : SignCall) (checked : Call.Checked cmse (.sign call)) :
    load32 (signStep image cmse memory call).1 image.sCounter = load32 memory image.sCounter ∧
      ∀ next, (signStep image cmse memory call).2 = .inl next → Call.Checked cmse (.sign next) := by
  have past (stage : call.stage ≠ .checks) : cmse call.out call.len .readWrite = true :=
    checked.resolve_left stage
  cases stage : call.stage with
  | checks =>
      simp only [signStep, stage]
      split
      · exact ⟨rfl, fun next same => by cases same⟩
      split
      · exact ⟨rfl, fun next same => by cases same⟩
      split
      · exact ⟨rfl, fun next same => by cases same⟩
      · rename_i writable
        refine ⟨rfl, fun next same => ?_⟩
        obtain rfl := Sum.inl.inj same
        exact Or.inr (Bool.eq_true_of_not_eq_false writable)
  | copyIn index =>
      simp only [signStep, stage]
      split <;>
      · refine ⟨rfl, fun next same => ?_⟩
        obtain rfl := Sum.inl.inj same
        exact Or.inr (past (by rw [stage]; exact SignStage.noConfusion))
  | transform index =>
      simp only [signStep, stage]
      split <;>
      · refine ⟨rfl, fun next same => ?_⟩
        obtain rfl := Sum.inl.inj same
        exact Or.inr (past (by rw [stage]; exact SignStage.noConfusion))
  | copyOut index =>
      have open_ := past (by rw [stage]; exact SignStage.noConfusion)
      simp only [signStep, stage]
      split
      · rename_i below
        refine ⟨load32_congr _ _ _ fun address inside => ?_, fun next same => ?_⟩
        · apply Function.update_of_ne
          rintro rfl
          exact counter_closed image soc hidden _ inside
            ((sound _ _ _ open_).2 _ ((within_iff_index _ _ _).mpr ⟨index, below, rfl⟩))
        · obtain rfl := Sum.inl.inj same
          exact Or.inr open_
      · exact ⟨rfl, fun next same => by cases same⟩

theorem act_of_head (nest : Nest) (running : nest.faulted = false) (call : Call)
    (suspended : List Call) (calls : nest.calls = call :: suspended) : nest.act .resume = call.act := by
  simp [Nest.act, running, calls]

theorem counter_resume_ledger (nest : Nest) (suspended : List Call) (stage : CounterStage)
    (calls : nest.calls = .counter stage :: suspended) :
    (counterResume image nest suspended stage).1.ledger image =
      (nest.ledger image).act (Call.counter stage).act := by
  rw [Nest.ledger.eq_1 image nest, calls]
  cases stage with
  | entered => rfl
  | loaded value =>
      exact congrArg (Ledger.mk · _ _ _) (load32_store32 nest.mem image.sCounter (value + 1) (by decide))
  | stored value => rfl

theorem resume_ledger (hidden : Hidden image soc) (sound : CmseSound soc cmse) (nest : Nest)
    (running : nest.faulted = false) (checked : ∀ call ∈ nest.calls, call.Checked cmse) :
    (nestOp image cmse soc nest .resume).1.ledger image =
        (nest.ledger image).act (nest.act .resume) ∧
      ∀ call ∈ (nestOp image cmse soc nest .resume).1.calls, call.Checked cmse := by
  cases calls : nest.calls with
  | nil =>
      have idle : nest.act .resume = .skip := by simp [Nest.act, running, calls]
      rw [nestOp, calls, idle]
      exact ⟨rfl, checked⟩
  | cons call suspended =>
      rw [nestOp, calls, act_of_head nest running call suspended calls]
      have head := checked call (by rw [calls]; exact List.mem_cons_self)
      have rest (other : Call) (member : other ∈ suspended) : other.Checked cmse :=
        checked other (by rw [calls]; exact List.mem_cons_of_mem _ member)
      cases call with
      | counter stage =>
          refine ⟨counter_resume_ledger image nest suspended stage calls, ?_⟩
          cases stage with
          | entered => exact List.forall_mem_cons.mpr ⟨trivial, rest⟩
          | loaded value => exact List.forall_mem_cons.mpr ⟨trivial, rest⟩
          | stored value => exact rest
      | sign call =>
          obtain ⟨kept, next⟩ := sign_step_spec image cmse soc hidden sound nest.mem call head
          simp only [signResume]
          generalize signStep image cmse nest.mem call = outcome at kept next
          obtain ⟨memory, goesOn | code⟩ := outcome
          · refine ⟨?_, List.forall_mem_cons.mpr ⟨next goesOn rfl, rest⟩⟩
            simp only [Nest.ledger, calls, Call.act, Ledger.act]
            exact congrArg (Ledger.mk · _ _ _) kept
          · refine ⟨?_, rest⟩
            simp only [Nest.ledger, calls, Call.act, Ledger.act]
            exact congrArg (Ledger.mk · _ _ _) kept

/-- Every step of the nest is a step of the ledger, and keeps the calls checked. -/
theorem nest_step_ledger (hidden : Hidden image soc) (sound : CmseSound soc cmse) (nest : Nest)
    (op : NestOp) (checked : ∀ call ∈ nest.calls, call.Checked cmse) :
    (nestStep image cmse soc nest op).1.ledger image = (nest.ledger image).act (nest.act op) ∧
      ∀ call ∈ (nestStep image cmse soc nest op).1.calls, call.Checked cmse := by
  cases running : nest.faulted with
  | true =>
      have still : nestStep image cmse soc nest op = (nest, some .stopped) := if_pos running
      have idle : nest.act op = .skip := by cases op <;> simp [Nest.act, running]
      rw [still, idle]
      exact ⟨rfl, checked⟩
  | false =>
      have step : nestStep image cmse soc nest op = nestOp image cmse soc nest op :=
        if_neg (Bool.eq_false_iff.mp running)
      rw [step]
      cases op with
      | getCounter =>
          refine ⟨rfl, fun call member => ?_⟩
          rcases List.mem_cons.mp member with rfl | before
          · trivial
          · exact checked call before
      | sign challenge out len =>
          refine ⟨rfl, fun call member => ?_⟩
          rcases List.mem_cons.mp member with rfl | before
          · exact Or.inl rfl
          · exact checked call before
      | store width address value =>
          simp only [nestOp]
          split
          · rename_i granted
            refine ⟨congrArg (Ledger.mk · _ _ _) (load32_congr _ _ _ fun target inside => ?_), checked⟩
            apply storeBytes_outside
            rw [storeValue_length]
            exact fun written => counter_closed image soc hidden target inside
              (range_open soc address _ target granted written)
          · refine ⟨congrArg (Ledger.mk · _ _ _) (load32_congr _ _ _ fun target inside => ?_), checked⟩
            exact refused_access_outside image nest.mem target (counter_not_result image target inside)
              (counter_not_sfsr image target inside)
      | resume =>
          exact resume_ledger image cmse soc hidden sound nest running checked

def Follows (memory : Memory 32) (nest : Nest) : Prop :=
  (∀ call ∈ nest.calls, call.Checked cmse) ∧
    ((nest.ledger image).stores < 2 ^ 32 →
      Behind (load32 memory image.sCounter) (nest.ledger image))

theorem store_apart_iff (nest : Nest) (op : NestOp) :
    StoreApart nest op ↔ Apart (nest.ledger image) (nest.act op) := by
  cases op with
  | getCounter => exact iff_of_true (fun _ resumed => by cases resumed) trivial
  | sign challenge out len => exact iff_of_true (fun _ resumed => by cases resumed) trivial
  | store width address value => exact iff_of_true (fun _ resumed => by cases resumed) trivial
  | resume =>
      cases running : nest.faulted with
      | true =>
          refine iff_of_true (fun contra => by rw [running] at contra; cases contra) ?_
          rw [Nest.act, running]
          trivial
      | false =>
          rw [StoreApart, running, Nest.ledger]
          cases calls : nest.calls with
          | nil =>
              refine iff_of_true (fun _ _ _ _ contra => by cases contra) ?_
              rw [Nest.act, running, calls]
              trivial
          | cons call suspended =>
              rw [act_of_head nest running call suspended calls]
              cases call with
              | sign call => exact iff_of_true (fun _ _ _ _ contra => by cases contra) trivial
              | counter stage =>
                  cases stage with
                  | entered => exact iff_of_true (fun _ _ _ _ contra => by cases contra) trivial
                  | stored value => exact iff_of_true (fun _ _ _ _ contra => by cases contra) trivial
                  | loaded value =>
                      constructor
                      · rintro apart _ _ ⟨⟩
                        exact apart rfl rfl value suspended rfl
                      · rintro apart _ _ _ _ ⟨⟩
                        exact apart value _ rfl

theorem at_rest_follows (memory : Memory 32) : Follows image cmse memory (atRest memory) := by
  refine ⟨fun call member => absurd member List.not_mem_nil, fun _ => ⟨?_, ?_, List.Pairwise.nil⟩⟩
  · exact Nat.le_of_eq (by simp [atRest, Nest.ledger, ahead, Ledger.stores])
  · exact fun value member => absurd member List.not_mem_nil

theorem step_follows (hidden : Hidden image soc) (sound : CmseSound soc cmse) (memory : Memory 32)
    (nest : Nest) (op : NestOp) (follows : Follows image cmse memory nest) :
    Follows image cmse memory (nestStep image cmse soc nest op).1 := by
  obtain ⟨ledger, checked⟩ := nest_step_ledger image cmse soc hidden sound nest op follows.1
  refine ⟨checked, fun few => ?_⟩
  rw [ledger] at few ⊢
  exact behind_act _ _ _ (follows.2 (Nat.lt_of_le_of_lt (act_stores _ _) few)) few

/-- The counter is up to date after a run exactly when every store of it was apart. -/
theorem run_up_to_date_iff (hidden : Hidden image soc) (sound : CmseSound soc cmse)
    (memory : Memory 32) (ops : List NestOp) :
    UpToDate (load32 memory image.sCounter)
        ((finish (nestStep image cmse soc) (atRest memory) ops).ledger image) ↔
      Meets (nestStep image cmse soc) StoreApart (atRest memory) ops := by
  have atStart : UpToDate (load32 memory image.sCounter) ((atRest memory).ledger image) :=
    ⟨Nat.two_pow_pos 32, by simp [atRest, Nest.ledger, ahead, Ledger.stores],
      fun value member => absurd member List.not_mem_nil⟩
  rw [holds_at_end_iff (nestStep image cmse soc)
    (fun nest => UpToDate (load32 memory image.sCounter) (nest.ledger image)) StoreApart
    (Follows image cmse memory) ?_ (step_follows image cmse soc hidden sound memory) _ ops
    (at_rest_follows image cmse memory), and_iff_right atStart]
  intro nest op follows
  rw [(nest_step_ledger image cmse soc hidden sound nest op follows.1).1, store_apart_iff image]
  exact up_to_date_act_iff _ _ _ follows.2

theorem run_counted (hidden : Hidden image soc) (sound : CmseSound soc cmse) (memory : Memory 32)
    (ops : List NestOp) (apart : Meets (nestStep image cmse soc) StoreApart (atRest memory) ops) :
    Counted (load32 memory image.sCounter)
      ((finish (nestStep image cmse soc) (atRest memory) ops).ledger image) := by
  let start := load32 memory image.sCounter
  have current := (run_up_to_date_iff image cmse soc hidden sound memory []).mpr trivial
  refine (invariant_run (nestStep image cmse soc) StoreApart
    (fun nest => Follows image cmse memory nest ∧ UpToDate start (nest.ledger image) ∧
      Counted start (nest.ledger image)) ?_ (atRest memory) ops
    ⟨at_rest_follows image cmse memory, current, ?_⟩ apart).2.2
  · rintro nest op ⟨follows, current, counted⟩ stepApart
    have ledger := (nest_step_ledger image cmse soc hidden sound nest op follows.1).1
    have actApart := (store_apart_iff image nest op).mp stepApart
    refine ⟨step_follows image cmse soc hidden sound memory nest op follows, ?_, ?_⟩
    · rw [ledger, up_to_date_act_iff _ _ _ follows.2]
      exact ⟨current, actApart⟩
    · rw [ledger]
      exact counted_act _ _ _ current actApart counted
  · exact ⟨fun value member => absurd member List.not_mem_nil, List.nodup_nil⟩

theorem idle_stores (nest : Nest) (idle : nest.calls = []) :
    (nest.ledger image).loaded = [] ∧ (nest.ledger image).stores = nest.completed.length := by
  rw [Nest.ledger, idle]
  exact ⟨rfl, Nat.zero_add _⟩

theorem idle_up_to_date_iff (memory : Memory 32) (nest : Nest) (idle : nest.calls = [])
    (few : nest.completed.length < 2 ^ 32) :
    UpToDate (load32 memory image.sCounter) (nest.ledger image) ↔
      load32 nest.mem image.sCounter =
        load32 memory image.sCounter + BitVec.ofNat 32 nest.completed.length := by
  obtain ⟨loaded, stores⟩ := idle_stores image nest idle
  have total := ahead_offset (load32 memory image.sCounter) nest.completed.length few
  constructor
  · intro current
    have counter := current.counter
    rw [stores, ← total] at counter
    exact ahead_injective _ _ _ counter
  · intro counter
    refine ⟨by rw [stores]; exact few, ?_, by rw [loaded]; simp⟩
    rw [stores, ← total, ← counter]
    rfl

/-- If every counter store is apart, then at any time the completed calls have returned
different values, and whenever no call is in progress the counter has counted them. In a run
that ends at rest, within `2 ^ 32` completed calls, that holds only then. -/
theorem counter_updates_kept_iff (hidden : Hidden image soc) (sound : CmseSound soc cmse)
    (memory : Memory 32) (ops : List NestOp) :
    let step := nestStep image cmse soc
    let final := finish step (atRest memory) ops
    (Meets step StoreApart (atRest memory) ops → UpdatesKept image memory final) ∧
      (final.calls = [] → final.completed.length < 2 ^ 32 →
        (UpdatesKept image memory final ↔ Meets step StoreApart (atRest memory) ops)) := by
  intro step final
  have current := run_up_to_date_iff image cmse soc hidden sound memory ops
  have kept (apart : Meets step StoreApart (atRest memory) ops) : UpdatesKept image memory final := by
    have counted := run_counted image cmse soc hidden sound memory ops apart
    refine ⟨(List.nodup_append.mp counted.distinct).2.1, fun idle => ?_⟩
    have few := (current.mpr apart).few
    rw [(idle_stores image final idle).2] at few
    exact (idle_up_to_date_iff image memory final idle few).mp (current.mpr apart)
  refine ⟨kept, fun idle few => ⟨fun holds => ?_, kept⟩⟩
  exact current.mp ((idle_up_to_date_iff image memory final idle few).mpr (holds.counted idle))

def handlerSession : List NestOp :=
  [.getCounter, .sign 0x20041000 0x20041008 1, .resume, .getCounter, .resume, .resume, .resume,
    .resume, .resume, .resume, .resume, .resume, .resume, .resume, .resume, .resume]

example : (finish (nestStep sampleImage (attributionCheck (tzSauConfig resetSoc)) (tzSauConfig resetSoc))
    (atRest blankMemory) handlerSession).calls = [] := rfl

theorem handler_session_kept_iff :
    let step := nestStep sampleImage (attributionCheck (tzSauConfig resetSoc)) (tzSauConfig resetSoc)
    let final := finish step (atRest blankMemory) handlerSession
    (Meets step StoreApart (atRest blankMemory) handlerSession →
        UpdatesKept sampleImage blankMemory final) ∧
      (final.calls = [] → final.completed.length < 2 ^ 32 →
        (UpdatesKept sampleImage blankMemory final ↔
          Meets step StoreApart (atRest blankMemory) handlerSession)) :=
  counter_updates_kept_iff sampleImage _ _ (configured_hidden sampleImage resetSoc reset_unused)
    (attribution_check_sound (tzSauConfig resetSoc)) blankMemory handlerSession

def reentry : List NestOp :=
  [.getCounter, .resume, .getCounter, .resume, .resume, .resume, .resume, .resume]

/-- Both calls return 1, and the counter has missed one of them. -/
theorem reentry_repeats_value :
    let step := nestStep sampleImage (attributionCheck (tzSauConfig resetSoc)) (tzSauConfig resetSoc)
    let final := finish step (atRest blankMemory) reentry
    final.calls = [] ∧ final.completed = [1, 1] ∧ load32 final.mem sampleImage.sCounter = 1 ∧
      ¬ UpdatesKept sampleImage blankMemory final := by
  intro step final
  have completed : final.completed = [1, 1] := by decide
  refine ⟨rfl, completed, by decide, fun kept => ?_⟩
  have distinct := kept.distinct
  rw [completed] at distinct
  exact absurd distinct (by decide)

end Rp2350Tee.VeneerNesting
