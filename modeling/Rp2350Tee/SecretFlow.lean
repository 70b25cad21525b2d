import Rp2350Tee.MemoryDiff
import Rp2350Tee.ProtectedBlock

/-!
What U-mode learns of the secret, as a comparison of two runs that start from
different secrets. The services add nothing to what `main` has left behind: the
two words of the mailbox it copies the secret to, and the trap frame and the
local of the self-test, which hold whatever compiled code had in its registers.
U-mode tells the secrets apart exactly when one of its loads reaches such a copy.
-/

namespace Rp2350Tee.SecretFlow

open ByteMemory PmpUnit PmpProgram PmpSetup TrapHandler PmpDrop TrapStack UserView ProtectedBlock
open MemoryDiff Runs

variable (layout : Layout) (platform : Platform)

def CopyPlace (address : Word) : Prop :=
  Within (layout.mailbox mbXh3Before) 4 address ∨ Within (layout.mailbox mbXh3After) 4 address ∨
    Within layout.mainT 4 address ∨ Within (trapFrame layout) 64 address

theorem prot_not_place (address : Word) (inside : Within layout.gProt 64 address) :
    ¬ CopyPlace layout address := by
  rintro (before | after | testLocal | frame)
  · exact prot_not_mb layout address inside (mailbox_word layout _ (by decide) address before)
  · exact prot_not_mb layout address inside (mailbox_word layout _ (by decide) address after)
  · exact prot_not_test layout address inside testLocal
  · exact prot_not_stack layout address inside (frame_in_stack layout address frame)

theorem stage_not_place (address : Word) (inside : Within layout.gStage 4 address) :
    ¬ CopyPlace layout address := by
  rintro (before | after | testLocal | frame)
  · exact mb_not_stage layout address (mailbox_word layout _ (by decide) address before) inside
  · exact mb_not_stage layout address (mailbox_word layout _ (by decide) address after) inside
  · exact stage_not_test layout address inside testLocal
  · exact stage_not_stack layout address inside (frame_in_stack layout address frame)

theorem mailbox_words_apart (first second : Nat) (distinct : first ≠ second)
    (firstSmall : first < 16) (secondSmall : second < 16) (address : Word)
    (inside : Within (layout.mailbox first) 4 address) :
    ¬ Within (layout.mailbox second) 4 address := by
  rcases Nat.lt_or_gt_of_ne distinct with before | after
  · exact parts_apart layout.gMb address (4 * first) 4 (4 * second) 4 (by omega) (by omega) inside
  · exact fun other =>
      parts_apart layout.gMb address (4 * second) 4 (4 * first) 4 (by omega) (by omega) other inside

theorem mailbox_not_place (index : Nat) (small : index < 16) (notBefore : index ≠ mbXh3Before)
    (notAfter : index ≠ mbXh3After) (address : Word)
    (inside : Within (layout.mailbox index) 4 address) : ¬ CopyPlace layout address := by
  have word := mailbox_word layout index small address inside
  rintro (before | after | testLocal | frame)
  · exact mailbox_words_apart layout index _ notBefore small (by decide) address inside before
  · exact mailbox_words_apart layout index _ notAfter small (by decide) address inside after
  · exact mb_not_test layout address word testLocal
  · exact mb_not_stack layout address word (frame_in_stack layout address frame)

/-- The words that `main` fills from the secret outside the block, on an empty memory. -/
def leftover (stored : Word) : Memory 32 :=
  savedMemory layout (store32 (store32 (store32 (fun _ => 0) (layout.mailbox mbXh3Before) stored)
    (layout.mailbox mbXh3After) stored) layout.mainT (platform.selfTestStale stored))
    (platform.selfTestRegs stored)

/-- A byte that `main` fills differently for the two secrets. -/
def Copied (stored other : Word) (address : Word) : Prop :=
  leftover layout platform stored address ≠ leftover layout platform other address

def Secret (address : Word) : Prop := Within layout.secret 4 address

section TwoMemories

variable {copies : Word → Prop} {left right : Memory 32}

theorem stage_agrees (differ : DifferOn (Secret layout) copies left right)
    (places : ∀ address, copies address → CopyPlace layout address) :
    load32 left layout.gStage = load32 right layout.gStage :=
  differ.load32_eq layout.gStage
    (fun address inside hidden => prot_not_stage layout address (secret_in_prot layout address hidden) inside)
    (fun address inside copied => stage_not_place layout address inside (places address copied))

theorem counter_agrees (differ : DifferOn (Secret layout) copies left right)
    (places : ∀ address, copies address → CopyPlace layout address) :
    load32 left layout.counter = load32 right layout.counter :=
  differ.load32_eq layout.counter
    (fun address inside hidden => counter_not_secret layout address hidden inside)
    (fun address inside copied =>
      prot_not_place layout address (counter_in_prot layout address inside) (places address copied))

theorem key_agrees (differ : DifferOn (Secret layout) copies left right)
    (places : ∀ address, copies address → CopyPlace layout address) :
    keyBytes left layout.toPlacement = keyBytes right layout.toPlacement := by
  funext index
  refine (differ _ fun hidden => ?_).mpr fun copied => ?_
  · exact key_not_secret layout _ hidden (within_byteAt _ 16 _ index.isLt (by omega))
  · exact prot_not_place layout _ (key_in_prot layout index) (places _ copied)

theorem saved_differ (differ : DifferOn (Secret layout) copies left right) (regs : Regs) :
    DifferOn (Secret layout) (cleared copies (trapFrame layout) 64)
      (savedMemory layout left regs) (savedMemory layout right regs) := by
  have stored := differ.storeWords (trapFrame layout) (List.ofFn regs) (by simp)
  rwa [List.length_ofFn] at stored

theorem fault_differ (differ : DifferOn (Secret layout) copies left right)
    (places : ∀ address, copies address → CopyPlace layout address) (regs : Regs) (cause tval : Word) :
    (faultView layout left regs cause tval).halted = (faultView layout right regs cause tval).halted ∧
      DifferOn (Secret layout) (cleared copies (trapFrame layout) 64)
        (faultView layout left regs cause tval).mem (faultView layout right regs cause tval).mem := by
  have saved := saved_differ layout differ regs
  have mailbox (index : Nat) (small : index < 16) (notBefore : index ≠ mbXh3Before)
      (notAfter : index ≠ mbXh3After) (address : Word)
      (inside : Within (layout.mailbox index) 4 address) :
      ¬ cleared copies (trapFrame layout) 64 address := fun copied =>
    mailbox_not_place layout index small notBefore notAfter address inside (places address copied.1)
  have stage (address : Word) (inside : Within layout.gStage 4 address) :
      ¬ cleared copies (trapFrame layout) 64 address := fun copied =>
    stage_not_place layout address inside (places address copied.1)
  rw [faultView, faultView, stage_agrees layout differ places]
  split
  · exact ⟨rfl, (saved.store32_kept _ _ (by decide)
      (mailbox mbXh3Mcause (by decide) (by decide) (by decide))).store32_kept _ _ (by decide) stage⟩
  · exact ⟨rfl, ((saved.store32_kept _ _ (by decide)
      (mailbox mbMcause (by decide) (by decide) (by decide))).store32_kept _ _ (by decide)
      (mailbox mbMtval (by decide) (by decide) (by decide))).store32_kept _ _ (by decide)
      (mailbox mbStage (by decide) (by decide) (by decide))⟩

theorem signed_differ (differ : DifferOn (Secret layout) copies left right) (key : Fin 16 → Byte)
    (buf : Word) (count : Nat) :
    DifferOn (Secret layout) copies (signedMemory key buf count left)
      (signedMemory key buf count right) := by
  apply differ.map fun address byte => if Within buf count address then
    byte ^^^ key ⟨(address - buf).toNat % 16, Nat.mod_lt _ (by decide)⟩ else byte
  intro address first second same
  by_cases inside : Within buf count address
  · simpa [inside] using same
  · simpa [inside] using same

theorem served_differ (differ : DifferOn (Secret layout) copies left right)
    (places : ∀ address, copies address → CopyPlace layout address) (regs : Regs) :
    DifferOn (Secret layout) (cleared copies (trapFrame layout) 64)
      (servedMemory layout left regs) (servedMemory layout right regs) := by
  have saved := saved_differ layout differ regs
  rw [servedMemory, servedMemory, counter_agrees layout differ places, key_agrees layout differ places]
  split
  · exact saved.store32_kept _ _ (by decide) fun address inside copied =>
      prot_not_place layout address (counter_in_prot layout address inside) (places address copied.1)
  split
  · exact signed_differ layout saved _ _ _
  · exact saved

theorem call_differ (differ : DifferOn (Secret layout) copies left right)
    (places : ∀ address, copies address → CopyPlace layout address) (regs : Regs) :
    DifferOn (Secret layout) (cleared copies (trapFrame layout) 64)
      (callMemory layout left regs) (callMemory layout right regs) := by
  have result : callResult layout left regs = callResult layout right regs := by
    rw [callResult, callResult, counter_agrees layout differ places]
  rw [callMemory, callMemory, result]
  exact (served_differ layout differ places regs).store32_kept _ _ (by decide) fun address slot copied =>
    copied.2 (within_of_part (trapFrame layout) address 0 4 64 (by decide) slot)

theorem call_regs (differ : DifferOn (Secret layout) copies left right)
    (places : ∀ address, copies address → CopyPlace layout address) (regs : Regs) :
    loadFrame (callMemory layout left regs) (trapFrame layout) =
      loadFrame (callMemory layout right regs) (trapFrame layout) := by
  have called := call_differ layout differ places regs
  funext register
  have inFrame (address : Word) (inside : Within (frameSlot (trapFrame layout) register) 4 address) :
      Within (trapFrame layout) 64 address :=
    within_of_part (trapFrame layout) address (4 * register.val) 4 64 (by omega) inside
  exact called.load32_eq _
    (fun address inside hidden => prot_not_stack layout address (secret_in_prot layout address hidden)
      (frame_in_stack layout address (inFrame address inside)))
    (fun address inside copied => copied.2 (inFrame address inside))

/-- The copies that an operation of U-mode leaves: a store overwrites its bytes, a trap the
frame. -/
def copiesAfter (copies : Word → Prop) : UOp → Word → Prop
  | .load width address =>
      if userCan layout platform .read address width.bytes then copies
      else cleared copies (trapFrame layout) 64
  | .store width address _ =>
      if userCan layout platform .write address width.bytes then cleared copies address width.bytes
      else cleared copies (trapFrame layout) 64
  | _ => cleared copies (trapFrame layout) 64

/-- The operation is not a load that completes and reaches a copy. -/
def Unread (copies : Word → Prop) : UOp → Prop
  | .load width address => userCan layout platform .read address width.bytes = true →
      ∀ index < width.bytes, ¬ copies (byteAt address index)
  | _ => True

theorem copies_shrink (op : UOp) (address : Word)
    (copied : copiesAfter layout platform copies op address) : copies address := by
  cases op with
  | load width base =>
      rw [copiesAfter] at copied
      split at copied
      · exact copied
      · exact copied.1
  | store width base value =>
      rw [copiesAfter] at copied
      split at copied <;> exact copied.1
  | ecall => exact copied.1
  | exception cause => exact copied.1

/-- What an operation shows differs exactly when it reads a copy. -/
theorem op_output (differ : DifferOn (Secret layout) copies left right)
    (places : ∀ address, copies address → CopyPlace layout address) (regs : Regs) (op : UOp) :
    (viewOp layout platform left regs op).2 = (viewOp layout platform right regs op).2 ↔
      Unread layout platform copies op := by
  cases op with
  | load width address =>
      rw [viewOp, viewOp, Unread]
      split
      · rename_i granted
        have visible (index : Nat) (below : index < width.bytes) :
            ¬ Secret layout (byteAt address index) := fun hidden =>
          granted_outside layout platform .read address width.bytes _ granted
            (secret_in_prot layout _ hidden) ((within_iff_index _ _ _).mpr ⟨index, below, rfl⟩)
        rw [Observation.loaded.injEq, differ.loadBytes_iff address width.bytes visible]
        exact ⟨fun clean _ => clean, fun unread => unread granted⟩
      · rename_i refused
        simp [refused]
  | store width address value =>
      rw [viewOp, viewOp]
      split <;> exact ⟨fun _ => trivial, fun _ => rfl⟩
  | ecall =>
      rw [viewOp, viewOp, call_regs layout differ places regs]
      exact ⟨fun _ => trivial, fun _ => rfl⟩
  | exception cause => exact ⟨fun _ => trivial, fun _ => rfl⟩

theorem op_differ (differ : DifferOn (Secret layout) copies left right)
    (places : ∀ address, copies address → CopyPlace layout address) (regs : Regs) (op : UOp) :
    (viewOp layout platform left regs op).1.halted = (viewOp layout platform right regs op).1.halted ∧
      DifferOn (Secret layout) (copiesAfter layout platform copies op)
        (viewOp layout platform left regs op).1.mem (viewOp layout platform right regs op).1.mem := by
  cases op with
  | load width address =>
      rw [viewOp, viewOp, copiesAfter]
      split
      · exact ⟨(rfl : false = false), differ⟩
      · exact fault_differ layout differ places regs 5 _
  | store width address value =>
      rw [viewOp, viewOp, copiesAfter]
      split
      · have stored := differ.storeBytes address (storeValue width value)
          (by rw [storeValue_length]; cases width <;> decide)
        rw [storeValue_length] at stored
        exact ⟨(rfl : false = false), stored⟩
      · exact fault_differ layout differ places regs 7 _
  | ecall =>
      rw [viewOp, viewOp]
      exact ⟨(rfl : false = false), call_differ layout differ places regs⟩
  | exception cause =>
      rw [viewOp, viewOp]
      refine ⟨(rfl : true = true), (saved_differ layout differ regs).store32_kept _ _ (by decide) ?_⟩
      intro address inside copied
      exact mailbox_not_place layout mbStage (by decide) (by decide) (by decide) address inside
        (places address copied.1)

end TwoMemories

theorem init_agrees (stored other : Word) (key : Fin 16 → Byte) (machine : Machine) (address : Word)
    (visible : ¬ Secret layout address) :
    (mainInit layout stored key machine).mem address =
      (mainInit layout other key machine).mem address := by
  simp only [mainInit]
  apply storeBytes_congr _ _ _ _ _ (by simp)
  intro _
  apply storeBytes_congr _ _ _ _ _ (by decide)
  intro _
  rw [store32_outside _ _ _ _ visible, store32_outside _ _ _ _ visible]

theorem drop_elsewhere (stored other : Word) (left right : Memory 32) (address : Word)
    (same : left address = right address) (elsewhere : ¬ CopyPlace layout address) :
    dropMemory layout platform stored left address = dropMemory layout platform other right address := by
  simp only [CopyPlace, not_or] at elsewhere
  obtain ⟨notBefore, notAfter, notTest, notFrame⟩ := elsewhere
  simp only [dropMemory]
  apply storeBytes_congr _ _ _ _ _ (by decide)
  intro _
  apply storeBytes_congr _ _ _ _ _ (by decide)
  intro _
  rw [store32_outside _ _ _ _ notAfter, store32_outside _ _ _ _ notAfter,
    store32_outside _ _ _ _ notTest, store32_outside _ _ _ _ notTest]
  apply storeBytes_congr _ _ _ _ _ (by decide)
  intro _
  apply storeBytes_congr _ _ _ _ _ (by decide)
  intro _
  rw [saved_outside_frame layout _ _ _ notFrame, saved_outside_frame layout _ _ _ notFrame]
  apply storeBytes_congr _ _ _ _ _ (by decide)
  intro _
  rw [store32_outside _ _ _ _ notBefore, store32_outside _ _ _ _ notBefore, same]

theorem store_inside (left right : Memory 32) (base value address : Word)
    (inside : Within base 4 address) : store32 left base value address = store32 right base value address :=
  storeBytes_congr left right base address (wordBytes value) (by rw [wordBytes_length]; decide)
    fun outside => absurd inside outside

/-- What is stored to a byte of the mailbox after the fault of the self-test, away from the
words of the copies, and what is stored to the other objects, leaves that byte alone. -/
theorem drop_after_fault (stored : Word) (memory : Memory 32) (address : Word)
    (notCause : ¬ Within (layout.mailbox mbXh3Mcause) 4 address)
    (notStage : ¬ Within layout.gStage 4 address) (notTest : ¬ Within layout.mainT 4 address)
    (notAfter : ¬ Within (layout.mailbox mbXh3After) 4 address)
    (notMarker : ¬ Within (layout.mailbox mbStage) 4 address) :
    dropMemory layout platform stored memory address =
      savedMemory layout (testMemory layout stored memory) (platform.selfTestRegs stored) address := by
  simp only [dropMemory]
  rw [store32_outside _ _ _ _ notMarker, store32_outside _ _ _ _ notStage,
    store32_outside _ _ _ _ notAfter, store32_outside _ _ _ _ notTest,
    store32_outside _ _ _ _ notStage, store32_outside _ _ _ _ notCause]
  rfl

theorem drop_at_place (stored : Word) (memory : Memory 32) (address : Word)
    (place : CopyPlace layout address) :
    dropMemory layout platform stored memory address = leftover layout platform stored address := by
  have apart := mailbox_words_apart layout
  rcases place with before | after | tested | frame
  · have word := mailbox_word layout _ (by decide) address before
    have notFrame : ¬ Within (trapFrame layout) 64 address := fun frame =>
      mb_not_stack layout address word (frame_in_stack layout address frame)
    have notStage := mb_not_stage layout address word
    have notTest := mb_not_test layout address word
    have notAfter := apart mbXh3Before mbXh3After (by decide) (by decide) (by decide) address before
    rw [drop_after_fault layout platform stored memory address
      (apart mbXh3Before mbXh3Mcause (by decide) (by decide) (by decide) address before) notStage notTest
      notAfter (apart mbXh3Before mbStage (by decide) (by decide) (by decide) address before),
      saved_outside_frame layout _ _ _ notFrame, testMemory, store32_outside _ _ _ _ notStage,
      leftover, saved_outside_frame layout _ _ _ notFrame, store32_outside _ _ _ _ notTest,
      store32_outside _ _ _ _ notAfter]
    exact store_inside _ _ _ _ _ before
  · have word := mailbox_word layout _ (by decide) address after
    have notFrame : ¬ Within (trapFrame layout) 64 address := fun frame =>
      mb_not_stack layout address word (frame_in_stack layout address frame)
    simp only [dropMemory]
    rw [store32_outside _ _ _ _
      (apart mbXh3After mbStage (by decide) (by decide) (by decide) address after),
      store32_outside _ _ _ _ (mb_not_stage layout address word), leftover,
      saved_outside_frame layout _ _ _ notFrame, store32_outside _ _ _ _ (mb_not_test layout address word)]
    exact store_inside _ _ _ _ _ after
  · have notWord (index : Nat) (small : index < 16) :
        ¬ Within (layout.mailbox index) 4 address := fun word =>
      mb_not_test layout address (mailbox_word layout index small address word) tested
    have notStage : ¬ Within layout.gStage 4 address := fun stage =>
      stage_not_test layout address stage tested
    have notFrame : ¬ Within (trapFrame layout) 64 address := fun frame =>
      stack_not_test layout address (frame_in_stack layout address frame) tested
    simp only [dropMemory]
    rw [store32_outside _ _ _ _ (notWord mbStage (by decide)), store32_outside _ _ _ _ notStage,
      store32_outside _ _ _ _ (notWord mbXh3After (by decide)), leftover,
      saved_outside_frame layout _ _ _ notFrame]
    exact store_inside _ _ _ _ _ tested
  · have stack := frame_in_stack layout address frame
    have notWord (index : Nat) (small : index < 16) :
        ¬ Within (layout.mailbox index) 4 address := fun word =>
      mb_not_stack layout address (mailbox_word layout index small address word) stack
    rw [drop_after_fault layout platform stored memory address (notWord mbXh3Mcause (by decide))
      (fun stage => stage_not_stack layout address stage stack) (stack_not_test layout address stack)
      (notWord mbXh3After (by decide)) (notWord mbStage (by decide))]
    exact saved_in_frame layout _ _ _ _ frame

theorem leftover_elsewhere (stored : Word) (address : Word) (elsewhere : ¬ CopyPlace layout address) :
    leftover layout platform stored address = 0 := by
  simp only [CopyPlace, not_or] at elsewhere
  obtain ⟨notBefore, notAfter, notTest, notFrame⟩ := elsewhere
  rw [leftover, saved_outside_frame layout _ _ _ notFrame, store32_outside _ _ _ _ notTest,
    store32_outside _ _ _ _ notAfter, store32_outside _ _ _ _ notBefore]

theorem copied_place (stored other address : Word) (copied : Copied layout platform stored other address) :
    CopyPlace layout address := by
  by_contra elsewhere
  exact copied (by rw [leftover_elsewhere layout platform stored address elsewhere,
    leftover_elsewhere layout platform other address elsewhere])

theorem drop_differ (stored other : Word) (key : Fin 16 → Byte) (machine : Machine) :
    DifferOn (Secret layout) (Copied layout platform stored other)
      (main layout platform stored key machine).mem (main layout platform other key machine).mem := by
  intro address visible
  rw [(main_at_drop layout platform stored key machine).mem,
    (main_at_drop layout platform other key machine).mem]
  by_cases place : CopyPlace layout address
  · rw [drop_at_place layout platform stored _ address place,
      drop_at_place layout platform other _ address place, Copied, not_not]
  · have same := drop_elsewhere layout platform stored other _ _ address
      (init_agrees layout stored other key machine address visible) place
    exact ⟨fun _ copied => place (copied_place layout platform stored other address copied),
      fun _ => same⟩

/-- A machine with the set of the copies that are still there. -/
structure Tracked where
  machine : Machine
  copies : Word → Prop

def trackStep (tracked : Tracked) (step : UStep) : Tracked × Observation :=
  let outcome := userStep layout platform tracked.machine step
  (⟨outcome.1, if tracked.machine.halted then tracked.copies
    else copiesAfter layout platform tracked.copies step.op⟩, outcome.2)

/-- The step is not a load of a running machine that completes and reaches a copy. -/
def CopyUnread (tracked : Tracked) (step : UStep) : Prop :=
  tracked.machine.halted = false → Unread layout platform tracked.copies step.op

/-- The second machine differs from the tracked one on the copies alone. -/
structure Compared (tracked : Tracked) (left right : Machine) : Prop where
  same : tracked.machine = left
  leftReady : RunsReady layout left
  rightReady : RunsReady layout right
  halted : left.halted = right.halted
  differ : DifferOn (Secret layout) tracked.copies left.mem right.mem
  places : ∀ address, tracked.copies address → CopyPlace layout address

variable (flat : ∀ access address, platform.responds access address = true)

include flat in
theorem compared_output (tracked : Tracked) (left right : Machine) (step : UStep)
    (compared : Compared layout tracked left right) :
    (userStep layout platform left step).2 = (userStep layout platform right step).2 ↔
      CopyUnread layout platform tracked step := by
  obtain ⟨rfl, leftReady, rightReady, halted, differ, places⟩ := compared
  cases running : tracked.machine.halted with
  | true =>
      have stopped : right.halted = true := halted.symm.trans running
      rw [userStep, if_pos running, userStep, if_pos stopped]
      exact ⟨fun _ still => absurd (running.symm.trans still) (by decide), fun _ => rfl⟩
  | false =>
      have still : right.halted = false := halted.symm.trans running
      have output := op_output layout platform differ places step.regs step.op
      rw [running_step layout platform _ step leftReady running (flat_quiet layout platform flat _ step),
        running_step layout platform _ step rightReady still (flat_quiet layout platform flat _ step)]
        at output
      rw [output]
      exact ⟨fun unread _ => unread, fun unread => unread running⟩

include flat in
theorem compared_step (tracked : Tracked) (left right : Machine) (step : UStep)
    (compared : Compared layout tracked left right) :
    Compared layout (trackStep layout platform tracked step).1
      (userStep layout platform left step).1 (userStep layout platform right step).1 := by
  obtain ⟨rfl, leftReady, rightReady, halted, differ, places⟩ := compared
  have leftAfter := user_step_ready layout platform tracked.machine step leftReady
  have rightAfter := user_step_ready layout platform right step rightReady
  cases running : tracked.machine.halted with
  | true =>
      have stopped : right.halted = true := halted.symm.trans running
      have leftStill : (userStep layout platform tracked.machine step).1 = tracked.machine := by
        rw [userStep, if_pos running]
      have rightStill : (userStep layout platform right step).1 = right := by
        rw [userStep, if_pos stopped]
      have kept : (trackStep layout platform tracked step).1.copies = tracked.copies := if_pos running
      exact ⟨rfl, leftAfter, rightAfter, by rw [leftStill, rightStill, halted],
        by rw [kept, leftStill, rightStill]; exact differ, by rw [kept]; exact places⟩
  | false =>
      have still : right.halted = false := halted.symm.trans running
      have outcome := op_differ layout platform differ places step.regs step.op
      rw [running_step layout platform _ step leftReady running (flat_quiet layout platform flat _ step),
        running_step layout platform _ step rightReady still (flat_quiet layout platform flat _ step)]
        at outcome
      have kept : (trackStep layout platform tracked step).1.copies =
          copiesAfter layout platform tracked.copies step.op := if_neg (Bool.eq_false_iff.mp running)
      refine ⟨rfl, leftAfter, rightAfter, outcome.1, by rw [kept]; exact outcome.2, ?_⟩
      rw [kept]
      exact fun address copied => places address (copies_shrink layout platform _ _ copied)

include flat in
/-- Two runs from different secrets look the same to U-mode if and only if no load of it
reaches a copy of the secret that `main` has left outside the block. -/
theorem secrets_indistinguishable_iff (stored other : Word) (key : Fin 16 → Byte) (machine : Machine)
    (steps : List UStep) :
    trace (userStep layout platform) (main layout platform stored key machine) steps =
        trace (userStep layout platform) (main layout platform other key machine) steps ↔
      Meets (trackStep layout platform) (CopyUnread layout platform)
        ⟨main layout platform stored key machine, Copied layout platform stored other⟩ steps := by
  apply unwinding_iff (userStep layout platform) (trackStep layout platform)
    (fun _ _ => True) (CopyUnread layout platform) (Compared layout)
    (fun tracked left right step compared _ => compared_output layout platform flat tracked left right
      step compared)
    (fun tracked left right step compared _ _ => compared_step layout platform flat tracked left right
      step compared) _ _ _ steps ?_ (meets_of_forall _ _ (fun _ _ => trivial) _ steps)
  exact ⟨rfl, drop_runs_ready layout platform stored key machine,
    drop_runs_ready layout platform other key machine,
    (main_at_drop layout platform stored key machine).running.trans
      (main_at_drop layout platform other key machine).running.symm,
    drop_differ layout platform stored other key machine, copied_place layout platform stored other⟩

def readAfter : UStep where
  regs _ := 0
  sp := 0x20080000
  pc := 0x20001300
  op := .load .word 0x2000004C

def readMagic : UStep where
  regs _ := 0
  sp := 0x20080000
  pc := 0x20001300
  op := .load .word 0x20000040

theorem magic_read_indistinguishable_iff :
    trace (userStep sampleLayout flatBoard)
        (main sampleLayout flatBoard secretValue keyValue resetMachine) [readMagic] =
      trace (userStep sampleLayout flatBoard)
        (main sampleLayout flatBoard 0 keyValue resetMachine) [readMagic] ↔
      Meets (trackStep sampleLayout flatBoard) (CopyUnread sampleLayout flatBoard)
        ⟨main sampleLayout flatBoard secretValue keyValue resetMachine,
          Copied sampleLayout flatBoard secretValue 0⟩ [readMagic] :=
  secrets_indistinguishable_iff sampleLayout flatBoard (fun _ _ => rfl) secretValue 0 keyValue
    resetMachine [readMagic]

theorem secret_published (stored : Word) (key : Fin 16 → Byte) (machine : Machine) :
    load32 (main layout platform stored key machine).mem (layout.mailbox mbXh3After) = stored := by
  rw [(main_at_drop layout platform stored key machine).mem]
  have kept (memory : Memory 32) : load32 (store32 (store32 memory layout.gStage stageU)
      (layout.mailbox mbStage) 0x00000A11) (layout.mailbox mbXh3After) =
      load32 memory (layout.mailbox mbXh3After) := by
    apply load32_congr
    intro address inside
    rw [store32_outside _ _ _ _ (mailbox_words_apart layout mbXh3After mbStage (by decide) (by decide)
      (by decide) address inside), store32_outside _ _ _ _ (mb_not_stage layout address
      (mailbox_word layout mbXh3After (by decide) address inside))]
  rw [dropMemory, kept, load32_store32 _ _ _ (by decide)]

theorem load32_of_loadBytes (left right : Memory 32) (base : Word)
    (same : loadBytes left base 4 = loadBytes right base 4) : load32 left base = load32 right base := by
  apply load32_congr
  intro address inside
  obtain ⟨index, below, rfl⟩ := (within_iff_index _ _ _).mp inside
  exact (loadBytes_eq_iff base 4).mp same index below

/-- One load of the mailbox tells two secrets apart. -/
theorem mailbox_read_reveals_secret :
    trace (userStep sampleLayout flatBoard)
        (main sampleLayout flatBoard secretValue keyValue resetMachine) [readAfter] ≠
      trace (userStep sampleLayout flatBoard)
        (main sampleLayout flatBoard 0 keyValue resetMachine) [readAfter] := by
  have granted : userCan sampleLayout flatBoard .read 0x2000004C 4 = true := by decide
  have first := secret_published sampleLayout flatBoard secretValue keyValue resetMachine
  have second := secret_published sampleLayout flatBoard 0 keyValue resetMachine
  have loaded (stored : Word) : (userStep sampleLayout flatBoard
      (main sampleLayout flatBoard stored keyValue resetMachine) readAfter).2 =
      .loaded (loadBytes (main sampleLayout flatBoard stored keyValue resetMachine).mem
        (sampleLayout.mailbox mbXh3After) 4) := by
    have simulated := running_step sampleLayout flatBoard
      (main sampleLayout flatBoard stored keyValue resetMachine) readAfter
      (drop_runs_ready sampleLayout flatBoard stored keyValue resetMachine)
      (main_at_drop sampleLayout flatBoard stored keyValue resetMachine).running
      (flat_quiet sampleLayout flatBoard (fun _ _ => rfl) _ readAfter)
    have read := load_granted sampleLayout flatBoard
      (main sampleLayout flatBoard stored keyValue resetMachine).mem readAfter.regs .word 0x2000004C
      granted
    exact (congrArg Prod.snd simulated).symm.trans (congrArg Prod.snd read)
  intro same
  simp only [trace, List.cons.injEq, and_true] at same
  rw [loaded secretValue, loaded 0, Observation.loaded.injEq] at same
  have words := load32_of_loadBytes _ _ _ same
  rw [first, second] at words
  exact absurd words (by decide)

end Rp2350Tee.SecretFlow
