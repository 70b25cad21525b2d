import Rp2350Tee.MemoryDiff
import Rp2350Tee.ProtectedBlock
import Rp2350Tee.WorldIsolation

/-!
What the callers of the two signing services learn of the key. A request shows
its caller a known byte combined with one byte of the key for every byte it
signs, so two keys look the same in a run exactly when they agree on every
position that a request has used. What a run leaves open is the positions it
has not used.
-/

namespace Rp2350Tee.KeyFlow

open ByteMemory MemoryDiff Runs

abbrev Key := Fin 16 → Byte

section Positions

variable {State Input Output : Type*} (step : State → Input → State × Output)

/-- Every position of the key that the step uses has the same value in both keys. -/
def SameOnUsed (uses : State → Input → Fin 16 → Prop) (key other : Key) (state : State)
    (input : Input) : Prop :=
  ∀ position, uses state input position → key position = other position

theorem another_key_iff (uses : State → Input → Fin 16 → Prop) (key : Key) (state : State)
    (inputs : List Input) :
    (∃ other, other ≠ key ∧ Meets step (SameOnUsed uses key other) state inputs) ↔
      ∃ position, Meets step (fun state input => ¬ uses state input position) state inputs := by
  constructor
  · rintro ⟨other, differs, same⟩
    obtain ⟨position, here⟩ := Function.ne_iff.mp differs
    refine ⟨position, meets_mono step _ _ ?_ state inputs same⟩
    intro state input agrees used
    exact here (agrees position used).symm
  · rintro ⟨position, unused⟩
    have next (byte : Byte) : byte + 1 ≠ byte := by bv_omega
    refine ⟨Function.update key position (key position + 1), ?_, ?_⟩
    · exact Function.ne_iff.mpr ⟨position, by rw [Function.update_self]; exact next _⟩
    · refine meets_mono step _ _ (fun _ _ spared other used => ?_) state inputs unused
      have elsewhere : other ≠ position := fun same => spared (same ▸ used)
      rw [Function.update_of_ne elsewhere]

end Positions

/-! minimal-tz. -/

section TrustZone

open TzConfig SecureService WorldIsolation

variable (image : SecureImage) (cmse : CmseCheck) (soc : Soc)

def keyOf (memory : Memory 32) : Key := fun index => memory (byteAt image.sKey index.val)

def withKey (key : Key) (memory : Memory 32) : Memory 32 :=
  storeBytes memory image.sKey (List.ofFn key)

def nsVisible (address : Word) : Bool := soc.sau.attribution address == .nonSecure

/-- A step of the Non-Secure processor with its result and all of Non-Secure memory after it. -/
def nsViewStep (world : World) (op : NsOp) : World × (NsResult × (Word → Option Byte)) :=
  let outcome := nsStep image cmse soc world op
  (outcome.1, outcome.2, seen (nsVisible soc) outcome.1.mem)

/-- The call of `secure_sign` goes through and combines a byte with this byte of the key. -/
def NsUses (world : World) (op : NsOp) (position : Fin 16) : Prop :=
  world.faulted = false ∧ ∃ challenge out len, op = .sign challenge out len ∧
    SignAccepted cmse challenge out len ∧ ∃ index < len.toNat, index % 16 = position.val

/-- Where two keys show after a call: a byte of `out` at a position where they differ. -/
def NsShown (key other : Key) (op : NsOp) (address : Word) : Prop :=
  ∃ challenge out len, op = .sign challenge out len ∧ SignAccepted cmse challenge out len ∧
    Within out len.toNat address ∧
      key ⟨(address - out).toNat % 16, Nat.mod_lt _ (by decide)⟩ ≠
        other ⟨(address - out).toNat % 16, Nat.mod_lt _ (by decide)⟩

def Closed (address : Word) : Prop :=
  soc.sau.attribution address ≠ .nonSecure ∧ ¬ Within image.sCounter 4 address

theorem shown_by_sign (key other : Key) (op : NsOp)
    (notSign : ∀ challenge out len, op ≠ .sign challenge out len) (address : Word) :
    ¬ NsShown cmse key other op address := by
  rintro ⟨challenge, out, len, same, _⟩
  exact notSign challenge out len same

theorem shown_visible (sound : CmseSound soc cmse) (key other : Key) (op : NsOp) (address : Word)
    (shown : NsShown cmse key other op address) : nsVisible soc address = true := by
  obtain ⟨_, out, len, _, accepted, inside, _⟩ := shown
  rw [nsVisible, (sound _ _ _ accepted.2.2).2 address inside]
  rfl

theorem visible_open (address : Word) (visible : nsVisible soc address = true) :
    ¬ Closed image soc address := fun closed => closed.1 (by simpa [nsVisible] using visible)

theorem key_address (index : Fin 16) : Within image.sKey 16 (byteAt image.sKey index.val) :=
  within_byteAt _ 16 _ index.isLt (by omega)

theorem key_of_congr (left right : Memory 32)
    (same : ∀ address, Within image.sKey 16 address → left address = right address) :
    keyOf image left = keyOf image right :=
  funext fun index => same _ (key_address image index)

theorem key_of_with_key (key : Key) (memory : Memory 32) :
    keyOf image (withKey image key memory) = key := by
  funext index
  have stored := storeBytes_inside memory image.sKey (List.ofFn key) (by simp) index.val (by simp)
  rw [keyOf, withKey, stored, List.getElem_ofFn]

theorem op_key (hidden : Hidden image soc) (sound : CmseSound soc cmse) (memory : Memory 32)
    (op : NsOp) : keyOf image (nsOp image cmse soc memory op).1.mem = keyOf image memory := by
  apply key_of_congr
  intro address inside
  have guarded : Guarded image soc address :=
    ⟨hidden address (Or.inl inside), key_not_counter image address inside,
      key_not_temporary image address inside⟩
  exact op_guarded image cmse soc hidden sound memory op address guarded
    fun _ => ⟨key_not_result image address inside, data_not_sfsr image (image.sKey, 16)
      (by simp [SecurePlacement.data]) address inside⟩

theorem open_shared (address : Word) (opened : ¬ Closed image soc address) :
    Shared image soc address := by
  rw [Closed, not_and_or, not_not, not_not] at opened
  exact opened.imp_right Or.inr

section TwoMemories

variable {left right : Memory 32}

theorem ns_bytes_agree (differ : DifferOn (Closed image soc) (fun _ => False) left right)
    (base : Word) (count : Nat) (granted : nonSecureRange soc base count = true) (index : Nat)
    (below : index < count) : left (byteAt base index) = right (byteAt base index) :=
  (differ _ fun closed => closed.1 (range_open soc base count _ granted
    ((within_iff_index _ _ _).mpr ⟨index, below, rfl⟩))).mpr not_false

theorem ns_counter_agrees (differ : DifferOn (Closed image soc) (fun _ => False) left right) :
    load32 left image.sCounter = load32 right image.sCounter :=
  differ.load32_eq image.sCounter (fun _ inside closed => closed.2 inside) fun _ _ => not_false

theorem sign_differ (hidden : Hidden image soc) (sound : CmseSound soc cmse)
    (differ : DifferOn (Closed image soc) (fun _ => False) left right) (challenge out len : Word)
    (accepted : SignAccepted cmse challenge out len) :
    DifferOn (Closed image soc)
      (NsShown cmse (keyOf image left) (keyOf image right) (.sign challenge out len))
      (signMemory image challenge out len left) (signMemory image challenge out len right) := by
  intro address opened
  have notTemporary := shared_not_temporary image soc hidden address (open_shared image soc address opened)
  rw [sign_visible image cmse soc hidden sound accepted left address notTemporary,
    sign_visible image cmse soc hidden sound accepted right address notTemporary]
  by_cases inside : Within out len.toNat address
  · have read : left (byteAt challenge (address - out).toNat) =
        right (byteAt challenge (address - out).toNat) :=
      (differ _ fun closed => closed.1 ((sound _ _ _ accepted.2.1).2 _
        ((within_iff_index _ _ _).mpr ⟨_, inside, rfl⟩))).mpr not_false
    rw [if_pos inside, if_pos inside, read, BitVec.xor_right_inj]
    constructor
    · rintro same ⟨_, _, _, ⟨⟩, _, _, differs⟩
      exact differs same
    · intro notShown
      by_contra differs
      exact notShown ⟨challenge, out, len, rfl, accepted, inside, differs⟩
  · rw [if_neg inside, if_neg inside, differ address opened]
    refine iff_of_true not_false ?_
    rintro ⟨_, _, _, ⟨⟩, _, within, _⟩
    exact inside within

theorem ns_op_differ (hidden : Hidden image soc) (sound : CmseSound soc cmse)
    (differ : DifferOn (Closed image soc) (fun _ => False) left right) (op : NsOp) :
    (nsOp image cmse soc left op).2 = (nsOp image cmse soc right op).2 ∧
      (nsOp image cmse soc left op).1.faulted = (nsOp image cmse soc right op).1.faulted ∧
      DifferOn (Closed image soc) (NsShown cmse (keyOf image left) (keyOf image right) op)
        (nsOp image cmse soc left op).1.mem (nsOp image cmse soc right op).1.mem := by
  have faults : DifferOn (Closed image soc) (fun _ => False) (refusedAccess image left)
      (refusedAccess image right) := by
    intro address opened
    have outside := shared_not_result image soc hidden address (open_shared image soc address opened)
    exact iff_of_true (refused_access_congr image left right address outside
      ((differ address opened).mpr not_false)) not_false
  cases op with
  | load width base =>
      have quiet := shown_by_sign cmse (keyOf image left) (keyOf image right) (.load width base) (by simp)
      rw [nsOp, nsOp]
      split
      · rename_i granted
        have same := loadBytes_congr left right base width.bytes
          (ns_bytes_agree image soc differ base width.bytes granted)
        exact ⟨congrArg NsResult.loaded same, (rfl : false = false),
          differ.congr fun address => iff_of_false (quiet address) not_false⟩
      · exact ⟨rfl, (rfl : true = true),
          faults.congr fun address => iff_of_false (quiet address) not_false⟩
  | store width base value =>
      have quiet := shown_by_sign cmse (keyOf image left) (keyOf image right) (.store width base value) (by simp)
      rw [nsOp, nsOp]
      split
      · have stored := differ.storeBytes base (storeValue width value)
          (by rw [storeValue_length]; cases width <;> decide)
        exact ⟨rfl, (rfl : false = false),
          stored.congr fun address => iff_of_false (quiet address) And.left⟩
      · exact ⟨rfl, (rfl : true = true),
          faults.congr fun address => iff_of_false (quiet address) not_false⟩
  | getCounter =>
      have quiet := shown_by_sign cmse (keyOf image left) (keyOf image right) .getCounter (by simp)
      have value := ns_counter_agrees image soc differ
      have stored := differ.storeBytes image.sCounter (wordBytes (load32 right image.sCounter + 1))
        (by rw [wordBytes_length]; decide)
      rw [nsOp, nsOp]
      simp only [secureGetCounter, secretNextCounter, value]
      exact ⟨trivial, trivial,
        stored.congr fun address => iff_of_false (quiet address) And.left⟩
  | sign challenge out len =>
      rw [nsOp, nsOp]
      by_cases accepted : SignAccepted cmse challenge out len
      · rw [secure_sign_accepted image cmse challenge out len left accepted,
          secure_sign_accepted image cmse challenge out len right accepted]
        exact ⟨rfl, (rfl : false = false),
          sign_differ image cmse soc hidden sound differ challenge out len accepted⟩
      · obtain ⟨code, rejected⟩ := secure_sign_rejected image cmse challenge out len accepted
        rw [rejected left, rejected right]
        refine ⟨rfl, (rfl : false = false), differ.congr fun address => iff_of_false ?_ not_false⟩
        rintro ⟨_, _, _, ⟨⟩, through, _⟩
        exact accepted through

end TwoMemories

/-- A run and the same run from another key, as long as nothing has told them apart. -/
structure WorldsApart (key other : Key) (ghost left right : World) : Prop where
  same : ghost = left
  faulted : left.faulted = right.faulted
  differ : DifferOn (Closed image soc) (fun _ => False) left.mem right.mem
  leftKey : keyOf image left.mem = key
  rightKey : keyOf image right.mem = other

/-- A byte shows where the keys differ exactly when the call uses a position where they do. -/
theorem shown_iff_uses (sound : CmseSound soc cmse) (key other : Key)
    (world : World) (running : world.faulted = false) (op : NsOp) :
    (∀ address, nsVisible soc address = true → ¬ NsShown cmse key other op address) ↔
      SameOnUsed (NsUses cmse) key other world op := by
  constructor
  · rintro clean position ⟨_, challenge, out, len, rfl, accepted, index, below, used⟩
    by_contra differs
    have inside : Within out len.toNat (byteAt out index) :=
      (within_iff_index _ _ _).mpr ⟨index, below, rfl⟩
    have here : (⟨(byteAt out index - out).toNat % 16, Nat.mod_lt _ (by decide)⟩ : Fin 16) = position :=
      Fin.ext (by rw [offset_byteAt out index (by omega)]; exact used)
    have shown : NsShown cmse key other (.sign challenge out len) (byteAt out index) :=
      ⟨challenge, out, len, rfl, accepted, inside, by rw [here]; exact differs⟩
    exact clean _ (shown_visible cmse soc sound key other _ _ shown) shown
  · rintro same address _ ⟨challenge, out, len, rfl, accepted, inside, differs⟩
    exact differs (same _ ⟨running, challenge, out, len, rfl, accepted, _, inside, rfl⟩)

section Pair

variable {key other : Key} {ghost left right : World}

theorem worlds_output (hidden : Hidden image soc) (sound : CmseSound soc cmse) (op : NsOp)
    (apart : WorldsApart image soc key other ghost left right) :
    (nsViewStep image cmse soc left op).2 = (nsViewStep image cmse soc right op).2 ↔
      SameOnUsed (NsUses cmse) key other ghost op := by
  obtain ⟨rfl, faulted, differ, rfl, rfl⟩ := apart
  cases running : ghost.faulted with
  | true =>
      have stopped : right.faulted = true := faulted.symm.trans running
      rw [nsViewStep, nsViewStep, nsStep, nsStep, if_pos running, if_pos stopped]
      refine iff_of_true (congrArg (Prod.mk _) ?_) fun position used =>
        absurd (running.symm.trans used.1) (by decide)
      exact (differ.seen_iff _ (visible_open image soc)).mpr fun _ _ => not_false
  | false =>
      have still : right.faulted = false := faulted.symm.trans running
      obtain ⟨result, _, shown⟩ := ns_op_differ image cmse soc hidden sound differ op
      rw [nsViewStep, nsViewStep, nsStep, nsStep, if_neg (Bool.eq_false_iff.mp running),
        if_neg (Bool.eq_false_iff.mp still), result, Prod.mk.injEq,
        shown.seen_iff _ (visible_open image soc),
        shown_iff_uses cmse soc sound _ _ ghost running op]
      exact and_iff_right rfl

theorem worlds_step (hidden : Hidden image soc) (sound : CmseSound soc cmse) (op : NsOp)
    (apart : WorldsApart image soc key other ghost left right)
    (same : SameOnUsed (NsUses cmse) key other ghost op) :
    WorldsApart image soc key other (nsViewStep image cmse soc ghost op).1
      (nsViewStep image cmse soc left op).1 (nsViewStep image cmse soc right op).1 := by
  obtain ⟨rfl, faulted, differ, rfl, rfl⟩ := apart
  cases running : ghost.faulted with
  | true =>
      have stopped : right.faulted = true := faulted.symm.trans running
      rw [nsViewStep, nsViewStep, nsStep, nsStep, if_pos running, if_pos stopped]
      exact ⟨rfl, faulted, differ, rfl, rfl⟩
  | false =>
      have still : right.faulted = false := faulted.symm.trans running
      obtain ⟨_, faults, shown⟩ := ns_op_differ image cmse soc hidden sound differ op
      have clean := (shown_iff_uses cmse soc sound _ _ ghost running op).mpr same
      rw [nsViewStep, nsViewStep, nsStep, nsStep, if_neg (Bool.eq_false_iff.mp running),
        if_neg (Bool.eq_false_iff.mp still)]
      refine ⟨rfl, faults, shown.congr fun address => iff_of_false not_false fun written => ?_,
        op_key image cmse soc hidden sound _ op, op_key image cmse soc hidden sound _ op⟩
      exact clean address (shown_visible cmse soc sound _ _ op address written) written

end Pair

theorem with_key_apart (hidden : Hidden image soc) (memory : Memory 32) (other : Key) :
    WorldsApart image soc (keyOf image memory) other ⟨memory, false⟩ ⟨memory, false⟩
      ⟨withKey image other memory, false⟩ := by
  refine ⟨rfl, (rfl : false = false), fun address opened => iff_of_true ?_ not_false, rfl,
    key_of_with_key image other memory⟩
  have outside : ¬ Within image.sKey (List.ofFn other).length address := by
    rw [List.length_ofFn]
    intro inside
    exact opened ⟨hidden address (Or.inl inside), key_not_counter image address inside⟩
  exact (storeBytes_outside memory image.sKey address (List.ofFn other) outside).symm

/-- An adaptive Non-Secure program sees the same from another key exactly when its calls
leave a position of the key unused. -/
theorem ns_key_open_iff (hidden : Hidden image soc) (sound : CmseSound soc cmse)
    (memory : Memory 32) (strategy : List (NsResult × (Word → Option Byte)) → NsOp) (rounds : Nat) :
    (∃ other, other ≠ keyOf image memory ∧
        observed (nsViewStep image cmse soc) strategy rounds ⟨withKey image other memory, false⟩ =
          observed (nsViewStep image cmse soc) strategy rounds ⟨memory, false⟩) ↔
      ∃ position, Meets (nsViewStep image cmse soc) (fun world op => ¬ NsUses cmse world op position)
        ⟨memory, false⟩ (play (nsViewStep image cmse soc) strategy rounds ⟨memory, false⟩ []) := by
  rw [← another_key_iff (nsViewStep image cmse soc) (NsUses cmse) (keyOf image memory)]
  refine exists_congr fun other => and_congr_right fun _ => ?_
  rw [eq_comm, observed_eq_iff]
  exact unwinding_iff _ (nsViewStep image cmse soc) (fun _ _ => True) _
    (WorldsApart image soc (keyOf image memory) other)
    (fun _ _ _ op apart _ => worlds_output image cmse soc hidden sound op apart)
    (fun _ _ _ op apart _ same => worlds_step image cmse soc hidden sound op apart same)
    _ _ _ _ (with_key_apart image soc hidden memory other)
    (meets_of_forall _ _ (fun _ _ => trivial) _ _)

/-- Every signing request that goes through in this step is for less than 16 bytes. -/
def ShortRequest (world : World) (op : NsOp) : Prop :=
  world.faulted = false → ∀ challenge out len, op = .sign challenge out len →
    SignAccepted cmse challenge out len → len.toNat < 16

/-- `secure_sign` begins with the first position every time, so the last one stays unused exactly
as long as no request reaches it. -/
theorem position_unused_iff_short (start : World) (ops : List NsOp) :
    (∃ position, Meets (nsViewStep image cmse soc)
        (fun world op => ¬ NsUses cmse world op position) start ops) ↔
      Meets (nsViewStep image cmse soc) (ShortRequest cmse) start ops := by
  constructor
  · rintro ⟨position, unused⟩
    refine meets_mono _ _ _ ?_ start ops unused
    rintro world op spared running challenge out len rfl accepted
    by_contra long
    exact spared ⟨running, challenge, out, len, rfl, accepted, position.val, by omega,
      Nat.mod_eq_of_lt position.isLt⟩
  · intro short
    refine ⟨15, meets_mono _ _ _ ?_ start ops short⟩
    rintro world op below ⟨running, challenge, out, len, rfl, accepted, index, inside, last⟩
    have few := below running challenge out len rfl accepted
    have position : index % 16 = 15 := last
    omega

end TrustZone

/-! minimal-pmp. -/

section Pmp

open PmpUnit PmpProgram PmpSetup TrapHandler PmpDrop TrapStack UserView ProtectedBlock

variable (layout : Layout) (platform : Platform)

def userVisible (address : Word) : Bool := userCan layout platform .read address 1

def userViewStep (machine : Machine) (step : UStep) : Machine × (Observation × (Word → Option Byte)) :=
  let outcome := userStep layout platform machine step
  (outcome.1, outcome.2, seen (userVisible layout platform) outcome.1.mem)

/-- The call of `SVC_SIGN` goes through and leaves at `address` a byte combined with this byte
of the key. A result in the slot of `a0` is overwritten by the return value. -/
def Signs (regs : Regs) (op : UOp) (address : Word) (position : Fin 16) : Prop :=
  op = .ecall ∧ regs a7 = svcSignNumber ∧ Accepted layout (regs a0) (regs a1) ∧
    Within (regs a0) (regs a1).toNat address ∧
    ¬ Within (frameSlot (trapFrame layout) a0) 4 address ∧
    (address - regs a0).toNat % 16 = position.val

def UserUses (machine : Machine) (step : UStep) (position : Fin 16) : Prop :=
  machine.halted = false ∧ ∃ address, Signs layout step.regs step.op address position

def UserShown (key other : Key) (regs : Regs) (op : UOp) (address : Word) : Prop :=
  ∃ position, Signs layout regs op address position ∧ key position ≠ other position

def KeyAt (address : Word) : Prop := Within layout.key 16 address

theorem key_at_prot (address : Word) (inside : KeyAt layout address) :
    Within layout.gProt 64 address :=
  within_of_part layout.gProt address 8 16 64 (by decide) inside

theorem counter_not_key (address : Word) (inside : Within layout.counter 4 address) :
    ¬ KeyAt layout address :=
  parts_apart layout.gProt address 4 4 8 16 (by decide) (by decide) inside

theorem user_shown_by_call (key other : Key) (regs : Regs) (op : UOp) (notCall : op ≠ .ecall)
    (address : Word) : ¬ UserShown layout key other regs op address := by
  rintro ⟨_, signs, _⟩
  exact notCall signs.1

section TwoMemories

variable {left right : Memory 32}

theorem stage_same (differ : DifferOn (KeyAt layout) (fun _ => False) left right) :
    load32 left layout.gStage = load32 right layout.gStage :=
  differ.load32_eq layout.gStage
    (fun address inside key => prot_not_stage layout address (key_at_prot layout address key) inside)
    fun _ _ => not_false

theorem counter_same (differ : DifferOn (KeyAt layout) (fun _ => False) left right) :
    load32 left layout.counter = load32 right layout.counter :=
  differ.load32_eq layout.counter (counter_not_key layout) fun _ _ => not_false

theorem saved_same (differ : DifferOn (KeyAt layout) (fun _ => False) left right) (regs : Regs) :
    DifferOn (KeyAt layout) (fun _ => False) (savedMemory layout left regs)
      (savedMemory layout right regs) := by
  have stored := differ.storeWords (trapFrame layout) (List.ofFn regs) (by simp)
  rwa [cleared_false] at stored

theorem store_same (differ : DifferOn (KeyAt layout) (fun _ => False) left right) (base value : Word) :
    DifferOn (KeyAt layout) (fun _ => False) (store32 left base value) (store32 right base value) :=
  differ.store32_kept base value (by decide) fun _ _ => not_false

theorem fault_same (differ : DifferOn (KeyAt layout) (fun _ => False) left right) (regs : Regs)
    (cause tval : Word) :
    (faultView layout left regs cause tval).halted = (faultView layout right regs cause tval).halted ∧
      DifferOn (KeyAt layout) (fun _ => False) (faultView layout left regs cause tval).mem
        (faultView layout right regs cause tval).mem := by
  have saved := saved_same layout differ regs
  rw [faultView, faultView, stage_same layout differ]
  split
  · exact ⟨rfl, store_same layout (store_same layout saved _ _) _ _⟩
  · exact ⟨rfl, store_same layout (store_same layout (store_same layout saved _ _) _ _) _ _⟩

theorem signed_differ (differ : DifferOn (KeyAt layout) (fun _ => False) left right)
    (key other : Key) (buf : Word) (count : Nat) :
    DifferOn (KeyAt layout) (fun address => Within buf count address ∧
        key ⟨(address - buf).toNat % 16, Nat.mod_lt _ (by decide)⟩ ≠
          other ⟨(address - buf).toNat % 16, Nat.mod_lt _ (by decide)⟩)
      (signedMemory key buf count left) (signedMemory other buf count right) := by
  intro address opened
  rw [signedMemory, signedMemory, (differ address opened).mpr not_false]
  by_cases inside : Within buf count address
  · rw [if_pos inside, if_pos inside, BitVec.xor_right_inj]
    tauto
  · rw [if_neg inside, if_neg inside]
    exact iff_of_true rfl fun shown => inside shown.1

theorem call_differ (differ : DifferOn (KeyAt layout) (fun _ => False) left right) (regs : Regs) :
    DifferOn (KeyAt layout)
      (UserShown layout (keyBytes left layout.toPlacement) (keyBytes right layout.toPlacement) regs .ecall)
      (callMemory layout left regs) (callMemory layout right regs) := by
  have saved := saved_same layout differ regs
  have result : callResult layout left regs = callResult layout right regs := by
    rw [callResult, callResult, counter_same layout differ]
  rw [callMemory, callMemory, result, servedMemory, servedMemory, counter_same layout differ]
  by_cases counter : regs a7 = svcGetCounter
  · rw [if_pos counter, if_pos counter]
    refine (store_same layout (store_same layout saved _ _) _ _).congr fun address =>
      iff_of_false ?_ not_false
    rintro ⟨_, signs, _⟩
    exact absurd (counter.symm.trans signs.2.1) (by decide)
  by_cases signed : regs a7 = svcSignNumber ∧ Accepted layout (regs a0) (regs a1)
  · rw [if_neg counter, if_neg counter, if_pos signed, if_pos signed]
    have stored := (signed_differ layout saved (keyBytes left layout.toPlacement)
      (keyBytes right layout.toPlacement) (regs a0) (regs a1).toNat).storeBytes
      (frameSlot (trapFrame layout) a0) (wordBytes (callResult layout right regs))
      (by rw [wordBytes_length]; decide)
    refine stored.congr fun address => ?_
    constructor
    · rintro ⟨position, ⟨_, _, _, inside, notSlot, used⟩, differs⟩
      obtain rfl : ⟨(address - regs a0).toNat % 16, Nat.mod_lt _ (by decide)⟩ = position := Fin.ext used
      exact ⟨⟨inside, differs⟩, notSlot⟩
    · rintro ⟨⟨inside, differs⟩, notSlot⟩
      exact ⟨_, ⟨rfl, signed.1, signed.2, inside, notSlot, rfl⟩, differs⟩
  · rw [if_neg counter, if_neg counter, if_neg signed, if_neg signed]
    refine (store_same layout saved _ _).congr fun address => iff_of_false ?_ not_false
    rintro ⟨_, signs, _⟩
    exact signed ⟨signs.2.1, signs.2.2.1⟩

theorem user_op_differ (differ : DifferOn (KeyAt layout) (fun _ => False) left right) (regs : Regs)
    (op : UOp) :
    (viewOp layout platform left regs op).1.halted = (viewOp layout platform right regs op).1.halted ∧
      DifferOn (KeyAt layout)
        (UserShown layout (keyBytes left layout.toPlacement) (keyBytes right layout.toPlacement) regs op)
        (viewOp layout platform left regs op).1.mem (viewOp layout platform right regs op).1.mem := by
  have quiet (notCall : op ≠ .ecall) (address : Word) := user_shown_by_call layout
    (keyBytes left layout.toPlacement) (keyBytes right layout.toPlacement) regs op notCall address
  cases op with
  | load width address =>
      rw [viewOp, viewOp]
      split
      · exact ⟨(rfl : false = false),
          differ.congr fun address => iff_of_false (quiet (by simp) address) not_false⟩
      · obtain ⟨halted, faulted⟩ := fault_same layout differ regs 5 (platform.mtvalOf address)
        exact ⟨halted, faulted.congr fun address => iff_of_false (quiet (by simp) address) not_false⟩
  | store width address value =>
      rw [viewOp, viewOp]
      split
      · have stored := differ.storeBytes address (storeValue width value)
          (by rw [storeValue_length]; cases width <;> decide)
        exact ⟨(rfl : false = false),
          stored.congr fun address => iff_of_false (quiet (by simp) address) And.left⟩
      · obtain ⟨halted, faulted⟩ := fault_same layout differ regs 7 (platform.mtvalOf address)
        exact ⟨halted, faulted.congr fun address => iff_of_false (quiet (by simp) address) not_false⟩
  | ecall => exact ⟨(rfl : false = false), call_differ layout differ regs⟩
  | exception cause =>
      exact ⟨(rfl : true = true), (store_same layout (saved_same layout differ regs) _ _).congr
        fun address => iff_of_false (quiet (by simp) address) not_false⟩

theorem user_op_output (differ : DifferOn (KeyAt layout) (fun _ => False) left right) (regs : Regs)
    (op : UOp) (clean : ∀ address, ¬ UserShown layout (keyBytes left layout.toPlacement)
      (keyBytes right layout.toPlacement) regs op address) :
    (viewOp layout platform left regs op).2 = (viewOp layout platform right regs op).2 := by
  cases op with
  | load width base =>
      rw [viewOp, viewOp]
      split
      · rename_i granted
        apply congrArg Observation.loaded
        apply loadBytes_congr
        intro index below
        refine (differ _ fun key => ?_).mpr not_false
        exact granted_outside layout platform .read base width.bytes _ granted
          (key_at_prot layout _ key) ((within_iff_index _ _ _).mpr ⟨index, below, rfl⟩)
      · rfl
  | store width address value =>
      rw [viewOp, viewOp]
      split <;> rfl
  | ecall =>
      have called := call_differ layout differ regs
      apply congrArg Observation.returned
      funext register
      refine called.load32_eq _ (fun address inside key => ?_) fun address _ => clean address
      have inFrame : Within (trapFrame layout) 64 address :=
        within_of_part (trapFrame layout) address (4 * register.val) 4 64 (by omega) inside
      exact prot_not_stack layout address (key_at_prot layout address key)
        (frame_in_stack layout address inFrame)
  | exception cause => rfl

theorem user_op_key (memory : Memory 32) (regs : Regs) (op : UOp) :
    keyBytes (viewOp layout platform memory regs op).1.mem layout.toPlacement =
      keyBytes memory layout.toPlacement := by
  funext index
  refine op_prot layout platform memory regs op _ (key_in_prot layout index) fun _ counter => ?_
  exact counter_not_key layout _ counter (within_byteAt _ 16 _ index.isLt (by omega))

end TwoMemories

structure MachinesApart (key other : Key) (ghost left right : Machine) : Prop where
  same : ghost = left
  leftReady : RunsReady layout left
  rightReady : RunsReady layout right
  halted : left.halted = right.halted
  differ : DifferOn (KeyAt layout) (fun _ => False) left.mem right.mem
  leftKey : keyBytes left.mem layout.toPlacement = key
  rightKey : keyBytes right.mem layout.toPlacement = other

theorem visible_not_key (address : Word) (visible : userVisible layout platform address = true) :
    ¬ KeyAt layout address := fun key =>
  granted_outside layout platform .read address 1 address visible (key_at_prot layout address key)
    (by simp [Within])

theorem user_shown_visible (key other : Key) (step : UStep) (quiet : ¬ BusFault layout platform step)
    (address : Word) (shown : UserShown layout key other step.regs step.op address) :
    userVisible layout platform address = true := by
  obtain ⟨position, ⟨called, number, accepted, inside, _⟩, _⟩ := shown
  have responsive : Responsive platform (step.regs a0) (step.regs a1).toNat := by
    by_contra silent
    exact quiet ⟨called, number, accepted, silent⟩
  obtain ⟨index, below, rfl⟩ := (within_iff_index _ _ _).mp inside
  have outside := accepted_outside layout _ _ accepted index below
  simp [userVisible, userCan, touches, protBlock, outside, (responsive index below).1]

theorem user_shown_iff (key other : Key) (machine : Machine) (running : machine.halted = false)
    (step : UStep) (quiet : ¬ BusFault layout platform step) :
    (∀ address, userVisible layout platform address = true →
        ¬ UserShown layout key other step.regs step.op address) ↔
      SameOnUsed (UserUses layout) key other machine step := by
  constructor
  · rintro clean position ⟨_, address, signs⟩
    by_contra differs
    have shown : UserShown layout key other step.regs step.op address := ⟨position, signs, differs⟩
    exact clean address (user_shown_visible layout platform key other step quiet address shown) shown
  · rintro same address _ ⟨position, signs, differs⟩
    exact differs (same position ⟨running, address, signs⟩)

section Pair

variable {key other : Key} {ghost left right : Machine}

theorem machines_output (step : UStep) (apart : MachinesApart layout key other ghost left right)
    (quiet : Quiet layout platform ghost step) :
    (userViewStep layout platform left step).2 = (userViewStep layout platform right step).2 ↔
      SameOnUsed (UserUses layout) key other ghost step := by
  obtain ⟨rfl, leftReady, rightReady, halted, differ, rfl, rfl⟩ := apart
  have visible := visible_not_key layout platform
  cases running : ghost.halted with
  | true =>
      have stopped : right.halted = true := halted.symm.trans running
      rw [userViewStep, userViewStep, userStep, userStep, if_pos running, if_pos stopped]
      refine iff_of_true (congrArg (Prod.mk _) ?_) fun position used =>
        absurd (running.symm.trans used.1) (by decide)
      exact (differ.seen_iff _ visible).mpr fun _ _ => not_false
  | false =>
      have still : right.halted = false := halted.symm.trans running
      have leftStep := running_step layout platform ghost step leftReady running quiet
      have rightStep := running_step layout platform right step rightReady still fun _ => quiet running
      have shown := (user_op_differ layout platform differ step.regs step.op).2
      have exact_ := user_shown_iff layout platform (keyBytes ghost.mem layout.toPlacement)
        (keyBytes right.mem layout.toPlacement) ghost running step (quiet running)
      have output := user_op_output layout platform differ step.regs step.op
      rw [leftStep, rightStep] at shown output
      rw [userViewStep, userViewStep, Prod.mk.injEq, ← exact_, ← shown.seen_iff _ visible]
      refine and_iff_right_of_imp fun same => output fun address written => ?_
      have clean := (shown.seen_iff _ visible).mp same
      exact clean address (user_shown_visible layout platform _ _ step (quiet running) address written)
        written

theorem machines_step (step : UStep) (apart : MachinesApart layout key other ghost left right)
    (quiet : Quiet layout platform ghost step)
    (same : SameOnUsed (UserUses layout) key other ghost step) :
    MachinesApart layout key other (userViewStep layout platform ghost step).1
      (userViewStep layout platform left step).1 (userViewStep layout platform right step).1 := by
  obtain ⟨rfl, leftReady, rightReady, halted, differ, rfl, rfl⟩ := apart
  have leftAfter := user_step_ready layout platform ghost step leftReady
  have rightAfter := user_step_ready layout platform right step rightReady
  rw [userViewStep, userViewStep]
  cases running : ghost.halted with
  | true =>
      have stopped : right.halted = true := halted.symm.trans running
      rw [userStep, userStep, if_pos running, if_pos stopped]
      exact ⟨rfl, leftReady, rightReady, halted, differ, rfl, rfl⟩
  | false =>
      have still : right.halted = false := halted.symm.trans running
      have leftStep := running_step layout platform ghost step leftReady running quiet
      have rightStep := running_step layout platform right step rightReady still fun _ => quiet running
      obtain ⟨sameHalt, shown⟩ := user_op_differ layout platform differ step.regs step.op
      have leftKey := user_op_key layout platform ghost.mem step.regs step.op
      have rightKey := user_op_key layout platform right.mem step.regs step.op
      have clean := (user_shown_iff layout platform _ _ ghost running step (quiet running)).mpr same
      rw [leftStep] at leftKey
      rw [rightStep] at rightKey
      rw [leftStep, rightStep] at sameHalt shown
      refine ⟨rfl, leftAfter, rightAfter, sameHalt,
        shown.congr fun address => iff_of_false not_false fun written => ?_, leftKey, rightKey⟩
      exact clean address
        (user_shown_visible layout platform _ _ step (quiet running) address written) written

end Pair

theorem drop_congr (stored : Word) (left right : Memory 32) (address : Word)
    (same : left address = right address) :
    dropMemory layout platform stored left address = dropMemory layout platform stored right address := by
  have store (left right : Memory 32) (base value : Word) (same : left address = right address) :
      store32 left base value address = store32 right base value address :=
    storeBytes_congr left right base address (wordBytes value) (by rw [wordBytes_length]; decide)
      fun _ => same
  simp only [dropMemory]
  refine store _ _ _ _ (store _ _ _ _ (store _ _ _ _ (store _ _ _ _ (store _ _ _ _ (store _ _ _ _ ?_)))))
  refine storeWords_congr _ _ _ _ _ (by simp) fun _ => ?_
  exact store _ _ _ _ (store _ _ _ _ same)

theorem main_apart (stored : Word) (key other : Key) (machine : Machine) :
    MachinesApart layout key other (main layout platform stored key machine)
      (main layout platform stored key machine) (main layout platform stored other machine) := by
  refine ⟨rfl, drop_runs_ready layout platform stored key machine,
    drop_runs_ready layout platform stored other machine,
    (main_at_drop layout platform stored key machine).running.trans
      (main_at_drop layout platform stored other machine).running.symm, fun address opened => ?_,
    main_key layout platform stored key machine, main_key layout platform stored other machine⟩
  have outside (written : Key) : ¬ Within layout.key (List.ofFn written).length address := by
    rw [List.length_ofFn]
    exact opened
  rw [(main_at_drop layout platform stored key machine).mem,
    (main_at_drop layout platform stored other machine).mem]
  refine iff_of_true (drop_congr layout platform stored _ _ address ?_) not_false
  simp only [mainInit]
  rw [storeBytes_outside _ _ _ _ (outside key), storeBytes_outside _ _ _ _ (outside other)]

/-- An adaptive U-mode program whose buffers the bus answers for sees the same from another key
exactly when its calls leave a position of the key unused. -/
theorem user_key_open_iff (stored : Word) (key : Key) (machine : Machine)
    (strategy : List (Observation × (Word → Option Byte)) → UStep) (rounds : Nat)
    (quiet : Meets (userViewStep layout platform) (Quiet layout platform)
      (main layout platform stored key machine)
      (play (userViewStep layout platform) strategy rounds
        (main layout platform stored key machine) [])) :
    (∃ other, other ≠ key ∧
        observed (userViewStep layout platform) strategy rounds
            (main layout platform stored other machine) =
          observed (userViewStep layout platform) strategy rounds
            (main layout platform stored key machine)) ↔
      ∃ position, Meets (userViewStep layout platform)
        (fun machine step => ¬ UserUses layout machine step position)
        (main layout platform stored key machine)
        (play (userViewStep layout platform) strategy rounds
          (main layout platform stored key machine) []) := by
  rw [← another_key_iff (userViewStep layout platform) (UserUses layout) key]
  refine exists_congr fun other => and_congr_right fun _ => ?_
  rw [eq_comm, observed_eq_iff]
  exact unwinding_iff _ (userViewStep layout platform) (Quiet layout platform) _
    (MachinesApart layout key other)
    (fun _ _ _ step apart quiet => machines_output layout platform step apart quiet)
    (fun _ _ _ step apart quiet same => machines_step layout platform step apart quiet same)
    _ _ _ _ (main_apart layout platform stored key other machine) quiet

end Pmp

section Both

open TzConfig SecureService WorldIsolation PmpSetup UserView
open PmpProgram hiding Word

/-- In minimal-tz and, where the bus answers for the buffers, in minimal-pmp: for every adaptive
run there is another key under which the caller sees the same throughout if and only if some
byte of the key has been used by none of the signing requests that went through. -/
theorem key_open_iff :
    (∀ (image : SecureImage) (cmse : CmseCheck) (soc : Soc), Hidden image soc → CmseSound soc cmse →
      ∀ (memory : Memory 32) (strategy : List (NsResult × (Word → Option Byte)) → NsOp) (rounds : Nat),
        let step := nsViewStep image cmse soc
        let start : World := ⟨memory, false⟩
        (∃ other, other ≠ keyOf image memory ∧
            observed step strategy rounds ⟨withKey image other memory, false⟩ =
              observed step strategy rounds start) ↔
          ∃ position, Meets step (fun world op => ¬ NsUses cmse world op position) start
            (play step strategy rounds start [])) ∧
    (∀ (layout : Layout) (platform : Platform) (stored : Word) (key : Key) (machine : Machine)
        (strategy : List (Observation × (Word → Option Byte)) → UStep) (rounds : Nat),
        let step := userViewStep layout platform
        let start := main layout platform stored key machine
        Meets step (Quiet layout platform) start (play step strategy rounds start []) →
        ((∃ other, other ≠ key ∧
            observed step strategy rounds (main layout platform stored other machine) =
              observed step strategy rounds start) ↔
          ∃ position, Meets step (fun machine step => ¬ UserUses layout machine step position) start
            (play step strategy rounds start []))) :=
  ⟨fun image cmse soc hidden sound => ns_key_open_iff image cmse soc hidden sound,
    fun layout platform => user_key_open_iff layout platform⟩

def sKeyInit : Key := fun index =>
  [0xA5, 0x5A, 0xDE, 0xAD, 0xBE, 0xEF, 0x00, 0x11, 0x22, 0x33, 0x44, 0x55, 0x66, 0x77, 0x88,
    0x99].getD index.val 0

def signAlways (len : Word) : List (NsResult × (Word → Option Byte)) → NsOp :=
  fun _ => .sign 0x20041000 0x20041100 len

def signCall (len : Word) : List (Observation × (Word → Option Byte)) → UStep := fun _ =>
  { regs := fun register => if register = a7 then svcSignNumber else if register = a1 then len
      else 0x20001000
    sp := 0x20080000
    pc := 0x20001300
    op := .ecall }

theorem short_requests_key_open_iff :
    let soc := tzSauConfig resetSoc
    let step := nsViewStep sampleImage (attributionCheck soc) soc
    let memory := withKey sampleImage sKeyInit blankMemory
    ((∃ other, other ≠ keyOf sampleImage memory ∧
          observed step (signAlways 8) 3 ⟨withKey sampleImage other memory, false⟩ =
            observed step (signAlways 8) 3 ⟨memory, false⟩) ↔
        ∃ position, Meets step (fun world op => ¬ NsUses (attributionCheck soc) world op position)
          ⟨memory, false⟩ (play step (signAlways 8) 3 ⟨memory, false⟩ [])) ∧
      let user := userViewStep sampleLayout flatBoard
      let start := main sampleLayout flatBoard secretValue keyValue resetMachine
      ((∃ other, other ≠ keyValue ∧
          observed user (signCall 8) 3 (main sampleLayout flatBoard secretValue other resetMachine) =
            observed user (signCall 8) 3 start) ↔
        ∃ position, Meets user (fun machine step => ¬ UserUses sampleLayout machine step position)
          start (play user (signCall 8) 3 start [])) :=
  ⟨key_open_iff.1 sampleImage (attributionCheck (tzSauConfig resetSoc)) (tzSauConfig resetSoc)
      (configured_hidden sampleImage resetSoc reset_unused)
      (attribution_check_sound (tzSauConfig resetSoc)) (withKey sampleImage sKeyInit blankMemory)
      (signAlways 8) 3,
    key_open_iff.2 sampleLayout flatBoard secretValue keyValue resetMachine (signCall 8) 3
      (meets_of_forall (userViewStep sampleLayout flatBoard) (Quiet sampleLayout flatBoard)
        (flat_quiet sampleLayout flatBoard fun _ _ => rfl)
        (main sampleLayout flatBoard secretValue keyValue resetMachine)
        (play (userViewStep sampleLayout flatBoard) (signCall 8) 3
          (main sampleLayout flatBoard secretValue keyValue resetMachine) []))⟩

/-- One request for sixteen bytes leaves no other key. -/
theorem full_request_determines_key :
    let soc := tzSauConfig resetSoc
    let step := nsViewStep sampleImage (attributionCheck soc) soc
    let memory := withKey sampleImage sKeyInit blankMemory
    ¬ ∃ other, other ≠ keyOf sampleImage memory ∧
      observed step (signAlways 16) 1 ⟨withKey sampleImage other memory, false⟩ =
        observed step (signAlways 16) 1 ⟨memory, false⟩ := by
  intro soc step memory
  rw [ns_key_open_iff sampleImage (attributionCheck soc) soc
    (configured_hidden sampleImage resetSoc reset_unused) (attribution_check_sound soc)]
  rintro ⟨position, unused, _⟩
  have accepted : SignAccepted (attributionCheck soc) 0x20041000 0x20041100 16 := by decide
  exact unused ⟨rfl, 0x20041000, 0x20041100, 16, rfl, accepted, position.val, position.isLt,
    Nat.mod_eq_of_lt position.isLt⟩

end Both

end Rp2350Tee.KeyFlow
