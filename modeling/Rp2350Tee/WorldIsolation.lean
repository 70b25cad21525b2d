import Rp2350Tee.Runs
import Rp2350Tee.SecureService

/-!
The Secure world of minimal-tz against any Non-Secure program. With the SAU as
`tzSauConfig` leaves it, everything the services use is out of reach, so the only
way in is a veneer call; what such a call does to memory and returns depends on
Non-Secure memory, the key and the counter, and it writes Non-Secure memory, the
counter and the stack buffers.
-/

namespace Rp2350Tee.WorldIsolation

open ByteMemory TzConfig SecureService Runs

variable (image : SecureImage) (cmse : CmseCheck) (soc : Soc)

theorem partition_owned (address : Word) (owned : Owned image address) :
    partition address = .secure := by
  have ram (base : Word) (count : Nat) (member : (base, count) ∈ image.data)
      (inside : Within base count address) :
      0x20000000 ≤ address.toNat ∧ address.toNat < 0x20040000 := by
    have range := image.inRam (base, count) member
    have interval := (within_iff_interval base address count
      (data_range image (base, count) member)).mp inside
    simp only at range
    omega
  have stack (base : Word) (count : Nat) (member : (base, count) ∈ image.temporaries)
      (inside : Within base count address) :
      0x20081000 ≤ address.toNat ∧ address.toNat < 0x20082000 := by
    have range := image.onStack (base, count) member
    have interval := (within_iff_interval base address count
      (temporary_range image (base, count) member)).mp inside
    simp only at range
    omega
  have closed : ¬ (partition address = .nonSecure ∨ partition address = .nonSecureCallable) := by
    rw [partition_open]
    rcases owned with key | counter | result | input | output
    · have := ram _ _ (by simp [SecurePlacement.data]) key
      omega
    · have := ram _ _ (by simp [SecurePlacement.data]) counter
      omega
    · have := ram _ _ (by simp [SecurePlacement.data]) result
      omega
    · have := stack _ _ (by simp [SecurePlacement.temporaries]) input
      omega
    · have := stack _ _ (by simp [SecurePlacement.temporaries]) output
      omega
  cases attributed : partition address with
  | secure => rfl
  | nonSecure => exact absurd (Or.inl attributed) closed
  | nonSecureCallable => exact absurd (Or.inr attributed) closed

/-- The regions that `tz_sau_config` does not write are disabled. -/
def UnusedDisabled (soc : Soc) : Prop :=
  ∀ index : Fin 8, 4 ≤ index → (soc.sau.region index).enabled = false

theorem unused_attribution (unused : UnusedDisabled soc) (address : Word) :
    (tzSauConfig soc).sau.attribution address = partition address :=
  sau_config_unused soc address (unused_stale soc unused address)

/-- No byte of the image is Non-Secure. -/
def Hidden (soc : Soc) : Prop :=
  ∀ address, Owned image address → soc.sau.attribution address ≠ .nonSecure

theorem configured_hidden (unused : UnusedDisabled soc) : Hidden image (tzSauConfig soc) := by
  intro address owned
  rw [unused_attribution soc unused, partition_owned image address owned]
  decide

def signMemory (challenge out len : Word) (memory : Memory 32) : Memory 32 :=
  let memory := copyBytes image.tmpIn challenge len memory
  let memory := secretKeyedTransform image image.tmpIn image.tmpOut len memory
  copyBytes out image.tmpOut len memory

def SignAccepted (challenge out len : Word) : Prop :=
  ¬ (len = 0 ∨ len > secureSignMax) ∧ cmse challenge len .read = true ∧
    cmse out len .readWrite = true

instance (challenge out len : Word) : Decidable (SignAccepted cmse challenge out len) :=
  inferInstanceAs (Decidable (_ ∧ _))

theorem secure_sign_accepted (challenge out len : Word) (memory : Memory 32)
    (accepted : SignAccepted cmse challenge out len) :
    secureSign image cmse challenge out len memory =
      (signMemory image challenge out len memory, 0) := by
  rw [secureSign, if_neg accepted.1, if_neg (by rw [accepted.2.1]; decide),
    if_neg (by rw [accepted.2.2]; decide)]
  rfl

theorem secure_sign_rejected (challenge out len : Word) (rejected : ¬ SignAccepted cmse challenge out len) :
    ∃ code, ∀ memory, secureSign image cmse challenge out len memory = (memory, code) := by
  unfold secureSign
  by_cases bounded : len = 0 ∨ len > secureSignMax
  · exact ⟨-1, fun memory => by rw [if_pos bounded]⟩
  cases input : cmse challenge len .read with
  | false => exact ⟨-2, fun memory => by rw [if_neg bounded, if_pos rfl]⟩
  | true =>
      cases output : cmse out len .readWrite with
      | false => exact ⟨-3, fun memory => by rw [if_neg bounded, if_neg (by decide), if_pos rfl]⟩
      | true => exact absurd ⟨bounded, input, output⟩ rejected

theorem accepted_length {challenge out len : Word} (accepted : SignAccepted cmse challenge out len) :
    len.toNat ≤ 256 := by
  have bounded := accepted.1
  simp only [not_or, gt_iff_lt, BitVec.lt_def] at bounded
  exact Nat.le_of_not_lt bounded.2

/-! The three loops of `secure_sign`, on ranges of at most 256 bytes that keep off the image. -/

section Loops

variable {challenge out len : Word}

theorem within_wider (base address : Word) (short : len.toNat ≤ 256)
    (inside : Within base len.toNat address) : Within base 256 address :=
  Nat.lt_of_lt_of_le inside short

theorem challenge_copied (short : len.toNat ≤ 256)
    (challengeApart : ∀ address, Owned image address → ¬ Within challenge len.toNat address)
    (memory : Memory 32) (index : Nat) (below : index < len.toNat) :
    copyBytes image.tmpIn challenge len memory (byteAt image.tmpIn index) =
      memory (byteAt challenge index) := by
  apply fillBytes_inside _ _ _ _ (Nat.le_of_lt len.isLt) _ index below
  intro position small other same
  apply same
  intro buffer
  have input : Within image.tmpIn 256 (byteAt challenge position) := within_wider _ _ short buffer
  exact challengeApart _ (Or.inr (Or.inr (Or.inr (Or.inl input))))
    ((within_iff_index _ _ _).mpr ⟨position, small, rfl⟩)

theorem copied_outside (short : len.toNat ≤ 256) (memory : Memory 32) (address : Word)
    (outside : ¬ Within image.tmpIn 256 address) :
    copyBytes image.tmpIn challenge len memory address = memory address :=
  fillBytes_outside _ _ _ _ _ fun inside => outside (within_wider _ _ short inside)

theorem challenge_transformed (short : len.toNat ≤ 256)
    (challengeApart : ∀ address, Owned image address → ¬ Within challenge len.toNat address)
    (memory : Memory 32) (index : Nat) (below : index < len.toNat) :
    secretKeyedTransform image image.tmpIn image.tmpOut len
        (copyBytes image.tmpIn challenge len memory) (byteAt image.tmpOut index) =
      memory (byteAt challenge index) ^^^ keyByte image memory index := by
  have inputBuffer (index : Nat) (below : index < len.toNat) :
      Within image.tmpIn 256 (byteAt image.tmpIn index) :=
    within_byteAt _ 256 index (by omega) (by omega)
  have key (index : Nat) : Within image.sKey 16 (byteAt image.sKey (index % secretKeyLen)) :=
    within_byteAt _ 16 _ (Nat.mod_lt _ (by decide)) (by unfold secretKeyLen; omega)
  have keyKept : keyByte image (copyBytes image.tmpIn challenge len memory) index =
      keyByte image memory index :=
    copied_outside image short memory _
      fun input => key_not_temporary image _ (key index) (Or.inl input)
  rw [← challenge_copied image short challengeApart memory index below, ← keyKept]
  apply fillBytes_inside image.tmpOut _ _ _ (Nat.le_of_lt len.isLt) _ index below
  intro position small other same
  have input := same (byteAt image.tmpIn position) fun output =>
    tmp_in_not_tmp_out image _ (inputBuffer position small) (within_wider _ _ short output)
  have keySame := same (byteAt image.sKey (position % secretKeyLen)) fun output =>
    key_not_temporary image _ (key position) (Or.inr (within_wider _ _ short output))
  simp only [keyByte, input, keySame]

theorem transformed_outside (short : len.toNat ≤ 256) (memory : Memory 32) (address : Word)
    (outside : ¬ Temporary image address) :
    secretKeyedTransform image image.tmpIn image.tmpOut len
        (copyBytes image.tmpIn challenge len memory) address = memory address := by
  rw [← copied_outside image short memory address fun input => outside (Or.inl input)]
  exact fillBytes_outside _ _ _ _ _ fun inside => outside (Or.inr (within_wider _ _ short inside))

theorem sign_memory_apart (short : len.toNat ≤ 256)
    (challengeApart : ∀ address, Owned image address → ¬ Within challenge len.toNat address)
    (outApart : ∀ address, Owned image address → ¬ Within out len.toNat address)
    (memory : Memory 32) (address : Word) (notTemporary : ¬ Temporary image address) :
    signMemory image challenge out len memory address =
      if Within out len.toNat address then
        memory (byteAt challenge (address - out).toNat) ^^^ keyByte image memory (address - out).toNat
      else memory address := by
  have outputBuffer (index : Nat) (below : index < len.toNat) :
      Within image.tmpOut 256 (byteAt image.tmpOut index) :=
    within_byteAt _ 256 index (by omega) (by omega)
  rw [signMemory]
  by_cases inside : Within out len.toNat address
  · obtain ⟨index, below, rfl⟩ := (within_iff_index _ _ _).mp inside
    rw [if_pos inside, offset_byteAt out index (by omega),
      ← challenge_transformed image short challengeApart memory index below]
    -- third loop: the output is not in the buffer it is read from
    apply fillBytes_inside out _ _ _ (Nat.le_of_lt len.isLt) _ index below
    intro position small other same
    apply same
    intro overlap
    exact outApart _ (Or.inr (Or.inr (Or.inr (Or.inr (outputBuffer position small))))) overlap
  · rw [if_neg inside, ← transformed_outside image short memory address notTemporary]
    exact fillBytes_outside _ _ _ _ _ inside

end Loops

theorem passed_apart (hidden : Hidden image soc) (sound : CmseSound soc cmse) (p size : Word)
    (permission : CmsePermission) (passed : cmse p size permission = true) (address : Word)
    (owned : Owned image address) : ¬ Within p size.toNat address := fun inside =>
  hidden address owned ((sound p size permission passed).2 address inside)

section Accepted

variable {challenge out len : Word}

/-- Outside its stack buffers `secure_sign` writes `out` alone, with the combination of the
challenge and the key as they were at the call. -/
theorem sign_visible (hidden : Hidden image soc) (sound : CmseSound soc cmse)
    (accepted : SignAccepted cmse challenge out len) (memory : Memory 32) (address : Word)
    (notTemporary : ¬ Temporary image address) :
    signMemory image challenge out len memory address =
      if Within out len.toNat address then
        memory (byteAt challenge (address - out).toNat) ^^^ keyByte image memory (address - out).toNat
      else memory address :=
  sign_memory_apart image (accepted_length cmse accepted)
    (passed_apart image cmse soc hidden sound _ _ _ accepted.2.1)
    (passed_apart image cmse soc hidden sound _ _ _ accepted.2.2) memory address notTemporary

end Accepted

def Shared (address : Word) : Prop :=
  soc.sau.attribution address = .nonSecure ∨ Within image.sKey 16 address ∨
    Within image.sCounter 4 address

def Agree (left right : Memory 32) : Prop :=
  ∀ address, Shared image soc address → left address = right address

theorem shared_not_temporary (hidden : Hidden image soc) (address : Word)
    (shared : Shared image soc address) : ¬ Temporary image address := by
  rcases shared with outer | key | counter
  · exact fun temporary => hidden address (Or.inr (Or.inr (Or.inr temporary))) outer
  · exact key_not_temporary image address key
  · exact counter_not_temporary image address counter

theorem shared_not_result (hidden : Hidden image soc) (address : Word)
    (shared : Shared image soc address) : ¬ Within image.sResult 32 address := by
  rcases shared with outer | key | counter
  · exact fun result => hidden address (Or.inr (Or.inr (Or.inl result))) outer
  · exact key_not_result image address key
  · exact counter_not_result image address counter

theorem range_open (base : Word) (count : Nat) (address : Word)
    (granted : nonSecureRange soc base count = true) (inside : Within base count address) :
    soc.sau.attribution address = .nonSecure := by
  obtain ⟨index, below, rfl⟩ := (within_iff_index _ _ _).mp inside
  simp only [nonSecureRange, List.all_eq_true, List.mem_range, beq_iff_eq] at granted
  exact granted index below

theorem fault_agree (hidden : Hidden image soc) (left right : Memory 32)
    (agree : Agree image soc left right) :
    Agree image soc (refusedAccess image left) (refusedAccess image right) := fun address shared =>
  refused_access_congr image left right address (shared_not_result image soc hidden address shared)
    (agree address shared)

theorem counter_agree (left right : Memory 32) (agree : Agree image soc left right) :
    (secureGetCounter image left).2 = (secureGetCounter image right).2 ∧
      Agree image soc (secureGetCounter image left).1 (secureGetCounter image right).1 := by
  have same : load32 left image.sCounter = load32 right image.sCounter :=
    load32_congr _ _ _ fun address inside => agree address (Or.inr (Or.inr inside))
  simp only [secureGetCounter, secretNextCounter, same]
  refine ⟨trivial, fun address shared => ?_⟩
  exact storeBytes_congr _ _ _ _ _ (by rw [wordBytes_length]; decide) fun _ => agree address shared

theorem sign_agree (hidden : Hidden image soc) (sound : CmseSound soc cmse)
    (challenge out len : Word) (left right : Memory 32) (agree : Agree image soc left right) :
    (secureSign image cmse challenge out len left).2 =
        (secureSign image cmse challenge out len right).2 ∧
      Agree image soc (secureSign image cmse challenge out len left).1
        (secureSign image cmse challenge out len right).1 := by
  by_cases accepted : SignAccepted cmse challenge out len
  · rw [secure_sign_accepted image cmse challenge out len left accepted,
      secure_sign_accepted image cmse challenge out len right accepted]
    refine ⟨rfl, fun address shared => ?_⟩
    have notTemporary := shared_not_temporary image soc hidden address shared
    have visible := sign_visible image cmse soc hidden sound accepted
    dsimp only
    rw [visible left address notTemporary, visible right address notTemporary]
    split
    · rename_i inside
      have read : left (byteAt challenge (address - out).toNat) =
          right (byteAt challenge (address - out).toNat) :=
        agree _ (Or.inl ((sound _ _ _ accepted.2.1).2 _
          ((within_iff_index _ _ _).mpr ⟨_, inside, rfl⟩)))
      have key : keyByte image left (address - out).toNat = keyByte image right (address - out).toNat :=
        agree _ (Or.inr (Or.inl (within_byteAt _ 16 _ (Nat.mod_lt _ (by decide))
          (by unfold secretKeyLen; omega))))
      rw [read, key]
    · exact agree address shared
  · obtain ⟨code, rejected⟩ := secure_sign_rejected image cmse challenge out len accepted
    rw [rejected left, rejected right]
    exact ⟨rfl, agree⟩

/-- One step of the Non-Secure processor shows the same in both states and keeps them in
agreement. -/
theorem op_agree (hidden : Hidden image soc) (sound : CmseSound soc cmse) (left right : Memory 32)
    (agree : Agree image soc left right) (op : NsOp) :
    (nsOp image cmse soc left op).2 = (nsOp image cmse soc right op).2 ∧
      (nsOp image cmse soc left op).1.faulted = (nsOp image cmse soc right op).1.faulted ∧
      Agree image soc (nsOp image cmse soc left op).1.mem (nsOp image cmse soc right op).1.mem := by
  cases op with
  | load width address =>
      rw [nsOp, nsOp]
      split
      · rename_i granted
        have same : loadBytes left address width.bytes = loadBytes right address width.bytes :=
          loadBytes_congr _ _ _ _ fun index below => agree _ (Or.inl (range_open soc address _ _ granted
            ((within_iff_index _ _ _).mpr ⟨index, below, rfl⟩)))
        exact ⟨congrArg NsResult.loaded same, (rfl : false = false), agree⟩
      · exact ⟨rfl, (rfl : true = true), fault_agree image soc hidden left right agree⟩
  | store width address value =>
      rw [nsOp, nsOp]
      split
      · refine ⟨rfl, (rfl : false = false), fun target shared => ?_⟩
        exact storeBytes_congr _ _ _ _ _ (by rw [storeValue_length]; cases width <;> decide)
          fun _ => agree target shared
      · exact ⟨rfl, (rfl : true = true), fault_agree image soc hidden left right agree⟩
  | getCounter =>
      obtain ⟨value, after⟩ := counter_agree image soc left right agree
      rw [nsOp, nsOp]
      exact ⟨congrArg NsResult.counter value, (rfl : false = false), after⟩
  | sign challenge out len =>
      obtain ⟨code, after⟩ := sign_agree image cmse soc hidden sound challenge out len left right agree
      rw [nsOp, nsOp]
      exact ⟨congrArg NsResult.signed code, (rfl : false = false), after⟩

/-- The worlds of two runs: both stopped or both running, on memories that agree. -/
def WorldsAgree (_ : Unit) (left right : World) : Prop :=
  left.faulted = right.faulted ∧ Agree image soc left.mem right.mem

theorem step_agree (hidden : Hidden image soc) (sound : CmseSound soc cmse) (left right : World)
    (op : NsOp) (agree : WorldsAgree image soc () left right) :
    (nsStep image cmse soc left op).2 = (nsStep image cmse soc right op).2 ∧
      WorldsAgree image soc () (nsStep image cmse soc left op).1 (nsStep image cmse soc right op).1 := by
  obtain ⟨faulted, memory⟩ := agree
  rw [nsStep, nsStep, faulted]
  split
  · exact ⟨rfl, faulted, memory⟩
  · exact op_agree image cmse soc hidden sound left.mem right.mem memory op

theorem run_agree (hidden : Hidden image soc) (sound : CmseSound soc cmse) (left right : World)
    (ops : List NsOp) (agree : WorldsAgree image soc () left right) :
    trace (nsStep image cmse soc) left ops = trace (nsStep image cmse soc) right ops ∧
      WorldsAgree image soc () (finish (nsStep image cmse soc) left ops)
        (finish (nsStep image cmse soc) right ops) :=
  unwinding (nsStep image cmse soc) (fun _ _ => ((), ())) (fun _ _ => True) (WorldsAgree image soc)
    (fun _ first second op related _ => step_agree image cmse soc hidden sound first second op related)
    () left right ops agree (meets_of_forall _ _ (fun _ _ => trivial) () ops)

/-- A Secure byte that is neither in the counter nor in a stack buffer. -/
def Guarded (address : Word) : Prop :=
  soc.sau.attribution address ≠ .nonSecure ∧ ¬ Within image.sCounter 4 address ∧
    ¬ Temporary image address

/-- A fault writes `s_result` and SFSR, everything else leaves the guarded bytes alone. -/
theorem op_guarded (hidden : Hidden image soc) (sound : CmseSound soc cmse) (memory : Memory 32)
    (op : NsOp) (address : Word) (guarded : Guarded image soc address)
    (spared : (nsOp image cmse soc memory op).1.faulted = true →
      ¬ Within image.sResult 32 address ∧ address ≠ sfsrAddr) :
    (nsOp image cmse soc memory op).1.mem address = memory address := by
  obtain ⟨closed, notCounter, notTemporary⟩ := guarded
  cases op with
  | load width base =>
      rw [nsOp] at spared ⊢
      split at spared
      · rename_i granted
        rw [if_pos granted]
      · rename_i refused
        rw [if_neg refused]
        exact refused_access_outside image memory address (spared rfl).1 (spared rfl).2
  | store width base value =>
      rw [nsOp] at spared ⊢
      split at spared
      · rename_i granted
        rw [if_pos granted]
        apply storeBytes_outside
        rw [storeValue_length]
        exact fun inside => closed (range_open soc base _ _ granted inside)
      · rename_i refused
        rw [if_neg refused]
        exact refused_access_outside image memory address (spared rfl).1 (spared rfl).2
  | getCounter => exact store32_outside _ _ _ _ notCounter
  | sign challenge out len =>
      rw [nsOp]
      by_cases accepted : SignAccepted cmse challenge out len
      · have untouched : ¬ Within out len.toNat address := fun inside =>
          closed ((sound _ _ _ accepted.2.2).2 _ inside)
        rw [secure_sign_accepted image cmse challenge out len memory accepted]
        exact (sign_visible image cmse soc hidden sound accepted memory address notTemporary).trans
          (if_neg untouched)
      · obtain ⟨code, rejected⟩ := secure_sign_rejected image cmse challenge out len accepted
        rw [rejected memory]

theorem faulted_stays (world : World) (ops : List NsOp) (faulted : world.faulted = true) :
    finish (nsStep image cmse soc) world ops = world := by
  induction ops with
  | nil => rfl
  | cons op rest ih =>
      have still : nsStep image cmse soc world op = (world, .stopped) := if_pos faulted
      rw [finish, still]
      exact ih

theorem run_guarded (hidden : Hidden image soc) (sound : CmseSound soc cmse) (world : World)
    (ops : List NsOp) (running : (finish (nsStep image cmse soc) world ops).faulted = false)
    (address : Word) (guarded : Guarded image soc address) :
    (finish (nsStep image cmse soc) world ops).mem address = world.mem address := by
  induction ops generalizing world with
  | nil => rfl
  | cons op rest ih =>
      rw [finish] at running ⊢
      rw [ih _ running]
      cases start : world.faulted with
      | true => rw [nsStep, if_pos start]
      | false =>
          have step : nsStep image cmse soc world op = nsOp image cmse soc world.mem op :=
            if_neg (Bool.eq_false_iff.mp start)
          rw [step] at running ⊢
          apply op_guarded image cmse soc hidden sound world.mem op address guarded
          intro stopped
          rw [faulted_stays image cmse soc _ rest stopped] at running
          exact absurd (running.symm.trans stopped) (by decide)

/-- Non-Secure programs see the same in any two Secure states that agree on Non-Secure
memory, the key and the counter, and until the first fault they change no Secure byte but
the counter and the stack buffers of `secure_sign`. -/
theorem secure_world_isolated (unused : UnusedDisabled soc)
    (sound : CmseSound (tzSauConfig soc) cmse) (left right : Memory 32)
    (agree : Agree image (tzSauConfig soc) left right) (ops : List NsOp) :
    let step := nsStep image cmse (tzSauConfig soc)
    trace step ⟨left, false⟩ ops = trace step ⟨right, false⟩ ops ∧
      (∀ address, (tzSauConfig soc).sau.attribution address = .nonSecure →
        (finish step ⟨left, false⟩ ops).mem address = (finish step ⟨right, false⟩ ops).mem address) ∧
      ((finish step ⟨left, false⟩ ops).faulted = false →
        ∀ address, Guarded image (tzSauConfig soc) address →
          (finish step ⟨left, false⟩ ops).mem address = left address) := by
  have hidden := configured_hidden image soc unused
  obtain ⟨same, _, memory⟩ := run_agree image cmse (tzSauConfig soc) hidden sound ⟨left, false⟩
    ⟨right, false⟩ ops ⟨rfl, agree⟩
  exact ⟨same, fun address visible => memory address (Or.inl visible),
    fun running => run_guarded image cmse (tzSauConfig soc) hidden sound ⟨left, false⟩ ops running⟩

def sampleImage : SecureImage where
  sKey := 0x20001000
  sCounter := 0x20001010
  sResult := 0x20001020
  tmpIn := 0x20081C00
  tmpOut := 0x20081D00
  inRam := by decide
  onStack := by decide
  apart := by decide

def attributionCheck (soc : Soc) : CmseCheck := fun p size _ =>
  decide (p.toNat + size.toNat ≤ 2 ^ 32) && nonSecureRange soc p size.toNat

theorem attribution_check_sound : CmseSound soc (attributionCheck soc) := by
  intro p size permission passed
  rw [attributionCheck, Bool.and_eq_true, decide_eq_true_eq] at passed
  exact ⟨passed.1, fun address inside => range_open soc p _ address passed.2 inside⟩

def blankMemory : Memory 32 := fun _ => 0

/-- Holds a key, and a challenge at `0x20041000`. -/
def signingMemory : Memory 32 :=
  storeBytes (storeBytes blankMemory 0x20001000 [0xA5, 0x5A, 0xDE, 0xAD]) 0x20041000
    [0x11, 0x22, 0x33, 0x44]

def otherMemory : Memory 32 := Function.update blankMemory 0x20002000 1

def nsSession : List NsOp :=
  [.getCounter, .sign 0x20041000 0x20041008 16, .load .word 0x20000000]

theorem session_isolated :
    let soc := tzSauConfig resetSoc
    let step := nsStep sampleImage (attributionCheck soc) soc
    trace step ⟨blankMemory, false⟩ nsSession = trace step ⟨otherMemory, false⟩ nsSession ∧
      (∀ address, soc.sau.attribution address = .nonSecure →
        (finish step ⟨blankMemory, false⟩ nsSession).mem address =
          (finish step ⟨otherMemory, false⟩ nsSession).mem address) ∧
      ((finish step ⟨blankMemory, false⟩ nsSession).faulted = false →
        ∀ address, Guarded sampleImage soc address →
          (finish step ⟨blankMemory, false⟩ nsSession).mem address = blankMemory address) := by
  apply secure_world_isolated sampleImage (attributionCheck (tzSauConfig resetSoc)) resetSoc
    reset_unused (attribution_check_sound (tzSauConfig resetSoc))
  intro address shared
  by_cases here : address = 0x20002000
  · subst here
    rcases shared with outer | key | counter
    · exact absurd outer (by decide)
    · exact absurd key (by decide)
    · exact absurd counter (by decide)
  · exact (Function.update_of_ne here 1 blankMemory).symm

end Rp2350Tee.WorldIsolation
