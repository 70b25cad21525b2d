import Rp2350Tee.PmpPermissions

/-!
The guard of `svc_sign` against the PMP. M-mode is not subject to the entries of
`pmp_isolate_secret`, so `svc_sign` has to refuse by itself what U-mode could not
reach. `tracedSign` is `svc_sign` with a log of the accesses it issues.
-/

namespace Rp2350Tee.SignGuard

open ByteMemory PmpUnit PmpProgram PmpSetup TrapHandler PmpPermissions

variable (layout : Layout) (platform : Platform)

structure Traced where
  machine : Machine
  log : List (Access × Word)

def tracedByte (buf : Word) (index : Nat) (traced : Traced) : Traced :=
  if traced.machine.halted then traced else
  let loaded := signLoad layout platform (byteAt buf index) index traced.machine
  let log := traced.log ++ [(.read, byteAt buf index)]
  -- the load of `buf[i]` may stop the machine, and then neither the key nor the store follows
  if loaded.1.halted then ⟨loaded.1, log⟩
  else
    ⟨signStore layout platform (byteAt buf index) index loaded.2 loaded.1,
      log ++ [(.read, byteAt layout.key (index % 16)), (.write, byteAt buf index)]⟩

def tracedLoop (buf : Word) (traced : Traced) : Nat → Traced
  | 0 => traced
  | count + 1 => tracedByte layout platform buf count (tracedLoop buf traced count)

def tracedSign (buf len : Word) (machine : Machine) : Traced :=
  if len > 64 then ⟨machine, []⟩
  else if buf + len > layout.gProt ∧ buf < layout.gProt + 64 then ⟨machine, []⟩
  else tracedLoop layout platform buf ⟨machine, []⟩ len.toNat

theorem traced_byte_machine (buf : Word) (index : Nat) (traced : Traced) :
    (tracedByte layout platform buf index traced).machine =
      svcSignByte layout platform buf index traced.machine := by
  unfold tracedByte svcSignByte
  split
  · rfl
  dsimp only
  split <;> rfl

theorem traced_loop_machine (buf : Word) (traced : Traced) (count : Nat) :
    (tracedLoop layout platform buf traced count).machine =
      svcSignLoop layout platform buf traced.machine count := by
  induction count with
  | zero => rfl
  | succ count ih => rw [tracedLoop, traced_byte_machine, ih, svcSignLoop]

/-- The log takes no part in what `svc_sign` does. -/
theorem traced_sign_machine (buf len : Word) (machine : Machine) :
    (tracedSign layout platform buf len machine).machine =
      svcSign layout platform buf len machine := by
  unfold tracedSign svcSign
  split
  · rfl
  split
  · rfl
  · exact traced_loop_machine layout platform buf ⟨machine, []⟩ len.toNat

/-- A read of the key, or a read or write of the buffer. -/
def SignAccess (buf : Word) (count : Nat) (entry : Access × Word) : Prop :=
  entry.1 = .read ∧ (Within layout.key 16 entry.2 ∨ Within buf count entry.2) ∨
    entry.1 = .write ∧ Within buf count entry.2

def byteAccesses (buf : Word) (index : Nat) : List (Access × Word) :=
  [(.read, byteAt buf index), (.read, byteAt layout.key (index % 16)), (.write, byteAt buf index)]

theorem byte_accesses_allowed (buf : Word) (index count : Nat) (below : index < count)
    (entry : Access × Word) (member : entry ∈ byteAccesses layout buf index) :
    SignAccess layout buf count entry := by
  have inside : Within buf count (byteAt buf index) := (within_iff_index _ _ _).mpr ⟨index, below, rfl⟩
  have inKey : Within layout.key 16 (byteAt layout.key (index % 16)) :=
    within_byteAt _ 16 _ (Nat.mod_lt _ (by decide)) (by omega)
  simp only [byteAccesses, List.mem_cons, List.not_mem_nil, or_false] at member
  rcases member with rfl | rfl | rfl
  · exact Or.inl ⟨rfl, Or.inr inside⟩
  · exact Or.inl ⟨rfl, Or.inl inKey⟩
  · exact Or.inr ⟨rfl, inside⟩

theorem traced_byte_log (buf : Word) (index : Nat) (traced : Traced) :
    ∃ issued, issued <+: byteAccesses layout buf index ∧
      (tracedByte layout platform buf index traced).log = traced.log ++ issued ∧
      (traced.machine.halted = false → issued ≠ []) := by
  unfold tracedByte
  split
  · rename_i halted
    exact ⟨[], List.nil_prefix, by simp, fun running => absurd (halted.symm.trans running) (by decide)⟩
  dsimp only
  split
  · exact ⟨[(.read, byteAt buf index)], ⟨_, rfl⟩, rfl, fun _ => by simp⟩
  · exact ⟨byteAccesses layout buf index, List.prefix_rfl, by simp [byteAccesses],
      fun _ => by simp [byteAccesses]⟩

theorem traced_loop_allowed (buf : Word) (machine : Machine) (count : Nat) :
    ∀ entry ∈ (tracedLoop layout platform buf ⟨machine, []⟩ count).log,
      SignAccess layout buf count entry := by
  induction count with
  | zero =>
      intro entry member
      exact absurd member List.not_mem_nil
  | succ count ih =>
      intro entry member
      obtain ⟨issued, started, log, _⟩ := traced_byte_log layout platform buf count
        (tracedLoop layout platform buf ⟨machine, []⟩ count)
      rw [tracedLoop, log] at member
      rcases List.mem_append.mp member with early | late
      · -- an access of an earlier iteration is one of the longer buffer
        have wider (address : Word) (inside : Within buf count address) :
            Within buf (count + 1) address := Nat.lt_succ_of_lt inside
        rcases ih entry early with ⟨read, inKey | inside⟩ | ⟨written, inside⟩
        · exact Or.inl ⟨read, Or.inl inKey⟩
        · exact Or.inl ⟨read, Or.inr (wider _ inside)⟩
        · exact Or.inr ⟨written, wider _ inside⟩
      · exact byte_accesses_allowed layout buf count (count + 1) (Nat.lt_succ_self count) entry
          (started.subset late)

theorem traced_loop_starts (buf : Word) (machine : Machine) (running : machine.halted = false)
    (count : Nat) : (tracedLoop layout platform buf ⟨machine, []⟩ (count + 1)).log ≠ [] := by
  induction count with
  | zero =>
      obtain ⟨issued, _, log, some⟩ := traced_byte_log layout platform buf 0 ⟨machine, []⟩
      rw [tracedLoop, tracedLoop, log]
      exact some running
  | succ count ih =>
      obtain ⟨issued, _, log, _⟩ := traced_byte_log layout platform buf (count + 1)
        (tracedLoop layout platform buf ⟨machine, []⟩ (count + 1))
      rw [tracedLoop, log]
      intro empty
      exact ih (List.append_eq_nil_iff.mp empty).1

theorem traced_loop_full (buf : Word) (machine : Machine) (count : Nat) (short : count ≤ 64)
    (serving : Serving layout machine) (responsive : Responsive platform buf count)
    (apart : ∀ index < count, ¬ Within layout.gProt 64 (byteAt buf index)) :
    (tracedLoop layout platform buf ⟨machine, []⟩ count).log =
      (List.range count).flatMap (byteAccesses layout buf) := by
  induction count with
  | zero => rfl
  | succ count ih =>
      have shorter (index : Nat) (below : index < count) : index < count + 1 := by omega
      have prior := ih (by omega) (fun index below => responsive index (shorter index below))
        (fun index below => apart index (shorter index below))
      have reached := traced_loop_machine layout platform buf ⟨machine, []⟩ count
      have plain := sign_loop_plain layout platform buf machine count (by omega) serving
        (fun index below => responsive index (shorter index below))
        (fun index below => apart index (shorter index below))
      rw [plain] at reached
      have here := serving.with_mem layout
        (signedMemory (keyBytes machine.mem layout.toPlacement) buf count machine.mem)
      -- the bytes before have changed memory only, so this one is read and written like the first
      rw [← reached] at here
      have readable := (byte_access layout platform _ here.isolated here.lifted .read
        (byteAt buf count)).trans (responsive count (Nat.lt_succ_self count)).1
      rw [tracedLoop, tracedByte, if_neg (Bool.eq_false_iff.mp here.running), signLoad,
        if_pos readable]
      dsimp only
      rw [if_neg (Bool.eq_false_iff.mp here.running), prior, List.range_succ, List.flatMap_append]
      simp [byteAccesses]

/-- What `svc_sign` changes, it has logged a write of. -/
theorem changed_byte_logged (buf len : Word) (machine : Machine) (serving : Serving layout machine)
    (responsive : Accepted layout buf len → Responsive platform buf len.toNat) (address : Word)
    (changed : (svcSign layout platform buf len machine).mem address ≠ machine.mem address) :
    (.write, address) ∈ (tracedSign layout platform buf len machine).log := by
  rw [svc_sign_plain layout platform buf len machine serving responsive] at changed
  by_cases accepted : Accepted layout buf len
  · simp only [withMem, if_pos accepted] at changed
    have inside : Within buf len.toNat address := by
      by_contra outside
      exact changed (signed_outside _ _ _ _ _ outside)
    obtain ⟨index, below, rfl⟩ := (within_iff_index _ _ _).mp inside
    rw [tracedSign, if_neg accepted.1, if_neg accepted.2,
      traced_loop_full layout platform buf machine len.toNat (accepted_short layout buf len accepted)
        serving (responsive accepted) (accepted_outside layout buf len accepted), List.mem_flatMap]
    exact ⟨index, List.mem_range.mpr below, by simp [byteAccesses]⟩
  · simp only [withMem, if_neg accepted] at changed
    exact absurd rfl changed

/-- For a buffer of at least one byte the guard is exact: it refuses a buffer that is too long
or has a byte in the block, and no other. -/
theorem accepted_iff_outside (buf len : Word) (positive : 1 ≤ len.toNat) :
    Accepted layout buf len ↔
      len.toNat ≤ 64 ∧ ∀ index < len.toNat, ¬ Within layout.gProt 64 (byteAt buf index) := by
  constructor
  · intro accepted
    exact ⟨accepted_short layout buf len accepted, accepted_outside layout buf len accepted⟩
  · rintro ⟨short, outside⟩
    have range := prot_range layout
    have blockSize : (64 : Word).toNat = 64 := rfl
    have bufBound := buf.isLt
    unfold sramStart sramEnd at range
    have offBlock (index : Nat) (below : index < len.toNat) :
        ¬ (layout.gProt.toNat ≤ (buf.toNat + index) % 2 ^ 32 ∧
          (buf.toNat + index) % 2 ^ 32 < layout.gProt.toNat + 64) := by
      have clear := outside index below
      rwa [within_iff_interval _ _ _ (by omega), byteAt, BitVec.toNat_add, BitVec.toNat_ofNat,
        Nat.add_mod_mod] at clear
    constructor
    · rw [gt_iff_lt, BitVec.lt_def, blockSize]
      omega
    · rw [gt_iff_lt, BitVec.lt_def, BitVec.lt_def, BitVec.toNat_add, BitVec.toNat_add, blockSize]
      rintro ⟨past, before⟩
      -- the first byte of the buffer that is not below the block
      have first := offBlock (layout.gProt.toNat - buf.toNat)
      omega

theorem user_byte_grants (prior : Machine) (access : Access) (address : Word) :
    (pmpIsolateSecret layout prior).pmp.grants .user access address 1 = true ↔
      ¬ Within layout.gProt 64 address := by
  have pair := (isolate_isolated layout prior).pair
  rw [pair.user_grants access address 1 (by decide), Bool.not_eq_true', touches_false]
  simp [protBlock]

/-- `svc_sign` goes on exactly where the PMP would let U-mode itself read and write the whole
buffer, up to 64 bytes of it, and then touches the buffer and the key and nothing else. -/
theorem sign_guard_matches_pmp (prior machine : Machine) (running : machine.halted = false)
    (buf len : Word) (positive : 1 ≤ len.toNat) :
    let pmp := (pmpIsolateSecret layout prior).pmp
    let log := (tracedSign layout platform buf len machine).log
    (log ≠ [] ↔ len.toNat ≤ 64 ∧ ∀ index < len.toNat,
      pmp.grants .user .read (byteAt buf index) 1 = true ∧
        pmp.grants .user .write (byteAt buf index) 1 = true) ∧
    (log ≠ [] → Serving layout machine → Responsive platform buf len.toNat →
      log = (List.range len.toNat).flatMap (byteAccesses layout buf)) ∧
    ∀ entry ∈ log, SignAccess layout buf len.toNat entry := by
  intro pmp log
  have granted : (len.toNat ≤ 64 ∧ ∀ index < len.toNat,
      pmp.grants .user .read (byteAt buf index) 1 = true ∧
        pmp.grants .user .write (byteAt buf index) 1 = true) ↔ Accepted layout buf len := by
    rw [accepted_iff_outside layout buf len positive]
    simp only [pmp, user_byte_grants, and_self]
  rw [granted]
  by_cases accepted : Accepted layout buf len
  · have traced : log = (tracedLoop layout platform buf ⟨machine, []⟩ len.toNat).log := by
      simp only [log, tracedSign, if_neg accepted.1, if_neg accepted.2]
    obtain ⟨count, counted⟩ : ∃ count, len.toNat = count + 1 := ⟨len.toNat - 1, by omega⟩
    refine ⟨⟨fun _ => accepted, fun _ => ?_⟩, ?_, ?_⟩
    · rw [traced, counted]
      exact traced_loop_starts layout platform buf machine running count
    · intro _ serving responsive
      rw [traced]
      exact traced_loop_full layout platform buf machine len.toNat
        (accepted_short layout buf len accepted) serving responsive
        (accepted_outside layout buf len accepted)
    · rw [traced]
      exact traced_loop_allowed layout platform buf machine len.toNat
  · have silent : log = [] := by
      simp only [log, tracedSign]
      split
      · rfl
      split
      · rfl
      · rename_i short clear
        exact absurd ⟨short, clear⟩ accepted
    rw [silent]
    refine ⟨⟨fun wrong => absurd rfl wrong, fun wrong => absurd wrong accepted⟩, ?_, ?_⟩
    · intro wrong
      exact absurd rfl wrong
    · intro entry member
      exact absurd member List.not_mem_nil

def isolatedMachine : Machine := pmpIsolateSecret sampleLayout resetMachine

theorem isolated_serving : Serving sampleLayout isolatedMachine :=
  ⟨rfl, isolate_isolated sampleLayout resetMachine, rfl⟩

/-- Sixteen bytes that start right behind the block. -/
theorem sign_guard_behind_block :
    let log := (tracedSign sampleLayout sramBoard 0x20000040 16 isolatedMachine).log
    log ≠ [] ∧ (∀ index < (16 : Word).toNat,
      isolatedMachine.pmp.grants .user .read (byteAt 0x20000040 index) 1 = true ∧
        isolatedMachine.pmp.grants .user .write (byteAt 0x20000040 index) 1 = true) ∧
      log = (List.range (16 : Word).toNat).flatMap (byteAccesses sampleLayout 0x20000040) ∧
      ∀ entry ∈ log, SignAccess sampleLayout 0x20000040 (16 : Word).toNat entry := by
  obtain ⟨matches_, full, allowed⟩ := sign_guard_matches_pmp sampleLayout sramBoard resetMachine
    isolatedMachine rfl 0x20000040 16 (by decide)
  have outside : ∀ index < (16 : Word).toNat,
      ¬ Within sampleLayout.gProt 64 (byteAt 0x20000040 index) := by decide
  have granted (access : Access) (index : Nat) (below : index < (16 : Word).toNat) :=
    (user_byte_grants sampleLayout resetMachine access _).mpr (outside index below)
  have issued := matches_.mpr
    ⟨by decide, fun index below => ⟨granted .read index below, granted .write index below⟩⟩
  exact ⟨issued, (matches_.mp issued).2, full issued isolated_serving (by decide), allowed⟩

end Rp2350Tee.SignGuard
