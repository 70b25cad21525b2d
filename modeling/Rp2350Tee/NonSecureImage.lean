import Rp2350Tee.ByteMemory
import Rp2350Tee.TzConfig

/-!
How the Non-Secure image of minimal-tz gets into its RAM: the sections that
`nonsecure/linker_ns.ld` lays out, the copy loop of `launch_nonsecure` in
`secure/main_s.c` and the `.bss` loop of `ns_reset` in `nonsecure/main_ns.c`. The
script accepts images up to the mailbox, the copy loop moves 64 KB of them. No
input of `.bss` is aligned to more than a word, so that it begins right behind the
stored part.
-/

namespace Rp2350Tee.NonSecureImage

open ByteMemory TzConfig

/-- `ORIGIN(RAM) + LENGTH(RAM)` of the linker script. -/
def nsStackTop : Word := 0x20080000

structure NsSections where
  nsReset : Word
  nsDefaultHandler : Word
  text : List Byte
  rodata : List Byte
  data : List Byte
  /-- The size of `.bss`, which is not part of the stored image. -/
  bssWords : Nat

/-- `ns_vectors`. -/
def NsSections.vectors (sections : NsSections) : List Byte :=
  wordBytes nsStackTop ++ wordBytes sections.nsReset ++ wordBytes sections.nsDefaultHandler ++
    wordBytes sections.nsDefaultHandler

/-- `.vectors`, `.text`, `.rodata` and `.data`, one after the other from the start of RAM. -/
def NsSections.loadable (sections : NsSections) : List Byte :=
  sections.vectors ++ sections.text ++ sections.rodata ++ sections.data

def NsSections.bssStart (sections : NsSections) : Word := byteAt nsRamStart sections.loadable.length

def NsSections.bssEnd (sections : NsSections) : Word :=
  byteAt nsRamStart (sections.loadable.length + 4 * sections.bssWords)

/-- An image that the linker script accepts: every section ends on a word, the entry points are
Thumb code in `.text`, and `.bss` ends below the mailbox. -/
structure NsImage extends NsSections where
  aligned : ∀ part ∈ [toNsSections.text, toNsSections.rodata, toNsSections.data], 4 ∣ part.length
  entries : ∀ entry ∈ [toNsSections.nsReset, toNsSections.nsDefaultHandler],
    entry &&& 1 = 1 ∧
      Within (byteAt nsRamStart toNsSections.vectors.length) toNsSections.text.length (entry &&& ~~~ 1)
  guard : nsRamStart.toNat + toNsSections.loadable.length + 4 * toNsSections.bssWords <
    nsMailboxAddr.toNat

def StoredAt (image : NsImage) (memory : Memory 32) : Prop :=
  ∀ index, (inside : index < image.loadable.length) →
    memory (byteAt nsFlashStart index) = image.loadable[index]

/-- Memory, and the addresses of the words stored since the launch. -/
structure NsBoot where
  mem : Memory 32
  stores : List Word

def NsBoot.store (boot : NsBoot) (address value : Word) : NsBoot where
  mem := store32 boot.mem address value
  stores := address :: boot.stores

def nsImageCopyBytes : Word := 0x00010000

def copyImage (boot : NsBoot) : Nat → NsBoot
  | 0 => boot
  | count + 1 =>
      let copied := copyImage boot count
      copied.store (byteAt nsRamStart (4 * count))
        (load32 copied.mem (byteAt nsFlashStart (4 * count)))

structure NsEntry where
  vtor : Word
  msp : Word
  pc : Word

def launchNonsecure (boot : NsBoot) : NsBoot × NsEntry :=
  let copied := copyImage boot (nsImageCopyBytes / 4).toNat
  let nsReset := load32 copied.mem (byteAt nsRamStart 4)
  (copied, ⟨nsRamStart, load32 copied.mem nsRamStart, nsReset &&& ~~~ 1⟩)

/-- `for (p = ..; p < stop; p++) *p = 0u`, in at most `fuel` rounds. -/
def zeroBss (stop : Word) : Nat → Word → NsBoot → Option NsBoot
  | 0, p, boot => if p < stop then none else some boot
  | fuel + 1, p, boot =>
      if p < stop then zeroBss stop fuel (p + 4) (boot.store p 0) else some boot

variable (image : NsImage)

def nsReset (fuel : Nat) (boot : NsBoot) : Option NsBoot :=
  zeroBss image.bssEnd fuel image.bssStart boot

def nsMainBegins (fuel : Nat) (memory : Memory 32) : Option NsBoot :=
  let launched := launchNonsecure ⟨memory, []⟩
  if launched.2.pc = image.nsReset &&& ~~~ 1 then nsReset image fuel launched.1 else none

structure Started (boot : NsBoot) : Prop where
  loaded : ∀ index, (inside : index < image.loadable.length) →
    boot.mem (byteAt nsRamStart index) = image.loadable[index]
  zeroed : ∀ index < image.bssWords, load32 boot.mem (byteAt image.bssStart (4 * index)) = 0
  unwritten : ∀ store ∈ boot.stores, ∀ address, Within store 4 address →
    ¬ Within nsMailboxAddr 0x4000 address

/-- What the copy loop does not reach stands in RAM already. -/
def RestPresent (memory : Memory 32) : Prop :=
  ∀ index, nsImageCopyBytes.toNat ≤ index → (inside : index < image.loadable.length) →
    memory (byteAt nsRamStart index) = image.loadable[index]

theorem vectors_length (sections : NsSections) : sections.vectors.length = 16 := rfl

theorem vectors_words (sections : NsSections) :
    sections.vectors = wordBytes nsStackTop ++ (wordBytes sections.nsReset ++
      (wordBytes sections.nsDefaultHandler ++ wordBytes sections.nsDefaultHandler)) := by
  simp only [NsSections.vectors, List.append_assoc]

theorem loadable_vectors (index : Nat) (inside : index < image.vectors.length) :
    ∃ whole : index < image.loadable.length, image.loadable[index] = image.vectors[index] := by
  have whole : index < image.loadable.length := by
    simp only [NsSections.loadable, List.length_append]
    omega
  refine ⟨whole, ?_⟩
  simp only [NsSections.loadable, List.append_assoc]
  exact List.getElem_append_left inside

theorem below_mailbox (offset count : Nat) (address : Word)
    (low : nsRamStart.toNat + offset + count ≤ nsMailboxAddr.toNat)
    (inside : Within (byteAt nsRamStart offset) count address) :
    ¬ Within nsMailboxAddr 0x4000 address := by
  have room : nsRamStart.toNat + 0x3C000 = nsMailboxAddr.toNat := by decide
  have mailbox : nsMailboxAddr = byteAt nsRamStart 0x3C000 := by decide
  rw [mailbox]
  exact parts_apart nsRamStart address offset count 0x3C000 0x4000 (by omega) (by decide) inside

theorem image_room : image.loadable.length + 4 * image.bssWords < 0x3C000 := by
  have guard := image.guard
  have start : nsRamStart.toNat = 0x20040000 := by decide
  have mailbox : nsMailboxAddr.toNat = 0x2007C000 := by decide
  omega

theorem launch_entry (boot : NsBoot) :
    (launchNonsecure boot).2 = ⟨nsRamStart, load32 (launchNonsecure boot).1.mem nsRamStart,
      load32 (launchNonsecure boot).1.mem (byteAt nsRamStart 4) &&& ~~~ 1⟩ := rfl

theorem copy_image_mem (boot : NsBoot) (count : Nat) :
    (copyImage boot count).mem = copyWords nsRamStart nsFlashStart boot.mem count := by
  induction count with
  | zero => rfl
  | succ count ih => rw [copyImage, NsBoot.store, copyWords, ih]

theorem copy_image_stores (boot : NsBoot) (count : Nat) (store : Word)
    (member : store ∈ (copyImage boot count).stores) :
    store ∈ boot.stores ∨ ∃ index < count, store = byteAt nsRamStart (4 * index) := by
  induction count with
  | zero => exact Or.inl member
  | succ count ih =>
      rcases List.mem_cons.mp member with rfl | earlier
      · exact Or.inr ⟨count, Nat.lt_succ_self count, rfl⟩
      · rcases ih earlier with before | ⟨index, below, same⟩
        · exact Or.inl before
        · exact Or.inr ⟨index, Nat.lt_succ_of_lt below, same⟩

theorem flash_not_ram (address : Word) (inside : Within nsFlashStart 0x10000 address) :
    ¬ Within nsRamStart 0x10000 address :=
  apart_of_le nsFlashStart nsRamStart address 0x10000 0x10000 (by decide) (by decide) inside

theorem launched_byte (memory : Memory 32) (stored : StoredAt image memory) (index : Nat)
    (inside : index < image.loadable.length) (reached : index < nsImageCopyBytes.toNat) :
    (launchNonsecure ⟨memory, []⟩).1.mem (byteAt nsRamStart index) = image.loadable[index] := by
  rw [launchNonsecure, copy_image_mem]
  refine (copyWords_inside nsRamStart nsFlashStart memory _ (by decide) flash_not_ram index ?_).trans
    (stored index inside)
  exact Nat.lt_of_lt_of_eq reached (by decide)

theorem launched_outside (memory : Memory 32) (address : Word)
    (outside : ¬ Within nsRamStart nsImageCopyBytes.toNat address) :
    (launchNonsecure ⟨memory, []⟩).1.mem address = memory address := by
  rw [launchNonsecure, copy_image_mem]
  exact copyWords_outside nsRamStart nsFlashStart memory _ address outside

theorem launched_rest (memory : Memory 32) (index : Nat)
    (beyond : nsImageCopyBytes.toNat ≤ index) (small : index < 2 ^ 32) :
    (launchNonsecure ⟨memory, []⟩).1.mem (byteAt nsRamStart index) = memory (byteAt nsRamStart index) := by
  apply launched_outside
  rw [Within, offset_byteAt _ _ small]
  omega

theorem launched_word (memory : Memory 32) (stored : StoredAt image memory)
    (before after : List Byte) (value : Word)
    (table : image.vectors = before ++ (wordBytes value ++ after)) :
    load32 (launchNonsecure ⟨memory, []⟩).1.mem (byteAt nsRamStart before.length) = value := by
  have size : before.length + (4 + after.length) = 16 := by
    rw [← vectors_length image.toNsSections, table, List.length_append, List.length_append,
      wordBytes_length]
  have bytes (address : Word) (within : Within (byteAt nsRamStart before.length) 4 address) :
      (launchNonsecure ⟨memory, []⟩).1.mem address =
        store32 memory (byteAt nsRamStart before.length) value address := by
    obtain ⟨index, below, rfl⟩ := (within_iff_index _ _ _).mp within
    obtain ⟨whole, same⟩ := loadable_vectors image (before.length + index)
      (by rw [vectors_length]; omega)
    have copied : nsImageCopyBytes.toNat = 0x10000 := by decide
    rw [store32, storeBytes_inside _ _ (wordBytes value) (by rw [wordBytes_length]; decide) index below,
      byteAt_byteAt, launched_byte image memory stored _ whole (by omega), same]
    simp only [table, List.getElem_append_right (Nat.le_add_right _ _), Nat.add_sub_cancel_left]
    exact List.getElem_append_left below
  rw [load32_congr _ _ _ bytes, load32_store32 _ _ _ (by decide)]

theorem launched_entry (memory : Memory 32) (stored : StoredAt image memory) :
    (launchNonsecure ⟨memory, []⟩).2 = ⟨nsRamStart, nsStackTop, image.nsReset &&& ~~~ 1⟩ := by
  have stack := launched_word image memory stored [] _ nsStackTop
    ((vectors_words _).trans (List.nil_append _).symm)
  have reset := launched_word image memory stored (wordBytes nsStackTop) _ image.nsReset
    (vectors_words _)
  rw [List.length_nil, byteAt_zero] at stack
  rw [wordBytes_length] at reset
  rw [launch_entry, stack, reset]

/-- With a round for every word the loop ends, and it has stored a zero to each of them. -/
theorem zero_bss_spec (words fuel offset : Nat) (boot : NsBoot)
    (room : nsRamStart.toNat + (offset + 4 * words) < 2 ^ 32) (enough : words ≤ fuel) :
    ∃ zeroed, zeroBss (byteAt nsRamStart (offset + 4 * words)) fuel (byteAt nsRamStart offset) boot =
        some zeroed ∧
      zeroed.mem = storeWords boot.mem (byteAt nsRamStart offset) (List.replicate words 0) ∧
      ∀ store ∈ zeroed.stores, store ∈ boot.stores ∨
        ∃ index < words, store = byteAt nsRamStart (offset + 4 * index) := by
  induction words generalizing fuel offset boot with
  | zero =>
      have ended : ¬ byteAt nsRamStart (offset + 4 * 0) < byteAt nsRamStart offset := by
        rw [Nat.mul_zero, Nat.add_zero]
        exact BitVec.lt_irrefl _
      refine ⟨boot, ?_, rfl, fun store member => Or.inl member⟩
      cases fuel <;> exact if_neg ended
  | succ words ih =>
      obtain ⟨fuel, rfl⟩ := Nat.exists_eq_add_of_lt enough
      have goesOn : byteAt nsRamStart offset < byteAt nsRamStart (offset + 4 * (words + 1)) := by
        rw [BitVec.lt_def, byteAt_toNat _ _ (by omega), byteAt_toNat _ _ room]
        omega
      obtain ⟨zeroed, ends, memory, stores⟩ := ih (words + fuel) (offset + 4)
        (boot.store (byteAt nsRamStart offset) 0) (by omega) (by omega)
      have stop : offset + 4 + 4 * words = offset + 4 * (words + 1) := by omega
      have next : byteAt nsRamStart (offset + 4) = byteAt nsRamStart offset + 4 :=
        (byteAt_byteAt nsRamStart offset 4).symm
      rw [stop, next] at ends
      rw [next] at memory
      refine ⟨zeroed, ?_, ?_, ?_⟩
      · rw [zeroBss, if_pos goesOn]
        exact ends
      · rw [memory, List.replicate_succ, storeWords]
        rfl
      · intro store member
        rcases stores store member with earlier | ⟨index, below, same⟩
        · rcases List.mem_cons.mp earlier with first | before
          · exact Or.inr ⟨0, Nat.succ_pos words, first⟩
          · exact Or.inl before
        · exact Or.inr ⟨index + 1, Nat.succ_lt_succ below, by rw [same]; congr 1; omega⟩

theorem ns_main_reached (memory : Memory 32) (fuel : Nat) (stored : StoredAt image memory)
    (enough : image.bssWords ≤ fuel) :
    ∃ boot, nsMainBegins image fuel memory = some boot ∧
      boot.mem = storeWords (launchNonsecure ⟨memory, []⟩).1.mem image.bssStart
        (List.replicate image.bssWords 0) ∧
      ∀ store ∈ boot.stores, ∃ offset, offset + 4 ≤ 0x3C000 ∧ store = byteAt nsRamStart offset := by
  have room := image_room image
  have start : nsRamStart.toNat = 0x20040000 := by decide
  obtain ⟨boot, ends, mem, stores⟩ := zero_bss_spec image.bssWords fuel image.loadable.length
    (launchNonsecure ⟨memory, []⟩).1 (by omega) enough
  refine ⟨boot, ?_, mem, ?_⟩
  · rw [nsMainBegins]
    simp only [launched_entry image memory stored, if_true]
    exact ends
  · intro store member
    rcases stores store member with copied | ⟨index, below, same⟩
    · rcases copy_image_stores _ _ store copied with before | ⟨index, below, same⟩
      · exact absurd before (List.not_mem_nil)
      · have rounds : (nsImageCopyBytes / 4).toNat = 0x4000 := by decide
        exact ⟨4 * index, by omega, same⟩
    · exact ⟨_, by omega, same⟩

/-- Everything but the loadable bytes is as linked in any case, and those are exactly when
what the copy loop leaves out was there before. -/
theorem started_iff (memory : Memory 32) (fuel : Nat) (stored : StoredAt image memory)
    (enough : image.bssWords ≤ fuel) :
    ∃ boot, nsMainBegins image fuel memory = some boot ∧
      (Started image boot ↔ RestPresent image memory) := by
  obtain ⟨boot, reached, mem, stores⟩ := ns_main_reached image memory fuel stored enough
  have room := image_room image
  have start : nsRamStart.toNat = 0x20040000 := by decide
  have size : (List.replicate image.bssWords (0 : Word)).length = image.bssWords :=
    List.length_replicate
  have kept (index : Nat) (inside : index < image.loadable.length) :
      boot.mem (byteAt nsRamStart index) =
        (launchNonsecure ⟨memory, []⟩).1.mem (byteAt nsRamStart index) := by
    rw [mem, storeWords_outside]
    rw [size]
    apply parts_apart nsRamStart _ 0 image.loadable.length image.loadable.length
      (4 * image.bssWords) (by omega) (by omega)
    rw [byteAt_zero]
    exact within_byteAt _ _ _ inside (by omega)
  refine ⟨boot, reached, fun started index beyond inside => ?_, fun present => ⟨?_, ?_, ?_⟩⟩
  · rw [← started.loaded index inside, kept index inside,
      launched_rest memory index beyond (by omega)]
  · intro index inside
    rw [kept index inside]
    by_cases reaches : index < nsImageCopyBytes.toNat
    · exact launched_byte image memory stored index inside reaches
    · rw [launched_rest memory index (Nat.le_of_not_lt reaches) (by omega)]
      exact present index (Nat.le_of_not_lt reaches) inside
  · intro index below
    rw [mem, load32_storeWords _ _ _ (by rw [size]; omega) index (by rw [size]; exact below),
      List.getElem_replicate]
  · intro store member address inside
    obtain ⟨offset, low, rfl⟩ := stores store member
    exact below_mailbox offset 4 address (by rw [show nsMailboxAddr.toNat = 0x2007C000 from rfl]; omega)
      inside

def flashed (ram : Memory 32) : Memory 32 := storeBytes ram nsFlashStart image.loadable

theorem flashed_stored (ram : Memory 32) : StoredAt image (flashed image ram) := by
  intro index inside
  have room := image_room image
  exact storeBytes_inside ram nsFlashStart image.loadable (by omega) index inside

theorem flashed_ram (ram : Memory 32) (index : Nat) (inside : index < 0x3C000) :
    flashed image ram (byteAt nsRamStart index) = ram (byteAt nsRamStart index) := by
  have room := image_room image
  apply storeBytes_outside
  rw [show nsRamStart = byteAt nsFlashStart 0xFF40000 from rfl, byteAt_byteAt, Within,
    offset_byteAt _ _ (by omega)]
  omega

/-- An image longer than the copy loop meets a RAM from which it does not start as linked. -/
theorem long_image_truncated (byte : Byte) (long : nsImageCopyBytes.toNat < image.loadable.length)
    (differs : byte ≠ image.loadable[nsImageCopyBytes.toNat]) :
    ¬ RestPresent image (flashed image fun _ => byte) := by
  intro present
  have here := present nsImageCopyBytes.toNat (Nat.le_refl _) long
  rw [flashed_ram image _ _ (by decide)] at here
  exact differs here

/-- `ns_main` always begins, with `.bss` zeroed and the mailbox and stack range unwritten. The
image is there as linked if and only if what it has beyond the first 64 KB was in RAM before;
it is there whatever RAM held if and only if its loadable part has at most 64 KB. -/
theorem linked_image_starts_iff (fuel : Nat) (enough : image.bssWords ≤ fuel) :
    (∀ memory, StoredAt image memory → ∃ boot, nsMainBegins image fuel memory = some boot ∧
      (Started image boot ↔ RestPresent image memory)) ∧
    ((∀ memory, StoredAt image memory →
        ∃ boot, nsMainBegins image fuel memory = some boot ∧ Started image boot) ↔
      image.loadable.length ≤ nsImageCopyBytes.toNat) := by
  refine ⟨fun memory stored => started_iff image memory fuel stored enough, fun starts => ?_, ?_⟩
  · by_contra long
    have reached : nsImageCopyBytes.toNat < image.loadable.length := Nat.lt_of_not_le long
    have differs (byte : Byte) : byte + 1 ≠ byte := by bv_omega
    have stored := flashed_stored image fun _ => image.loadable[nsImageCopyBytes.toNat] + 1
    obtain ⟨boot, begins, started⟩ := starts _ stored
    obtain ⟨other, same, exact⟩ := started_iff image _ fuel stored enough
    obtain rfl : boot = other := Option.some.inj (begins.symm.trans same)
    exact long_image_truncated image _ reached (differs _) (exact.mp started)
  · intro short memory stored
    obtain ⟨boot, begins, exact⟩ := started_iff image memory fuel stored enough
    refine ⟨boot, begins, exact.mpr fun index beyond inside => ?_⟩
    exact absurd inside (Nat.not_lt.mpr (Nat.le_trans short beyond))

def tableSections (table : List Byte) : NsSections where
  nsReset := 0x20040011
  nsDefaultHandler := 0x20040015
  text := [0xFE, 0xE7, 0x00, 0xBF, 0xFE, 0xE7, 0x00, 0xBF]
  rodata := []
  data := table
  bssWords := 4

theorem table_sections_length (table : List Byte) :
    (tableSections table).loadable.length = 24 + table.length := by
  rw [NsSections.loadable, List.length_append]
  rfl

theorem table_sections_byte (table : List Byte) (index : Nat) :
    (tableSections table).loadable[24 + index]? = table[index]? :=
  (List.getElem?_append_right (Nat.le_add_right 24 index)).trans
    (congrArg (table[·]?) (Nat.add_sub_cancel_left 24 index))

def tableImage (table : List Byte) (words : 4 ∣ table.length) (small : table.length ≤ 0x3B000) :
    NsImage where
  toNsSections := tableSections table
  aligned := by simpa [tableSections] using words
  entries := by
    intro entry member
    have thumb (code : Word) (either : code = 0x20040011 ∨ code = 0x20040015) :
        code &&& 1 = 1 ∧ Within (byteAt nsRamStart 16) 8 (code &&& ~~~ 1) := by
      rcases either with rfl | rfl <;> decide
    exact thumb entry (by simpa [tableSections] using member)
  guard := by
    have start : nsRamStart.toNat = 0x20040000 := by decide
    have mailbox : nsMailboxAddr.toNat = 0x2007C000 := by decide
    have bss : (tableSections table).bssWords = 4 := rfl
    rw [table_sections_length]
    omega

def smallImage : NsImage := tableImage [1, 2, 3, 4] (by decide) (by decide)

theorem small_image_starts_iff :
    (∀ memory, StoredAt smallImage memory → ∃ boot, nsMainBegins smallImage 4 memory = some boot ∧
      (Started smallImage boot ↔ RestPresent smallImage memory)) ∧
    ((∀ memory, StoredAt smallImage memory →
        ∃ boot, nsMainBegins smallImage 4 memory = some boot ∧ Started smallImage boot) ↔
      smallImage.loadable.length ≤ nsImageCopyBytes.toNat) :=
  linked_image_starts_iff smallImage 4 (by decide)

/-- The linker script accepts a table of 64 KB. -/
def largeImage : NsImage :=
  tableImage (List.replicate 0x10000 0x5A) (by rw [List.length_replicate]; decide)
    (by rw [List.length_replicate]; decide)

theorem large_image_byte (long : nsImageCopyBytes.toNat < largeImage.loadable.length) :
    largeImage.loadable[nsImageCopyBytes.toNat] = 0x5A := by
  have entry := table_sections_byte (List.replicate 0x10000 0x5A) (0x10000 - 24)
  rw [List.getElem?_replicate_of_lt (by decide)] at entry
  exact (List.getElem_of_getElem? entry).2

/-- Over cleared RAM the end of the table is missing when `ns_main` begins. -/
theorem large_image_starts_truncated :
    StoredAt largeImage (flashed largeImage fun _ => 0) ∧
      ∃ boot, nsMainBegins largeImage 4 (flashed largeImage fun _ => 0) = some boot ∧
        ¬ Started largeImage boot := by
  have stored := flashed_stored largeImage fun _ => 0
  have long : nsImageCopyBytes.toNat < largeImage.loadable.length := by
    have size := table_sections_length (List.replicate 0x10000 0x5A)
    rw [List.length_replicate] at size
    exact Nat.lt_of_lt_of_eq (by decide) size.symm
  obtain ⟨boot, begins, exact⟩ := started_iff largeImage _ 4 stored (Nat.le_refl 4)
  refine ⟨stored, boot, begins, fun started => ?_⟩
  exact long_image_truncated largeImage 0 long (by rw [large_image_byte]; decide) (exact.mp started)

end Rp2350Tee.NonSecureImage
