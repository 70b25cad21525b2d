import Mathlib.Data.List.DropRight
import Rp2350Tee.ByteMemory
import Rp2350Tee.TextDump

/-!
`scripts/read_tfm_results.sh`: the two arrays of `struct test_suite_t` are
dumped as text by OpenOCD, told apart by how the lines start, and walked five
words at a time. What the walk counts is compared with the suites that the
memory words themselves spell out.
-/

namespace Rp2350Tee.ResultScript

open ByteMemory TextDump

abbrev Word := BitVec 32

def hex8 (word : Word) : Line := hexDigits 8 word.toNat

/-- A line of `mdw`: the address of its first word, then each word with a space behind it. -/
def mdwLine (address : Word) (words : List Word) : Line :=
  '0' :: 'x' :: (hex8 address ++ ':' :: ' ' :: words.flatMap fun word => hex8 word ++ [' '])

def mdwLines (lines : List (Word × List Word)) : List Line :=
  lines.map fun line => mdwLine line.1 line.2

def dumpWords (memory : Memory 32) (address : Word) (count : Nat) : List Word :=
  (List.range count).map fun index => load32 memory (byteAt address (4 * index))

/-- The words from `address` on in groups of the given sizes, each with the address it starts at. -/
def blocks (memory : Memory 32) (address : Word) : List Nat → List (Word × List Word)
  | [] => []
  | size :: rest =>
      (address, dumpWords memory address size) :: blocks memory (byteAt address (4 * size)) rest

/-- A run of OpenOCD: how `mdw` groups the words it dumps into lines, and what else is printed
before, between and after the two dumps. -/
structure Openocd where
  groups : Nat → List Nat
  covers : ∀ count, (groups count).sum = count
  nonempty : ∀ count, ∀ size ∈ groups count, 0 < size
  before : List Line
  between : List Line
  after : List Line
  quiet : ∀ line ∈ before ++ between ++ after, ['0', 'x'].isPrefixOf line = false

namespace Openocd

variable (openocd : Openocd)

def mdw (memory : Memory 32) (address : Word) (count : Nat) : List Line :=
  mdwLines (blocks memory address (openocd.groups count))

end Openocd

/-! The script. -/

/-- What the environment may override; an empty variable is one that is not set. -/
structure Overrides where
  nsAddr : Option Word
  sAddr : Option Word
  readWords : Option Nat

def defaults : Overrides := ⟨none, none, none⟩

def nsAddr (env : Overrides) : Word := env.nsAddr.getD 0x2004001c

def sAddr (env : Overrides) : Word := env.sAddr.getD 0x20015008

def readWords (env : Overrides) : Nat := env.readWords.getD 60

/-- The lines of `"$(command)"`: empty lines at the end are dropped. -/
def captured (lines : List Line) : List Line := lines.rdropWhile List.isEmpty

/-- The lines that `printf '%s\n'` makes of a text: one, if it is empty. -/
def printed : List Line → List Line
  | [] => [[]]
  | lines => lines

/-- `grep -E '^start'`. -/
def grep (start : Line) (lines : List Line) : List Line := lines.filter (start.isPrefixOf ·)

def raw (openocd : Openocd) (env : Overrides) (memory : Memory 32) : List Line :=
  captured (openocd.before ++ openocd.mdw memory (nsAddr env) (readWords env) ++
    openocd.between ++ openocd.mdw memory (sAddr env) (readWords env) ++ openocd.after)

def nsLines (raw : List Line) : List Line :=
  captured (grep ['0', 'x', '2', '0', '0', '4'] (printed raw))

def sLines (raw : List Line) : List Line :=
  captured (grep ['0', 'x', '2', '0', '0', '1'] (printed raw))

/-- The characters of `\s`. -/
def isSpace (char : Char) : Bool :=
  [' ', '\t', '\n', '\x0b', '\x0c', '\r'].contains char

def isBlank (char : Char) : Bool := [' ', '\t', '\n'].contains char

/-- `sed -E 's/^0x[0-9a-fA-F]+:\s*//'` on one line. -/
def stripAddress (line : Line) : Line :=
  match line with
  | '0' :: 'x' :: digits =>
      match digits.takeWhile isHexDigit, digits.dropWhile isHexDigit with
      | _ :: _, ':' :: words => words.dropWhile isSpace
      | _, _ => line
  | _ => line

/-- The array `w` of the awk program, once the input is read. -/
def suiteWords (lines : List Line) : List Line :=
  (printed lines).flatMap fun line => fields isBlank (stripAddress line)

structure Tally where
  total : Nat
  passed : Nat

/-- `val == "00000000" && list_size != "00000000"`. -/
def ok (listSize val : Line) : Bool :=
  val == ['0', '0', '0', '0', '0', '0', '0', '0'] &&
    listSize != ['0', '0', '0', '0', '0', '0', '0', '0']

/-- The loop of the awk program from index `i` on. -/
def walk (w : List Line) (i : Nat) (tally : Tally) : Tally :=
  if i + 4 < w.length then
    let freg := w.getD i []
    let listSize := w.getD (i + 2) []
    let val := w.getD (i + 4) []
    -- the end of the array
    if freg.take 2 ≠ ['1', '0'] then tally
    else walk w (i + 5)
      ⟨tally.total + 1, if ok listSize val then tally.passed + 1 else tally.passed⟩
  else tally
termination_by w.length - i

def judge (lines : List Line) : Tally := walk (suiteWords lines) 0 ⟨0, 0⟩

/-- What the test for `$OCD_BIN` and its run come to. -/
inductive Probe where
  | missing
  | failed
  | ran (openocd : Openocd)

structure Outcome where
  stdout : List String
  status : Nat

def summary (ns s : Tally) : List String :=
  ["--------------------------------------------------",
    s!"Non-Secure: {ns.passed}/{ns.total} passed",
    s!"Secure    : {s.passed}/{s.total} passed",
    s!"TOTAL     : {ns.passed + s.passed}/{ns.total + s.total} passed",
    "--------------------------------------------------"]

def verdict (ns s : Tally) : Outcome :=
  if 0 < ns.total + s.total ∧ ns.passed + s.passed = ns.total + s.total then
    ⟨summary ns s ++ ["RESULT: ALL PASSED"], 0⟩
  else
    ⟨summary ns s ++
      ["RESULT: FAILURE (or no suites found -- did the firmware run before this read?)"], 1⟩

def readTfmResults (probe : Probe) (env : Overrides) (memory : Memory 32) : Outcome :=
  match probe with
  | .missing => ⟨[], 2⟩
  | .failed => ⟨[], 2⟩
  | .ran openocd =>
      -- both calls of `judge` read the one stream
      let raw := raw openocd env memory
      verdict (judge (nsLines raw)) (judge (sLines raw))

theorem hex_not_space (char : Char) (hex : isHexDigit char = true) : isSpace char = false := by
  cases space : isSpace char with
  | false => rfl
  | true =>
      have member := List.contains_iff_mem.mp space
      simp only [List.mem_cons, List.not_mem_nil, or_false] at member
      rcases member with rfl | rfl | rfl | rfl | rfl | rfl <;> exact absurd hex (by decide)

theorem hex_not_blank (char : Char) (hex : isHexDigit char = true) : isBlank char = false := by
  have noSpace := hex_not_space char hex
  simp_all [isSpace, isBlank]

theorem hex8_cons (word : Word) :
    ∃ digit rest, hex8 word = digit :: rest ∧ isHexDigit digit = true :=
  ⟨_, _, rfl, hex_digits_hex 8 word.toNat _ List.mem_cons_self⟩

theorem strip_number (digits rest : Line) (some : digits ≠ [])
    (hex : ∀ char ∈ digits, isHexDigit char = true) :
    stripAddress ('0' :: 'x' :: (digits ++ ':' :: rest)) = rest.dropWhile isSpace := by
  have leading : (digits ++ ':' :: rest).takeWhile isHexDigit = digits := by
    rw [List.takeWhile_append_of_pos hex, List.takeWhile_cons_of_neg (by decide), List.append_nil]
  have trailing : (digits ++ ':' :: rest).dropWhile isHexDigit = ':' :: rest := by
    rw [List.dropWhile_append_of_pos hex, List.dropWhile_cons_of_neg (by decide)]
  cases digits with
  | nil => exact absurd rfl some
  | cons digit more => simp only [stripAddress, leading, trailing]

theorem strip_mdw (address : Word) (words : List Word) :
    stripAddress (mdwLine address words) = words.flatMap fun word => hex8 word ++ [' '] := by
  obtain ⟨digit, rest, shape, _⟩ := hex8_cons address
  have some : hex8 address ≠ [] := shape ▸ List.cons_ne_nil digit rest
  rw [mdwLine, strip_number _ _ some (hex_digits_hex 8 address.toNat),
    List.dropWhile_cons_of_pos (by decide)]
  cases words with
  | nil => rfl
  | cons word more =>
      obtain ⟨first, others, firstShape, hex⟩ := hex8_cons word
      rw [List.flatMap_cons, firstShape]
      exact List.dropWhile_cons_of_neg (by simp [hex_not_space first hex])

theorem fields_mdw (address : Word) (words : List Word) :
    fields isBlank (stripAddress (mdwLine address words)) = words.map hex8 := by
  have separated := fields_separated isBlank ' ' (by decide) (words.map hex8)
    (fun field member => by
      obtain ⟨word, _, rfl⟩ := List.mem_map.mp member
      obtain ⟨digit, rest, shape, _⟩ := hex8_cons word
      exact shape ▸ List.cons_ne_nil digit rest)
    (fun field member char inside => by
      obtain ⟨word, _, rfl⟩ := List.mem_map.mp member
      exact hex_not_blank char (hex_digits_hex 8 word.toNat char inside))
  rw [List.flatMap_map] at separated
  rw [strip_mdw, separated]

theorem suite_words_mdw (lines : List (Word × List Word)) :
    suiteWords (mdwLines lines) = (lines.flatMap Prod.snd).map hex8 := by
  cases lines with
  | nil => rfl
  | cons line rest =>
      change ((line :: rest).map fun line => mdwLine line.1 line.2).flatMap _ = _
      rw [List.flatMap_map, List.map_flatMap]
      simp only [fields_mdw]

structure Suite where
  freg : Word
  testList : Word
  listSize : Word
  name : Word
  val : Word
deriving DecidableEq

def flashPointer (freg : Word) : Bool := freg.toNat / 2 ^ 24 == 0x10

def Suite.passes (suite : Suite) : Bool := suite.val == 0 && suite.listSize != 0

/-- The complete structs up to the first whose `freg` is no flash pointer. -/
def suites : List Word → List Suite
  | freg :: testList :: listSize :: name :: val :: rest =>
      if flashPointer freg then ⟨freg, testList, listSize, name, val⟩ :: suites rest else []
  | _ => []

theorem hex8_inj (first second : Word) : hex8 first = hex8 second ↔ first = second := by
  have firstFits : first.toNat < 16 ^ 8 := first.isLt
  have secondFits : second.toNat < 16 ^ 8 := second.isLt
  rw [hex8, hex8, hex_digits_inj, Nat.mod_eq_of_lt firstFits, Nat.mod_eq_of_lt secondFits,
    BitVec.toNat_inj]

theorem ok_passes (suite : Suite) : ok (hex8 suite.listSize) (hex8 suite.val) = suite.passes := by
  have zeros : ['0', '0', '0', '0', '0', '0', '0', '0'] = hex8 0 := by decide
  rw [ok, zeros, Bool.eq_iff_iff]
  simp [Suite.passes, hex8_inj]

theorem hex8_flash (freg : Word) : (hex8 freg).take 2 = ['1', '0'] ↔ flashPointer freg = true := by
  have tag : ['1', '0'] = hexDigits 2 0x10 := by decide
  have fits : 0x10 % 16 ^ 2 = 0x10 := by decide
  have top : freg.toNat / 16 ^ 6 % 16 ^ 2 = freg.toNat / 2 ^ 24 :=
    Nat.mod_eq_of_lt (Nat.div_lt_of_lt_mul freg.isLt)
  rw [hex8, tag, hex_digits_take 2 6, hex_digits_inj, top, fits, flashPointer,
    beq_iff_eq]

theorem few_words (words : List Word)
    (short : ∀ freg testList listSize name val rest,
      words = freg :: testList :: listSize :: name :: val :: rest → False) : words.length < 5 := by
  match words with
  | [] | [_] | [_, _] | [_, _, _] | [_, _, _, _] => simp
  | freg :: testList :: listSize :: name :: val :: rest =>
      exact (short freg testList listSize name val rest rfl).elim

theorem cell_of_drop (w rest : List Line) (i offset : Nat) (here : w.drop i = rest) :
    w.getD (i + offset) [] = rest.getD offset [] := by
  rw [← here, List.getD_eq_getElem?_getD, List.getD_eq_getElem?_getD, List.getElem?_drop]

theorem remaining (w : List Line) (words : List Word) (i : Nat) (here : w.drop i = words.map hex8) :
    w.length - i = words.length := by
  rw [← List.length_drop, here, List.length_map]

/-- From an index on, the walk counts the suites that the words from there spell out. -/
theorem walk_suites (w : List Line) (words : List Word) (i : Nat) (tally : Tally)
    (here : w.drop i = words.map hex8) :
    walk w i tally =
      ⟨tally.total + (suites words).length, tally.passed + (suites words).countP Suite.passes⟩ := by
  have size := remaining w words i here
  -- one struct after the other, as `suites` takes them off
  fun_induction suites words generalizing i tally with
  | case1 first testList listSize name val rest flash ih =>
      have inside : i + 4 < w.length := by
        simp only [List.length_cons] at size
        omega
      have next : w.drop (i + 5) = rest.map hex8 := by
        rw [← List.drop_drop, here]
        rfl
      have freg : w.getD i [] = hex8 first := cell_of_drop w _ i 0 here
      have third : w.getD (i + 2) [] = hex8 listSize := cell_of_drop w _ i 2 here
      have fifth : w.getD (i + 4) [] = hex8 val := cell_of_drop w _ i 4 here
      have passes := ok_passes ⟨first, testList, listSize, name, val⟩
      rw [walk, if_pos inside]
      simp only [freg, third, fifth, hex8_flash, flash, passes, not_true_eq_false, ne_eq, if_false]
      rw [ih (i + 5) _ next (remaining w rest (i + 5) next), List.length_cons, List.countP_cons]
      cases ((⟨first, testList, listSize, name, val⟩ : Suite).passes) with
      | true => simp [Nat.add_assoc, Nat.add_comm]
      | false => simp [Nat.add_assoc, Nat.add_comm]
  | case2 first testList listSize name val rest noFlash =>
      have freg : w.getD i [] = hex8 first := cell_of_drop w _ i 0 here
      have noTag : (hex8 first).take 2 ≠ ['1', '0'] := mt (hex8_flash first).mp noFlash
      rw [walk]
      simp only [freg, noTag, ne_eq, not_false_eq_true, if_true, ite_self]
      rfl
  | case3 words short =>
      have few := few_words words short
      rw [walk, if_neg (by omega)]
      rfl

/-- What is judged are the words of the dump, however they are broken into lines. -/
theorem judge_mdw (lines : List (Word × List Word)) :
    judge (mdwLines lines) =
      ⟨(suites (lines.flatMap Prod.snd)).length,
        (suites (lines.flatMap Prod.snd)).countP Suite.passes⟩ := by
  rw [judge, suite_words_mdw, walk_suites _ (lines.flatMap Prod.snd) 0 ⟨0, 0⟩ rfl, Nat.zero_add,
    Nat.zero_add]

/-- No struct starts with these words: there are too few, or the first is no flash pointer. -/
def Stops (rest : List Word) : Prop :=
  rest.length < 5 ∨ ∃ freg more, rest = freg :: more ∧ flashPointer freg = false

theorem stops_suites (rest : List Word) (stops : Stops rest) : suites rest = [] := by
  rcases stops with few | ⟨freg, more, rfl, noFlash⟩
  · match rest, few with
    | [], _ | [_], _ | [_, _], _ | [_, _, _], _ | [_, _, _, _], _ => rfl
  · match more with
    | [] | [_] | [_, _] | [_, _, _] => rfl
    | _ :: _ :: _ :: _ :: _ => rw [suites, noFlash]; rfl

/-- Behind whole structs, words from which no struct starts change nothing. -/
theorem suites_append (front rest : List Word) (whole : 5 ∣ front.length) (stops : Stops rest) :
    suites (front ++ rest) = suites front := by
  fun_induction suites front with
  | case1 first testList listSize name val more flash ih =>
      simp only [List.length_cons] at whole
      simp only [List.cons_append, suites, flash, if_true]
      rw [ih (by omega)]
  | case2 first testList listSize name val more noFlash =>
      simp [List.cons_append, suites, noFlash]
  | case3 front short =>
      have few := few_words front short
      obtain rfl := List.length_eq_zero_iff.mp (Nat.eq_zero_of_dvd_of_lt whole few)
      exact stops_suites rest stops

/-- The counts depend on the words alone, and not on those behind the end of the array. -/
theorem judge_counts_suites (lines : List (Word × List Word)) :
    judge (mdwLines lines) =
        ⟨(suites (lines.flatMap Prod.snd)).length,
          (suites (lines.flatMap Prod.snd)).countP Suite.passes⟩ ∧
      ∀ front rest, lines.flatMap Prod.snd = front ++ rest → 5 ∣ front.length → Stops rest →
        judge (mdwLines lines) = ⟨(suites front).length, (suites front).countP Suite.passes⟩ := by
  constructor
  · exact judge_mdw lines
  · intro front rest split whole stops
    rw [judge_mdw, split, suites_append front rest whole stops]

/-- Two whole structs over three lines, the second of them failed, and the end of the array. -/
theorem wrapped_lines_counted :
    judge (mdwLines [(0x2004001c, [0x10001000, 0x20040100, 3]), (0x20040028, [0x10002000, 0, 0x10001001]),
      (0x20040034, [0x20040200, 2, 0x10002001, 7, 0, 5])]) = ⟨2, 1⟩ :=
  (judge_counts_suites [(0x2004001c, [0x10001000, 0x20040100, 3]),
    (0x20040028, [0x10002000, 0, 0x10001001]),
    (0x20040034, [0x20040200, 2, 0x10002001, 7, 0, 5])]).2
    [0x10001000, 0x20040100, 3, 0x10002000, 0, 0x10001001, 0x20040200, 2, 0x10002001, 7] [0, 5] rfl
    (by decide) (Or.inl (by decide))

theorem grep_captured (start : Line) (some : start ≠ []) (lines : List Line) :
    grep start (captured lines) = grep start lines := by
  induction lines using List.reverseRecOn with
  | nil => rfl
  | append_singleton front line ih =>
      cases line with
      | nil =>
          have unmatched : start.isPrefixOf ([] : Line) = false := by
            cases start with
            | nil => exact absurd rfl some
            | cons char rest => rfl
          rw [captured, List.rdropWhile_concat_pos _ _ _ rfl, ← captured, ih, grep, grep,
            List.filter_append, List.filter_singleton, unmatched]
          simp
      | cons char rest => rw [captured, List.rdropWhile_concat_neg _ _ _ (by simp)]

theorem captured_grep (start : Line) (some : start ≠ []) (lines : List Line) :
    captured (grep start lines) = grep start lines := by
  rw [captured, List.rdropWhile_eq_self_iff]
  intro found empty
  have matched := (List.mem_filter.mp (List.getLast_mem found)).2
  rw [List.isEmpty_iff.mp empty, List.isPrefixOf_iff_prefix, List.prefix_nil] at matched
  exact some matched

theorem grep_printed (start : Line) (some : start ≠ []) (lines : List Line) :
    grep start (printed lines) = grep start lines := by
  cases lines with
  | cons line rest => rfl
  | nil =>
      cases start with
      | nil => exact absurd rfl some
      | cons char rest => rfl

/-- The address lies in the 64 KB that start at `half * 0x10000`. -/
def inBlock (half : Nat) (address : Word) : Bool := address.toNat / 2 ^ 16 == half

theorem line_starts (half : Nat) (small : half < 2 ^ 16) (address : Word) (words : List Word) :
    ('0' :: 'x' :: hexDigits 4 half).isPrefixOf (mdwLine address words) = inBlock half address := by
  have top : address.toNat / 16 ^ 4 % 16 ^ 4 = address.toNat / 2 ^ 16 :=
    Nat.mod_eq_of_lt (Nat.div_lt_of_lt_mul address.isLt)
  have fits : half % 16 ^ 4 = half := Nat.mod_eq_of_lt small
  have front (rest : Line) : (hex8 address ++ rest).take 4 = hexDigits 4 (address.toNat / 16 ^ 4) := by
    rw [List.take_append_of_le_length (by rw [hex8, hex_digits_length]; decide), hex8,
      hex_digits_take 4 4]
  rw [Bool.eq_iff_iff, List.isPrefixOf_iff_prefix, mdwLine, List.cons_prefix_cons,
    List.cons_prefix_cons, List.prefix_iff_eq_take, hex_digits_length, front, hex_digits_inj, top,
    fits, inBlock, beq_iff_eq]
  simp [eq_comm]

theorem grep_mdw (half : Nat) (small : half < 2 ^ 16) (lines : List (Word × List Word)) :
    grep ('0' :: 'x' :: hexDigits 4 half) (mdwLines lines) =
      mdwLines (lines.filter fun line => inBlock half line.1) := by
  rw [grep, mdwLines, List.filter_map, mdwLines]
  congr 2
  funext line
  exact line_starts half small line.1 line.2

theorem grep_quiet (half : Nat) (lines : List Line)
    (quiet : ∀ line ∈ lines, ['0', 'x'].isPrefixOf line = false) :
    grep ('0' :: 'x' :: hexDigits 4 half) lines = [] := by
  refine List.filter_eq_nil_iff.mpr fun line member matched => ?_
  obtain ⟨rest, rfl⟩ := List.isPrefixOf_iff_prefix.mp matched
  exact absurd (quiet _ member) (by simp)

def dumped (openocd : Openocd) (env : Overrides) (memory : Memory 32) : List (Word × List Word) :=
  blocks memory (nsAddr env) (openocd.groups (readWords env)) ++
    blocks memory (sAddr env) (openocd.groups (readWords env))

/-- What one pattern finds are the lines of either dump whose address lies in its 64 KB. -/
theorem split_dumped (openocd : Openocd) (env : Overrides) (memory : Memory 32) (half : Nat)
    (small : half < 2 ^ 16) :
    captured (grep ('0' :: 'x' :: hexDigits 4 half) (printed (raw openocd env memory))) =
      mdwLines ((dumped openocd env memory).filter fun line => inBlock half line.1) := by
  have some : '0' :: 'x' :: hexDigits 4 half ≠ [] := List.cons_ne_nil _ _
  have quiet := openocd.quiet
  simp only [List.mem_append, or_imp, forall_and] at quiet
  rw [captured_grep _ some, grep_printed _ some, raw, grep_captured _ some]
  have parts (first second : List Line) :
      grep ('0' :: 'x' :: hexDigits 4 half) (first ++ second) =
        grep ('0' :: 'x' :: hexDigits 4 half) first ++ grep ('0' :: 'x' :: hexDigits 4 half) second :=
    List.filter_append ..
  rw [parts, parts, parts, parts, grep_quiet half _ quiet.1.1, grep_quiet half _ quiet.1.2,
    grep_quiet half _ quiet.2, Openocd.mdw, Openocd.mdw, grep_mdw half small, grep_mdw half small,
    dumped, List.filter_append]
  simp [mdwLines]

theorem ns_lines_dumped (openocd : Openocd) (env : Overrides) (memory : Memory 32) :
    nsLines (raw openocd env memory) =
      mdwLines ((dumped openocd env memory).filter fun line => inBlock 0x2004 line.1) :=
  split_dumped openocd env memory 0x2004 (by decide)

theorem s_lines_dumped (openocd : Openocd) (env : Overrides) (memory : Memory 32) :
    sLines (raw openocd env memory) =
      mdwLines ((dumped openocd env memory).filter fun line => inBlock 0x2001 line.1) :=
  split_dumped openocd env memory 0x2001 (by decide)

theorem dump_words_add (memory : Memory 32) (address : Word) (first second : Nat) :
    dumpWords memory address (first + second) =
      dumpWords memory address first ++ dumpWords memory (byteAt address (4 * first)) second := by
  rw [dumpWords, List.range_add, List.map_append, List.map_map, dumpWords, dumpWords]
  congr 2
  funext index
  rw [Function.comp_apply, byteAt_byteAt, Nat.mul_add]

theorem dump_words_succ (memory : Memory 32) (address : Word) (count : Nat) :
    dumpWords memory address (count + 1) =
      load32 memory address :: dumpWords memory (byteAt address 4) count := by
  rw [Nat.add_comm, dump_words_add, dumpWords, List.range_one, List.map_singleton, Nat.mul_zero,
    byteAt_zero, List.singleton_append]

theorem blocks_words (memory : Memory 32) (address : Word) (groups : List Nat) :
    (blocks memory address groups).flatMap Prod.snd = dumpWords memory address groups.sum := by
  induction groups generalizing address with
  | nil => rfl
  | cons size rest ih => rw [blocks, List.flatMap_cons, ih, List.sum_cons, dump_words_add]

def lineAddresses (address : Word) : List Nat → List Word
  | [] => []
  | size :: rest => address :: lineAddresses (byteAt address (4 * size)) rest

theorem blocks_addresses (memory : Memory 32) (address : Word) (groups : List Nat) :
    (blocks memory address groups).map Prod.fst = lineAddresses address groups := by
  induction groups generalizing address with
  | nil => rfl
  | cons size rest ih => rw [blocks, List.map_cons, ih, lineAddresses]

theorem line_address (address : Word) (groups : List Nat) (positive : ∀ size ∈ groups, 0 < size)
    (line : Word) (member : line ∈ lineAddresses address groups) :
    ∃ index < groups.sum, line = byteAt address (4 * index) := by
  induction groups generalizing address with
  | nil => exact absurd member List.not_mem_nil
  | cons size rest ih =>
      have first := positive size List.mem_cons_self
      rw [List.sum_cons]
      rcases List.mem_cons.mp member with rfl | later
      · exact ⟨0, by omega, (byteAt_zero line).symm⟩
      · obtain ⟨index, inside, same⟩ :=
          ih _ (fun other found => positive other (List.mem_cons_of_mem _ found)) later
        exact ⟨size + index, by omega, by rw [same, byteAt_byteAt, Nat.mul_add]⟩

/-- The words that each world's call of `judge` finds are those of its own dump. -/
def OwnDumps (openocd : Openocd) (env : Overrides) : Prop :=
  ∀ memory : Memory 32,
    suiteWords (nsLines (raw openocd env memory)) =
      (dumpWords memory (nsAddr env) (readWords env)).map hex8 ∧
    suiteWords (sLines (raw openocd env memory)) =
      (dumpWords memory (sAddr env) (readWords env)).map hex8

/-- Every line of the dump from `address` on has its address in the 64 KB of `half`. -/
def DumpInBlock (openocd : Openocd) (env : Overrides) (half : Nat) (address : Word) : Prop :=
  ∀ line ∈ lineAddresses address (openocd.groups (readWords env)), inBlock half line = true

/-- The memory where each word holds its own address. -/
def addressMemory : Memory 32 := fun address =>
  (address - BitVec.ofNat 32 (address.toNat % 4)).extractLsb' (8 * (address.toNat % 4)) 8

theorem load32_addressMemory (address : Word) (aligned : address.toNat % 4 = 0) :
    load32 addressMemory address = address := by
  have byte (index : Nat) (below : index < 4) :
      addressMemory (byteAt address index) = address.extractLsb' (8 * index) 8 := by
    have value := byteAt_toNat address index (by omega)
    have offset : (byteAt address index).toNat % 4 = index := by omega
    rw [addressMemory, offset, byteAt, BitVec.add_sub_cancel]
  have first := byte 0 (by decide)
  rw [byteAt_zero] at first
  rw [load32, byte 1 (by decide), byte 2 (by decide), byte 3 (by decide), first]
  exact word_of_bytes address

theorem blocks_start (address : Word) (aligned : address.toNat % 4 = 0) (groups : List Nat)
    (positive : ∀ size ∈ groups, 0 < size) :
    ∀ block ∈ blocks addressMemory address groups, Starts id block := by
  induction groups generalizing address with
  | nil => exact fun block member => absurd member List.not_mem_nil
  | cons size rest ih =>
      intro block member
      have first := positive size List.mem_cons_self
      rcases List.mem_cons.mp member with rfl | later
      · have words := dump_words_succ addressMemory address (size - 1)
        rw [Nat.sub_add_cancel first, load32_addressMemory address aligned] at words
        exact ⟨address, _, words, rfl⟩
      · have step : (byteAt address (4 * size)).toNat % 4 = 0 := by
          rw [byteAt, BitVec.toNat_add, BitVec.toNat_ofNat]
          omega
        exact ih _ step (fun other found => positive other (List.mem_cons_of_mem _ found)) block later

theorem blocks_all_in (half : Nat) (memory : Memory 32) (address : Word) (groups : List Nat) :
    (∀ block ∈ blocks memory address groups, inBlock half block.1 = true) ↔
      ∀ line ∈ lineAddresses address groups, inBlock half line = true := by
  rw [← blocks_addresses memory, List.forall_mem_map]

theorem in_block_one (half other : Nat) (differ : half ≠ other) (address : Word)
    (inside : inBlock half address = true) : inBlock other address = false := by
  rw [inBlock, beq_iff_eq] at inside
  rw [inBlock, inside, beq_eq_false_iff_ne]
  exact differ

theorem hex8_map_inj (first second : List Word) :
    first.map hex8 = second.map hex8 ↔ first = second :=
  List.map_inj_right fun one other same => (hex8_inj one other).mp same

theorem none_found (half : Nat) (lines : List (Word × List Word))
    (out : ∀ block ∈ lines, inBlock half block.1 = false) :
    lines.filter (fun line => inBlock half line.1) = [] := by
  refine List.filter_eq_nil_iff.mpr fun block member inside => ?_
  rw [out block member] at inside
  exact Bool.noConfusion inside

/-- With the Non-Secure dump in its own 64 KB, the Secure pattern chooses from the Secure dump. -/
theorem secure_found (openocd : Openocd) (env : Overrides) (memory : Memory 32)
    (ns : ∀ block ∈ blocks memory (nsAddr env) (openocd.groups (readWords env)),
      inBlock 0x2004 block.1 = true) :
    (dumped openocd env memory).filter (fun line => inBlock 0x2001 line.1) =
      (blocks memory (sAddr env) (openocd.groups (readWords env))).filter
        fun line => inBlock 0x2001 line.1 := by
  have nsOut := fun block member => in_block_one 0x2004 0x2001 (by decide) _ (ns block member)
  rw [dumped, List.filter_append, none_found 0x2001 _ nsOut, List.nil_append]

theorem dump_blocks (openocd : Openocd) (memory : Memory 32) (address : Word) (count : Nat) :
    dumpWords memory address count =
      (blocks memory address (openocd.groups count)).flatMap Prod.snd := by
  rw [blocks_words, openocd.covers]

theorem own_dumps (openocd : Openocd) (env : Overrides)
    (ns : DumpInBlock openocd env 0x2004 (nsAddr env))
    (s : DumpInBlock openocd env 0x2001 (sAddr env)) (memory : Memory 32) :
    nsLines (raw openocd env memory) =
        mdwLines (blocks memory (nsAddr env) (openocd.groups (readWords env))) ∧
      sLines (raw openocd env memory) =
        mdwLines (blocks memory (sAddr env) (openocd.groups (readWords env))) := by
  have nsIn := (blocks_all_in 0x2004 memory (nsAddr env) _).mpr ns
  have sIn := (blocks_all_in 0x2001 memory (sAddr env) _).mpr s
  have sOut := fun block member => in_block_one 0x2001 0x2004 (by decide) _ (sIn block member)
  -- no address starts with both patterns
  constructor
  · rw [ns_lines_dumped, dumped, List.filter_append, List.filter_eq_self.mpr nsIn,
      none_found 0x2004 _ sOut, List.append_nil]
  · rw [s_lines_dumped, secure_found openocd env memory nsIn, List.filter_eq_self.mpr sIn]

theorem dump_in_block (openocd : Openocd) (env : Overrides) (half : Nat) (address : Word)
    (above : half * 2 ^ 16 ≤ address.toNat)
    (below : address.toNat + 4 * readWords env ≤ (half + 1) * 2 ^ 16) (small : half < 2 ^ 16) :
    DumpInBlock openocd env half address := by
  intro line member
  obtain ⟨index, inside, rfl⟩ := line_address address _ (openocd.nonempty _) line member
  rw [openocd.covers] at inside
  rw [inBlock, beq_iff_eq, byteAt_toNat address _ (by omega)]
  omega

theorem default_blocks (openocd : Openocd) :
    DumpInBlock openocd defaults 0x2004 (nsAddr defaults) ∧
      DumpInBlock openocd defaults 0x2001 (sAddr defaults) := by
  constructor
  · exact dump_in_block _ _ _ _ (by decide) (by decide) (by decide)
  · exact dump_in_block _ _ _ _ (by decide) (by decide) (by decide)

/-- Eight words a line, as many as are left on the last. -/
def eightPerLine (count : Nat) : List Nat :=
  List.replicate (count / 8) 8 ++ if count % 8 = 0 then [] else [count % 8]

def plainOpenocd : Openocd where
  groups := eightPerLine
  covers := by
    intro count
    rw [eightPerLine, List.sum_append, List.sum_replicate_nat]
    split
    · rw [List.sum_nil]; omega
    · rw [List.sum_singleton]; omega
  nonempty := by
    intro count size member
    rw [eightPerLine, List.mem_append] at member
    rcases member with full | last
    · rw [List.eq_of_mem_replicate full]; decide
    · split at last
      · exact absurd last List.not_mem_nil
      · rw [List.mem_singleton.mp last]; omega
  before := []
  between := []
  after := []
  quiet := fun line member => absurd member List.not_mem_nil

/-- The dumps stay apart exactly when every line of each lies in the 64 KB its pattern stands for. -/
theorem own_dumps_iff (openocd : Openocd) (env : Overrides)
    (nsAligned : (nsAddr env).toNat % 4 = 0) (sAligned : (sAddr env).toNat % 4 = 0) :
    OwnDumps openocd env ↔
      DumpInBlock openocd env 0x2004 (nsAddr env) ∧ DumpInBlock openocd env 0x2001 (sAddr env) := by
  constructor
  · intro own
    -- with the addresses as contents the words tell which lines were found
    obtain ⟨nsWords, sWords⟩ := own addressMemory
    have positive := openocd.nonempty (readWords env)
    have nsStarts := blocks_start (nsAddr env) nsAligned _ positive
    have sStarts := blocks_start (sAddr env) sAligned _ positive
    rw [ns_lines_dumped, suite_words_mdw, hex8_map_inj, dump_blocks openocd, dumped,
      kept_blocks_iff (inBlock 0x2004) id _ _ nsStarts sStarts] at nsWords
    have alone := kept_blocks_iff (inBlock 0x2001) id _ [] sStarts
      fun block member => absurd member List.not_mem_nil
    rw [List.append_nil] at alone
    rw [s_lines_dumped, suite_words_mdw, hex8_map_inj, dump_blocks openocd,
      secure_found openocd env addressMemory nsWords.1, alone] at sWords
    exact ⟨(blocks_all_in 0x2004 addressMemory (nsAddr env) _).mp nsWords.1,
      (blocks_all_in 0x2001 addressMemory (sAddr env) _).mp sWords.1⟩
  · rintro ⟨ns, s⟩ memory
    obtain ⟨nsFound, sFound⟩ := own_dumps openocd env ns s memory
    rw [nsFound, sFound, suite_words_mdw, suite_words_mdw, ← dump_blocks, ← dump_blocks]
    exact ⟨rfl, rfl⟩

theorem default_dumps_apart : OwnDumps plainOpenocd defaults :=
  (own_dumps_iff plainOpenocd defaults (by decide) (by decide)).mpr (default_blocks plainOpenocd)

/-- A firmware whose Secure array was moved up by a few 64 KB. -/
def movedArray : Overrides := ⟨none, some 0x20025008, none⟩

/-- No line of the Secure dump is found, and no word of it is judged. -/
theorem moved_array_lost : ¬ OwnDumps plainOpenocd movedArray := by
  intro own
  have ns : DumpInBlock plainOpenocd movedArray 0x2004 (nsAddr movedArray) :=
    dump_in_block _ _ _ _ (by decide) (by decide) (by decide)
  have s : DumpInBlock plainOpenocd movedArray 0x2002 (sAddr movedArray) :=
    dump_in_block _ _ _ _ (by decide) (by decide) (by decide)
  have nsIn := (blocks_all_in 0x2004 addressMemory (nsAddr movedArray) _).mpr ns
  have sIn := (blocks_all_in 0x2002 addressMemory (sAddr movedArray) _).mpr s
  have sOut := fun block member => in_block_one 0x2002 0x2001 (by decide) _ (sIn block member)
  have words := (own addressMemory).2
  rw [s_lines_dumped, secure_found _ _ _ nsIn, none_found 0x2001 _ sOut] at words
  have count := congrArg List.length words
  rw [List.length_map, dumpWords, List.length_map, List.length_range] at count
  exact absurd count (by decide)

theorem suites_take (words : List Word) (count : Nat) :
    suites (words.take (5 * count)) = (suites words).take count := by
  induction count generalizing words with
  | zero => rfl
  | succ count ih =>
      -- too few words for a struct, or one struct and the rest
      match words with
      | [] | [_] | [_, _] | [_, _, _] | [_, _, _, _] => rfl
      | freg :: testList :: listSize :: name :: val :: rest =>
          rw [Nat.mul_succ]
          simp only [List.take_succ_cons, suites, ih]
          cases flashPointer freg with
          | true => rfl
          | false => rfl

def sramEnd : Nat := 0x20082000

/-- The array that starts at `base`, as far as it goes. -/
def suiteArray (memory : Memory 32) (base : Word) : List Suite :=
  suites (dumpWords memory base ((sramEnd - base.toNat) / 4))

theorem array_window (memory : Memory 32) (base : Word) (count : Nat)
    (fits : 5 * count ≤ (sramEnd - base.toNat) / 4) :
    suites (dumpWords memory base (5 * count)) = (suiteArray memory base).take count := by
  obtain ⟨more, size⟩ := Nat.exists_eq_add_of_le fits
  have width : (dumpWords memory base (5 * count)).length = 5 * count := by
    rw [dumpWords, List.length_map, List.length_range]
  rw [suiteArray, size, dump_words_add, ← suites_take, List.take_left' width]

def AllPassed (outcome : Outcome) : Prop :=
  "RESULT: ALL PASSED" ∈ outcome.stdout ∧ outcome.status = 0

theorem verdict_passes (ns s : Tally) :
    AllPassed (verdict ns s) ↔
      0 < ns.total + s.total ∧ ns.passed + s.passed = ns.total + s.total := by
  by_cases passed : 0 < ns.total + s.total ∧ ns.passed + s.passed = ns.total + s.total
  · rw [verdict, if_pos passed]
    exact iff_of_true ⟨List.mem_append_right _ List.mem_cons_self, rfl⟩ passed
  · rw [verdict, if_neg passed]
    exact iff_of_false (fun claimed => absurd claimed.2 Nat.one_ne_zero) passed

theorem script_passes (openocd : Openocd) (memory : Memory 32) :
    AllPassed (readTfmResults (.ran openocd) defaults memory) ↔
      (suiteArray memory 0x2004001c).take 12 ++ (suiteArray memory 0x20015008).take 12 ≠ [] ∧
      ∀ suite ∈ (suiteArray memory 0x2004001c).take 12 ++ (suiteArray memory 0x20015008).take 12,
        suite.passes = true := by
  obtain ⟨ns, s⟩ := default_blocks openocd
  obtain ⟨nsFound, sFound⟩ := own_dumps openocd defaults ns s memory
  have nsWindow := array_window memory (nsAddr defaults) 12 (by decide)
  have sWindow := array_window memory (sAddr defaults) 12 (by decide)
  have count : readWords defaults = 5 * 12 := rfl
  rw [readTfmResults, verdict_passes, nsFound, sFound, judge_mdw, judge_mdw, ← dump_blocks,
    ← dump_blocks, count, nsWindow, sWindow, ← List.length_append, ← List.countP_append,
    List.length_pos_iff, List.countP_eq_length]
  rfl

/-- Both worlds have come up and every suite of theirs has passed. -/
def BothPassed (memory : Memory 32) : Prop :=
  suiteArray memory 0x2004001c ≠ [] ∧ suiteArray memory 0x20015008 ≠ [] ∧
    ∀ suite ∈ suiteArray memory 0x2004001c ++ suiteArray memory 0x20015008, suite.passes = true

/-- What the dump shows has passed, but one world has no suites, or a suite behind the dumped ones
has failed. -/
def Misleading (memory : Memory 32) : Prop :=
  (∀ suite ∈ (suiteArray memory 0x2004001c).take 12 ++ (suiteArray memory 0x20015008).take 12,
    suite.passes = true) ∧
  ((suiteArray memory 0x2004001c = [] ↔ suiteArray memory 0x20015008 ≠ []) ∨
    ∃ suite ∈ (suiteArray memory 0x2004001c).drop 12 ++ (suiteArray memory 0x20015008).drop 12,
      suite.passes = false)

theorem passes_split (ns s : List Suite) :
    (∀ suite ∈ ns ++ s, suite.passes = true) ↔
      (∀ suite ∈ ns.take 12 ++ s.take 12, suite.passes = true) ∧
        ∀ suite ∈ ns.drop 12 ++ s.drop 12, suite.passes = true := by
  nth_rewrite 1 [← List.take_append_drop 12 ns, ← List.take_append_drop 12 s]
  simp only [List.forall_mem_append]
  exact and_and_and_comm

/-- The script reports success exactly when it is due, except where the dump misleads it. -/
theorem all_passed_iff (openocd : Openocd) (memory : Memory 32) :
    (AllPassed (readTfmResults (.ran openocd) defaults memory) ↔ BothPassed memory) ↔
      ¬ Misleading memory := by
  rw [script_passes, BothPassed, Misleading]
  generalize suiteArray memory 0x2004001c = ns
  generalize suiteArray memory 0x20015008 = s
  have parts := passes_split ns s
  have shown : ns.take 12 ++ s.take 12 ≠ [] ↔ ns ≠ [] ∨ s ≠ [] := by
    rw [ne_eq, List.append_eq_nil_iff, List.take_eq_nil_iff, List.take_eq_nil_iff, not_and_or]
    simp
  have failed : (∃ suite ∈ ns.drop 12 ++ s.drop 12, suite.passes = false) ↔
      ¬ ∀ suite ∈ ns.drop 12 ++ s.drop 12, suite.passes = true := by simp
  rw [parts, shown, failed]
  constructor
  · rintro agree ⟨first, alone | later⟩
    · have some : ns ≠ [] ∨ s ≠ [] := by
        by_cases empty : ns = []
        · exact Or.inr (alone.mp empty)
        · exact Or.inl empty
      obtain ⟨nsSome, sSome, _⟩ := agree.mp ⟨some, first⟩
      exact nsSome (alone.mpr sSome)
    · have some : ns ≠ [] ∨ s ≠ [] := by
        by_contra none
        rw [not_or, not_not, not_not] at none
        rw [none.1, none.2] at later
        exact later fun suite member => absurd member List.not_mem_nil
      exact later (agree.mp ⟨some, first⟩).2.2.2
  · intro fair
    constructor
    · rintro ⟨some, first⟩
      have rest := not_not.mp fun later => fair ⟨first, Or.inr later⟩
      have together : ¬ (ns = [] ↔ s ≠ []) := fun alone => fair ⟨first, Or.inl alone⟩
      have nsSome : ns ≠ [] := fun empty => together ⟨fun _ => some.resolve_left (· empty), fun _ => empty⟩
      have sSome : s ≠ [] := fun empty => together ⟨fun none => absurd none nsSome, fun none => absurd empty none⟩
      exact ⟨nsSome, sSome, first, rest⟩
    · rintro ⟨nsSome, _, first, _⟩
      exact ⟨Or.inl nsSome, first⟩

/-- One Secure suite that passed, and no Non-Secure suites. -/
def secureOnlyMemory : Memory 32 := fun address =>
  if address = 0x2001500B then 0x10 else if address = 0x20015010 then 1 else 0

theorem ns_never_came_up : suiteArray secureOnlyMemory 0x2004001c = [] := by
  have size : (sramEnd - (0x2004001c : Word).toNat) / 4 = 67576 + 1 := by decide
  rw [suiteArray, size, dump_words_succ]
  exact stops_suites _ (Or.inr ⟨_, _, rfl, by decide⟩)

theorem secure_suite_found :
    suiteArray secureOnlyMemory 0x20015008 = [⟨0x10000000, 0, 1, 0, 0⟩] := by
  have size : (sramEnd - (0x20015008 : Word).toNat) / 4 = 5 + (111608 + 1) := by decide
  rw [suiteArray, size, dump_words_add, suites_append]
  · decide
  · decide
  · rw [dump_words_succ]
    exact Or.inr ⟨_, _, rfl, by decide⟩

theorem secure_alone_all_passed :
    ¬ (AllPassed (readTfmResults (.ran plainOpenocd) defaults secureOnlyMemory) ↔
      BothPassed secureOnlyMemory) := by
  intro agree
  have claimed : AllPassed (readTfmResults (.ran plainOpenocd) defaults secureOnlyMemory) := by
    rw [script_passes, ns_never_came_up, secure_suite_found]
    decide
  exact (agree.mp claimed).1 ns_never_came_up

end Rp2350Tee.ResultScript
