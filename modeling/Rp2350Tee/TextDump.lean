import Mathlib.Algebra.Order.Ring.Nat
import Mathlib.Data.List.Basic

/-!
Lines of text as lists of characters: numbers in a fixed number of hexadecimal
digits, fields between blanks, and blocks of lines that are told apart by how
they start.
-/

namespace Rp2350Tee.TextDump

abbrev Line := List Char

/-- The lowest `width` hexadecimal digits, highest first. -/
def hexDigits : Nat → Nat → Line
  | 0, _ => []
  | width + 1, value => Nat.digitChar (value / 16 ^ width % 16) :: hexDigits width value

def isHexDigit (char : Char) : Bool :=
  ('0' ≤ char && char ≤ '9') || ('a' ≤ char && char ≤ 'f') || ('A' ≤ char && char ≤ 'F')

theorem digit_injective :
    ∀ first < 16, ∀ second < 16, Nat.digitChar first = Nat.digitChar second → first = second := by
  decide

theorem digit_is_hex : ∀ digit < 16, isHexDigit (Nat.digitChar digit) = true := by decide

theorem hex_digits_length (width value : Nat) : (hexDigits width value).length = width := by
  induction width with
  | zero => rfl
  | succ width ih => rw [hexDigits, List.length_cons, ih]

theorem hex_digits_hex (width value : Nat) :
    ∀ char ∈ hexDigits width value, isHexDigit char = true := by
  induction width with
  | zero => exact fun char member => absurd member List.not_mem_nil
  | succ width ih =>
      intro char member
      rcases List.mem_cons.mp member with rfl | later
      · exact digit_is_hex _ (Nat.mod_lt _ (by decide))
      · exact ih char later

theorem hex_digits_inj (width first second : Nat) :
    hexDigits width first = hexDigits width second ↔ first % 16 ^ width = second % 16 ^ width := by
  induction width with
  | zero => simp [hexDigits, Nat.mod_one]
  | succ width ih =>
      have positive : 0 < 16 ^ width := Nat.pow_pos (by decide)
      rw [hexDigits, hexDigits, List.cons.injEq, ih, Nat.mod_pow_succ, Nat.mod_pow_succ]
      constructor
      · rintro ⟨digit, rest⟩
        rw [digit_injective _ (Nat.mod_lt _ (by decide)) _ (Nat.mod_lt _ (by decide)) digit, rest]
      · intro same
        have rest := congrArg (· % 16 ^ width) same
        have digit := congrArg (· / 16 ^ width) same
        simp only [Nat.add_mul_mod_self_left, Nat.mod_mod] at rest
        simp only [Nat.add_mul_div_left _ _ positive, Nat.div_eq_of_lt (Nat.mod_lt _ positive),
          Nat.zero_add] at digit
        exact ⟨congrArg Nat.digitChar digit, rest⟩

theorem hex_digits_take (front back value : Nat) :
    (hexDigits (front + back) value).take front = hexDigits front (value / 16 ^ back) := by
  induction front with
  | zero => simp [hexDigits]
  | succ front ih =>
      rw [Nat.succ_add, hexDigits, hexDigits, List.take_succ_cons, ih, Nat.div_div_eq_div_mul,
        ← Nat.pow_add, Nat.add_comm back front]

/-- What stands between blanks, without the empty places where blanks meet. -/
def fields (blank : Char → Bool) (line : Line) : List Line :=
  (line.splitOnP blank).filter fun field => !field.isEmpty

theorem fields_cons (blank : Char → Bool) (word : Line) (separator : Char) (rest : Line)
    (nonempty : word ≠ []) (solid : ∀ char ∈ word, blank char = false)
    (separates : blank separator = true) :
    fields blank (word ++ separator :: rest) = word :: fields blank rest := by
  have kept : (!word.isEmpty) = true := by
    cases word with
    | nil => exact absurd rfl nonempty
    | cons char tail => rfl
  rw [fields, List.splitOnP_append_cons_of_forall_mem solid separator separates, List.filter_cons,
    if_pos kept, fields]

theorem fields_separated (blank : Char → Bool) (separator : Char) (separates : blank separator = true)
    (words : List Line) (nonempty : ∀ word ∈ words, word ≠ [])
    (solid : ∀ word ∈ words, ∀ char ∈ word, blank char = false) :
    fields blank (words.flatMap fun word => word ++ [separator]) = words := by
  induction words with
  | nil => rfl
  | cons word rest ih =>
      rw [List.flatMap_cons, List.append_assoc, List.singleton_append,
        fields_cons blank word separator _ (nonempty word List.mem_cons_self)
          (solid word List.mem_cons_self) separates,
        ih (fun word member => nonempty word (List.mem_cons_of_mem _ member))
          (fun word member => solid word (List.mem_cons_of_mem _ member))]

section Blocks

variable {Key Entry : Type*} (kept : Key → Bool) (keyOf : Entry → Key)

def Starts (block : Key × List Entry) : Prop :=
  ∃ first rest, block.2 = first :: rest ∧ keyOf first = block.1

theorem kept_head (blocks : List (Key × List Entry)) (starts : ∀ block ∈ blocks, Starts keyOf block)
    (first : Entry) (rest : List Entry)
    (shape : (blocks.filter fun block => kept block.1).flatMap Prod.snd = first :: rest) :
    kept (keyOf first) = true := by
  cases left : blocks.filter fun block => kept block.1 with
  | nil => simp [left] at shape
  | cons head more =>
      have member : head ∈ blocks.filter fun block => kept block.1 := by simp [left]
      obtain ⟨somewhere, chosen⟩ := List.mem_filter.mp member
      obtain ⟨start, further, headShape, headKey⟩ := starts head somewhere
      rw [left, List.flatMap_cons, headShape, List.cons_append, List.cons.injEq] at shape
      rw [← shape.1, headKey]
      exact chosen

/-- Where blocks start with an entry that tells their key, choosing among the blocks of `own` and
`other` gives the entries of `own` only by taking all of its blocks and none of the others. -/
theorem kept_blocks_iff (own other : List (Key × List Entry))
    (ownStarts : ∀ block ∈ own, Starts keyOf block) (otherStarts : ∀ block ∈ other, Starts keyOf block) :
    ((own ++ other).filter fun block => kept block.1).flatMap Prod.snd = own.flatMap Prod.snd ↔
      (∀ block ∈ own, kept block.1 = true) ∧ ∀ block ∈ other, kept block.1 = false := by
  induction own with
  | nil =>
      rw [List.nil_append, List.flatMap_nil]
      constructor
      · intro empty
        refine ⟨fun block member => absurd member List.not_mem_nil, fun block member => ?_⟩
        by_contra found
        obtain ⟨first, rest, shape, _⟩ := otherStarts block member
        have isKept : kept block.1 = true := by simpa using found
        have nothing := List.flatMap_eq_nil_iff.mp empty block (List.mem_filter.mpr ⟨member, isKept⟩)
        rw [shape] at nothing
        exact List.cons_ne_nil first rest nothing
      · rintro ⟨_, unchosen⟩
        rw [List.filter_eq_nil_iff.mpr fun block member => by simp [unchosen block member],
          List.flatMap_nil]
  | cons block rest ih =>
      have restStarts := fun later member => ownStarts later (List.mem_cons_of_mem block member)
      rw [List.forall_mem_cons, List.cons_append, List.filter_cons]
      cases found : kept block.1 with
      | true =>
          rw [if_pos rfl, List.flatMap_cons, List.flatMap_cons, List.append_cancel_left_eq,
            ih restStarts]
          simp
      | false =>
          rw [if_neg (by decide), List.flatMap_cons]
          refine iff_of_false (fun same => ?_) (by simp)
          -- what is left starts with a chosen key, `block` with one that is not
          obtain ⟨first, tail, shape, key⟩ := ownStarts block List.mem_cons_self
          rw [shape, List.cons_append] at same
          have chosen := kept_head kept keyOf (rest ++ other)
            (List.forall_mem_append.mpr ⟨restStarts, otherStarts⟩) first _ same
          rw [key, found] at chosen
          exact Bool.noConfusion chosen

end Blocks

end Rp2350Tee.TextDump
