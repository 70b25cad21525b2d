import Mathlib.Data.List.Basic
import Mathlib.Data.List.Count

/-!
Protection units that look an address up in a table of regions. A region decides about
an address when it alone covers it; an address in no region, or in more than one, has
no decider. Programming a free slot of a table, the regions of a table of keys and
the tables that the regions of a given list leave open are treated here for any type
of region and address.
-/

namespace Rp2350Tee.RegionTable

variable {Region Address : Type*} (covers : Region → Address → Bool)

def hits (table : List Region) (address : Address) : List Region :=
  table.filter fun region => covers region address

/-- The region that decides about the address. -/
def soleHit (table : List Region) (address : Address) : Option Region :=
  match hits covers table address with
  | [region] => some region
  | _ => none

theorem soleHit_eq_some (table : List Region) (address : Address) (region : Region) :
    soleHit covers table address = some region ↔ hits covers table address = [region] := by
  unfold soleHit
  match hits covers table address with
  | [] => simp
  | [_] => simp
  | _ :: _ :: _ => simp

theorem hits_append (front back : List Region) (address : Address) :
    hits covers (front ++ back) address =
      hits covers front address ++ hits covers back address :=
  List.filter_append front back

theorem hits_cons (region : Region) (table : List Region) (address : Address) :
    hits covers (region :: table) address =
      if covers region address then region :: hits covers table address
      else hits covers table address := by
  rw [hits, List.filter_cons]
  rfl

theorem mem_hits (table : List Region) (address : Address) (region : Region) :
    region ∈ hits covers table address ↔ region ∈ table ∧ covers region address = true :=
  List.mem_filter

theorem soleHit_mem (table : List Region) (address : Address) (region : Region)
    (hit : soleHit covers table address = some region) :
    region ∈ table ∧ covers region address = true := by
  rw [← mem_hits, (soleHit_eq_some covers table address region).mp hit]
  exact List.mem_singleton_self region

theorem hits_eq_nil (table : List Region) (address : Address) :
    hits covers table address = [] ↔ ∀ region ∈ table, covers region address = false := by
  simp [hits, List.filter_eq_nil_iff]

/-- Of two parts of a table one decides and the other is silent. -/
theorem soleHit_append (front back : List Region) (address : Address) (region : Region) :
    soleHit covers (front ++ back) address = some region ↔
      (soleHit covers front address = some region ∧ hits covers back address = []) ∨
        (hits covers front address = [] ∧ soleHit covers back address = some region) := by
  rw [soleHit_eq_some, soleHit_eq_some, soleHit_eq_some, hits_append, List.append_eq_singleton_iff]
  tauto

section Slots

variable (used idle : List Region)

theorem soleHit_silent (address : Address) (silent : hits covers idle address = []) :
    soleHit covers (used ++ idle) address = soleHit covers used address := by
  unfold soleHit
  rw [hits_append, silent, List.append_nil]

theorem soleHit_idle (silent : ∀ region ∈ idle, ∀ address, covers region address = false)
    (address : Address) : soleHit covers (used ++ idle) address = soleHit covers used address :=
  soleHit_silent covers used idle address
    ((hits_eq_nil covers idle address).mpr fun region member => silent region member address)

theorem set_first_idle (new : Region) (some : idle ≠ []) :
    (used ++ idle).set used.length new = used ++ [new] ++ idle.tail := by
  cases idle with
  | nil => exact absurd rfl some
  | cons first rest =>
      rw [List.set_append_right _ _ (Nat.le_refl _), Nat.sub_self, List.set_cons_zero,
        List.append_assoc, List.singleton_append, List.tail_cons]

theorem set_all (new : List Region) (fits : new.length ≤ idle.length) :
    (new.zipIdx used.length).foldl (fun table entry => table.set entry.2 entry.1) (used ++ idle) =
      used ++ new ++ idle.drop new.length := by
  induction new generalizing used idle with
  | nil => simp
  | cons first rest ih =>
      have some : idle ≠ [] := by
        rintro rfl
        simp at fits
      rw [List.zipIdx_cons, List.foldl_cons, set_first_idle used idle first some]
      have next := ih (used ++ [first]) idle.tail (by
        rw [List.length_tail]
        exact Nat.le_sub_one_of_lt fits)
      rw [List.length_append, List.length_singleton] at next
      rw [next, List.append_assoc used, List.singleton_append, List.length_cons, List.drop_tail]

end Slots

theorem modify_middle (change : Region → Region) (front back : List Region) (region : Region) :
    (front ++ region :: back).modify front.length change = front ++ change region :: back := by
  induction front with
  | nil => rfl
  | cons first rest ih => simp [ih]

theorem modify_all (change : Region → Region) (table : List Region) (count : Nat)
    (inside : count ≤ table.length) :
    (List.range count).foldl (fun table index => table.modify index change) table =
      (table.take count).map change ++ table.drop count := by
  induction count with
  | zero => simp
  | succ count ih =>
      have below : count < table.length := inside
      have length : ((table.take count).map change).length = count := by
        rw [List.length_map, List.length_take, Nat.min_eq_left (Nat.le_of_lt below)]
      have next := modify_middle change ((table.take count).map change) (table.drop (count + 1))
        table[count]
      rw [length] at next
      rw [List.range_succ, List.foldl_append, ih (Nat.le_of_lt below), List.foldl_cons, List.foldl_nil,
        List.drop_eq_getElem_cons below, next, List.take_succ_eq_append_getElem below,
        List.map_append, List.map_singleton, List.append_assoc, List.singleton_append]

/-! A table with one region for each key of a list, where regions of different keys do
not meet. -/

section Keyed

variable {Key : Type*} [DecidableEq Key] (region : Key → Region) (keys : List Key)
  (address : Address)

theorem hits_keyed (key : Key) (covered : covers (region key) address = true)
    (apart : ∀ other ∈ keys, other ≠ key → covers (region other) address = false) :
    hits covers (keys.map region) address = List.replicate (keys.count key) (region key) := by
  induction keys with
  | nil => rfl
  | cons first rest ih =>
      have tail := ih fun other member => apart other (List.mem_cons_of_mem first member)
      rw [List.map_cons, hits_cons, tail]
      by_cases same : first = key
      · subst first
        rw [if_pos covered, List.count_cons_self, List.replicate_succ]
      · rw [apart first List.mem_cons_self same, List.count_cons_of_ne same]
        rfl

/-- The region of a key decides where it covers exactly when the key is listed once. -/
theorem soleHit_keyed (key : Key) (covered : covers (region key) address = true)
    (apart : ∀ other ∈ keys, other ≠ key → covers (region other) address = false) :
    soleHit covers (keys.map region) address = some (region key) ↔ keys.count key = 1 := by
  rw [soleHit_eq_some, hits_keyed covers region keys address key covered apart]
  constructor
  · intro alone
    simpa using congrArg List.length alone
  · intro once
    rw [once]
    rfl

omit [DecidableEq Key] in
theorem soleHit_both (first second : Key) (firstListed : first ∈ keys) (secondListed : second ∈ keys)
    (different : first ≠ second) (firstCovers : covers (region first) address = true)
    (secondCovers : covers (region second) address = true) :
    soleHit covers (keys.map region) address = none := by
  rw [Option.eq_none_iff_forall_ne_some]
  intro sole alone
  rw [soleHit_eq_some, hits, List.filter_map, List.map_eq_singleton_iff] at alone
  obtain ⟨key, only, _⟩ := alone
  have kept (key : Key) (listed : key ∈ keys) (covered : covers (region key) address = true) :
      key ∈ keys.filter ((fun region => covers region address) ∘ region) :=
    List.mem_filter.mpr ⟨listed, covered⟩
  have firstOnly := kept first firstListed firstCovers
  have secondOnly := kept second secondListed secondCovers
  rw [only, List.mem_singleton] at firstOnly secondOnly
  exact different (firstOnly.trans secondOnly.symm)

end Keyed

section Granules

variable (word : BitVec 32)

theorem granule_base : (word &&& (~~~0x1F : BitVec 32)).toNat = word.toNat - word.toNat % 32 := by
  have shifted : word &&& (~~~0x1F : BitVec 32) = (word >>> 5) <<< 5 := by
    ext index below
    simp only [BitVec.getElem_and, BitVec.getElem_not, BitVec.getElem_shiftLeft,
      BitVec.getElem_ushiftRight]
    have mask : (0x1F : BitVec 32)[index] = decide (index < 5) :=
      Nat.testBit_two_pow_sub_one 5 index
    rw [mask]
    by_cases low : index < 5
    · simp [low]
    · have back : 5 + (index - 5) = index := by omega
      simp [low, back, below]
  rw [shifted, BitVec.toNat_shiftLeft, BitVec.toNat_ushiftRight, Nat.shiftRight_eq_div_pow,
    Nat.shiftLeft_eq]
  have := word.isLt
  omega

theorem granule_limit : (word ||| 0x1F).toNat = word.toNat - word.toNat % 32 + 31 := by
  have split : word ||| 0x1F = (word &&& (~~~0x1F : BitVec 32)) ||| 0x1F := by
    ext index below
    simp only [BitVec.getElem_or, BitVec.getElem_and, BitVec.getElem_not]
    cases word[index] <;> cases (0x1F : BitVec 32)[index] <;> rfl
  have shifted : (word &&& (~~~0x1F : BitVec 32)).toNat = (word.toNat / 32) <<< 5 := by
    rw [granule_base, Nat.shiftLeft_eq]
    omega
  rw [split, BitVec.toNat_or, shifted, ← Nat.shiftLeft_add_eq_or_of_lt (by decide), Nat.shiftLeft_eq]
  change word.toNat / 32 * 2 ^ 5 + 31 = _
  omega

theorem granule_base_aligned (aligned : word.toNat % 32 = 0) :
    word &&& (~~~0x1F : BitVec 32) = word := by
  apply BitVec.eq_of_toNat_eq
  rw [granule_base, aligned, Nat.sub_zero]

theorem granule_limit_aligned (aligned : word.toNat % 32 = 31) : word ||| 0x1F = word := by
  apply BitVec.eq_of_toNat_eq
  rw [granule_limit]
  omega

theorem granule_limit_flags (flags : BitVec 32) (low : flags ||| 0x1F = 0x1F) :
    ((word &&& (~~~0x1F : BitVec 32)) ||| flags) ||| 0x1F = word ||| 0x1F := by
  rw [BitVec.or_assoc, low]
  ext index below
  simp only [BitVec.getElem_or, BitVec.getElem_and, BitVec.getElem_not]
  cases word[index] <;> cases (0x1F : BitVec 32)[index] <;> rfl

theorem granule_flags (flags mask : BitVec 32) (low : (~~~0x1F : BitVec 32) &&& mask = 0) :
    ((word &&& (~~~0x1F : BitVec 32)) ||| flags) &&& mask = flags &&& mask := by
  have upper : word &&& (~~~0x1F : BitVec 32) &&& mask = 0 := by
    rw [BitVec.and_assoc, low]
    exact BitVec.and_zero
  have split : ((word &&& (~~~0x1F : BitVec 32)) ||| flags) &&& mask =
      (word &&& (~~~0x1F : BitVec 32) &&& mask) ||| (flags &&& mask) := by
    ext index below
    simp only [BitVec.getElem_or, BitVec.getElem_and]
    exact Bool.and_or_distrib_right _ _ _
  rw [split, upper]
  exact BitVec.zero_or

end Granules

end Rp2350Tee.RegionTable
