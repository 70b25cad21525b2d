import Rp2350Tee.AreaMap

/-!
Sections placed by the two counters of a linker script: `.`, the location counter, and how
far a memory is used up. A section with an address expression begins at `.`, any other one
where its memory is used up to; a section with contents moves both to its end, an empty one
moves at most what the script and the linker's own rules let it. A symbol that the script
defines between two sections is an item without a size.
-/

namespace Rp2350Tee.SectionLayout

open AreaMap

/-- `ALIGN`, which leaves the counter alone for an alignment of 0 or 1. -/
def alignUp (unit position : Nat) : Nat :=
  if unit ≤ 1 then position else (position + unit - 1) / unit * unit

theorem le_align_up (unit position : Nat) : position ≤ alignUp unit position := by
  unfold alignUp
  split
  · exact Nat.le_refl position
  · rename_i large
    have whole := Nat.div_add_mod (position + unit - 1) unit
    have rest := Nat.mod_lt (position + unit - 1) (show 0 < unit by omega)
    rw [Nat.mul_comm] at whole
    omega

theorem align_up_dvd (granule unit position : Nat) (positive : 0 < unit) (divides : granule ∣ unit) :
    granule ∣ alignUp unit position := by
  unfold alignUp
  split
  · obtain rfl : unit = 1 := by omega
    exact Nat.dvd_trans divides (Nat.one_dvd position)
  · exact Nat.dvd_trans divides (Nat.dvd_mul_left unit _)

theorem align_up_le (unit position bound : Nat) (positive : 0 < unit) (divides : unit ∣ bound)
    (below : position ≤ bound) : alignUp unit position ≤ bound := by
  obtain ⟨count, rfl⟩ := divides
  unfold alignUp
  split
  · exact below
  · rw [Nat.mul_comm unit count]
    apply Nat.mul_le_mul_right
    apply Nat.le_of_lt_succ
    rw [Nat.div_lt_iff_lt_mul positive, Nat.succ_mul, Nat.mul_comm count unit]
    omega

theorem align_up_of_dvd (unit position : Nat) (divides : unit ∣ position) :
    alignUp unit position = position := by
  by_cases positive : 0 < unit
  · exact Nat.le_antisymm (align_up_le unit position position positive divides (Nat.le_refl position))
      (le_align_up unit position)
  · exact if_pos (by omega)

/-- What an empty section does to the counters: the linker drops it, or keeps it for an assignment
to `.` in it, and then counts it for its memory if it has collected an empty input section. -/
inductive WhenEmpty where
  | dropped | kept | counted
  deriving DecidableEq

structure Item (Name : Type*) where
  name : Name
  atDot : Bool
  startAlign : Nat
  size : Nat
  endAlign : Nat
  whenEmpty : WhenEmpty

structure Placed (Name : Type*) where
  name : Name
  area : Area

structure Counters where
  dot : Nat
  used : Nat

variable {Name : Type*}

/-- `name = .;` -/
def mark (name : Name) : Item Name := ⟨name, true, 1, 0, 1, .dropped⟩

def Item.start (item : Item Name) (counters : Counters) : Nat :=
  alignUp item.startAlign (if item.atDot then counters.dot else counters.used)

def Item.stop (item : Item Name) (counters : Counters) : Nat :=
  alignUp item.endAlign (item.start counters + item.size)

def Item.put (item : Item Name) (counters : Counters) : Placed Name :=
  ⟨item.name, item.start counters, item.stop counters - item.start counters⟩

/-- The counters behind the item. An address expression moves `.` in any case. -/
def Item.next (item : Item Name) (counters : Counters) : Counters :=
  if item.start counters < item.stop counters then ⟨item.stop counters, item.stop counters⟩
  else
    { dot := if item.atDot || item.whenEmpty != .dropped then item.start counters else counters.dot
      used := if item.whenEmpty = .counted then item.start counters else counters.used }

def place : Counters → List (Item Name) → List (Placed Name)
  | _, [] => []
  | counters, item :: rest => item.put counters :: place (item.next counters) rest

def advance : Counters → List (Item Name) → Counters
  | counters, [] => counters
  | counters, item :: rest => advance (item.next counters) rest

/-- What lies behind `.` is not used yet. -/
def Counters.Ordered (counters : Counters) : Prop := counters.used ≤ counters.dot

section Item

variable (item : Item Name) (counters : Counters)

theorem start_le_stop : item.start counters ≤ item.stop counters :=
  Nat.le_trans (Nat.le_add_right _ item.size) (le_align_up item.endAlign _)

theorem plain_stop (plain : item.endAlign ≤ 1) :
    item.stop counters = item.start counters + item.size := if_pos plain

theorem empty_stop (none : item.size = 0) (plain : item.endAlign ≤ 1) :
    item.stop counters = item.start counters := by
  rw [plain_stop item counters plain, none, Nat.add_zero]

theorem put_limit : (item.put counters).area.limit = item.stop counters :=
  Nat.add_sub_cancel' (start_le_stop item counters)

theorem used_le_start (ordered : counters.Ordered) : counters.used ≤ item.start counters := by
  refine Nat.le_trans ?_ (le_align_up item.startAlign _)
  split
  · exact ordered
  · exact Nat.le_refl counters.used

theorem next_of_contents (some : item.start counters < item.stop counters) :
    item.next counters = ⟨item.stop counters, item.stop counters⟩ := if_pos some

theorem used_le_next (ordered : counters.Ordered) : counters.used ≤ (item.next counters).used := by
  have start := used_le_start item counters ordered
  unfold Item.next
  split
  · exact Nat.le_trans start (start_le_stop item counters)
  · dsimp only
    split
    · exact start
    · exact Nat.le_refl counters.used

theorem next_ordered (ordered : counters.Ordered) : (item.next counters).Ordered := by
  have start := used_le_start item counters ordered
  unfold Counters.Ordered at ordered ⊢
  unfold Item.next
  split
  · exact Nat.le_refl _
  · cases item.atDot <;> cases item.whenEmpty <;> simp [ordered, start]

/-- Behind a section with an address expression `.` stands at its end, if it is empty or not. -/
theorem next_dot (own : item.atDot = true) : (item.next counters).dot = item.stop counters := by
  unfold Item.next
  split
  · rfl
  · rename_i empty
    rw [own]
    exact Nat.le_antisymm (start_le_stop item counters) (Nat.le_of_not_lt empty)

theorem put_used (position : Nat) (inside : (item.put counters).area.Contains position) :
    position < (item.next counters).used := by
  obtain ⟨above, below⟩ := inside
  rw [put_limit] at below
  rw [next_of_contents item counters (Nat.lt_of_le_of_lt above below)]
  exact below

end Item

/-- A symbol takes `.` as it is, and moves nothing. -/
theorem mark_edges (name : Name) (counters : Counters) :
    (mark name).start counters = counters.dot ∧ (mark name).stop counters = counters.dot ∧
      (mark name).next counters = counters := by
  simp [mark, Item.next, Item.start, Item.stop, alignUp]

variable (counters : Counters) (items : List (Item Name))

theorem place_append (front back : List (Item Name)) :
    place counters (front ++ back) =
      place counters front ++ place (advance counters front) back := by
  induction front generalizing counters with
  | nil => rfl
  | cons item rest ih => exact congrArg _ (ih (item.next counters))

theorem place_names : (place counters items).map Placed.name = items.map Item.name := by
  induction items generalizing counters with
  | nil => rfl
  | cons item rest ih => exact congrArg _ (ih (item.next counters))

theorem advance_ordered (ordered : counters.Ordered) : (advance counters items).Ordered := by
  induction items generalizing counters with
  | nil => exact ordered
  | cons item rest ih => exact ih (item.next counters) (next_ordered item counters ordered)

theorem used_le_advance (ordered : counters.Ordered) :
    counters.used ≤ (advance counters items).used := by
  induction items generalizing counters with
  | nil => exact Nat.le_refl counters.used
  | cons item rest ih =>
      exact Nat.le_trans (used_le_next item counters ordered)
        (ih (item.next counters) (next_ordered item counters ordered))

theorem dot_le_bound (bound : Nat) (before : counters.dot ≤ bound)
    (within : ∀ placed ∈ place counters items, placed.area.limit ≤ bound) :
    (advance counters items).dot ≤ bound := by
  induction items generalizing counters with
  | nil => exact before
  | cons item rest ih =>
      have stop := within _ List.mem_cons_self
      rw [put_limit] at stop
      apply ih
      · unfold Item.next
        split
        · exact stop
        · dsimp only
          split
          · exact Nat.le_trans (start_le_stop item counters) stop
          · exact before
      · exact fun placed later => within placed (List.mem_cons_of_mem _ later)

theorem place_above (ordered : counters.Ordered) :
    ∀ placed ∈ place counters items, counters.used ≤ placed.area.offset := by
  induction items generalizing counters with
  | nil => simp [place]
  | cons item rest ih =>
      intro placed member
      rcases List.mem_cons.mp member with rfl | later
      · exact used_le_start item counters ordered
      · exact Nat.le_trans (used_le_next item counters ordered)
          (ih (item.next counters) (next_ordered item counters ordered) placed later)

def Before (first second : Placed Name) : Prop :=
  ∀ position, first.area.Contains position → ∀ other, second.area.Contains other → position < other

theorem place_before (ordered : counters.Ordered) : (place counters items).Pairwise Before := by
  induction items generalizing counters with
  | nil => exact List.Pairwise.nil
  | cons item rest ih =>
      have after := next_ordered item counters ordered
      refine List.Pairwise.cons (fun placed member => ?_) (ih (item.next counters) after)
      intro position inside other within
      have above := place_above (item.next counters) rest after placed member
      exact Nat.lt_of_lt_of_le (put_used item counters position inside) (Nat.le_trans above within.1)

theorem place_put : ∀ placed ∈ place counters items,
    ∃ item ∈ items, ∃ counters, placed = item.put counters := by
  induction items generalizing counters with
  | nil => simp [place]
  | cons item rest ih =>
      intro placed member
      rcases List.mem_cons.mp member with rfl | later
      · exact ⟨item, List.mem_cons_self, counters, rfl⟩
      · obtain ⟨other, among, own, put⟩ := ih (item.next counters) placed later
        exact ⟨other, List.mem_cons_of_mem item among, own, put⟩

theorem place_infix (ordered : counters.Ordered) (part : List (Item Name))
    (listed : part <:+: items) : ∃ own : Counters, own.Ordered ∧
      ∀ placed ∈ place own part, placed ∈ place counters items := by
  obtain ⟨front, back, rfl⟩ := listed
  refine ⟨advance counters front, advance_ordered counters front ordered, fun placed member => ?_⟩
  rw [List.append_assoc, place_append, place_append]
  exact List.mem_append_right _ (List.mem_append_left _ member)

structure Memory (Name : Type*) where
  origin : Nat
  length : Nat
  items : List (Item Name)

def Memory.names (memory : Memory Name) : List Name := memory.items.map Item.name

def Memory.placed (memory : Memory Name) : List (Placed Name) :=
  place ⟨memory.origin, memory.origin⟩ memory.items

/-- The linker reports a section with contents that ends behind its memory. -/
def Memory.Fits (memory : Memory Name) : Prop :=
  ∀ placed ∈ memory.placed, placed.area.limit ≤ memory.origin + memory.length

instance (memory : Memory Name) : Decidable memory.Fits := List.decidableBAll _ _

theorem memory_within (memory : Memory Name) (fits : memory.Fits) : ∀ placed ∈ memory.placed,
    memory.origin ≤ placed.area.offset ∧ placed.area.limit ≤ memory.origin + memory.length :=
  fun placed member =>
    ⟨place_above ⟨memory.origin, memory.origin⟩ _ (Nat.le_refl memory.origin) placed member,
      fits placed member⟩

variable (memories : List (Memory Name))

def placeAll : List (Placed Name) := memories.flatMap Memory.placed

theorem place_all_names : (placeAll memories).map Placed.name = memories.flatMap Memory.names := by
  have one : (fun memory : Memory Name => memory.placed.map Placed.name) = Memory.names :=
    funext fun memory => place_names _ memory.items
  rw [placeAll, List.map_flatMap, one]

theorem place_all_before (fits : ∀ memory ∈ memories, memory.Fits)
    (apart : memories.Pairwise fun first second => first.origin + first.length ≤ second.origin) :
    (placeAll memories).Pairwise Before := by
  induction memories with
  | nil => exact List.Pairwise.nil
  | cons memory rest ih =>
      obtain ⟨before, behind⟩ := List.pairwise_cons.mp apart
      have later (other : Memory Name) (among : other ∈ rest) : other.Fits :=
        fits other (List.mem_cons_of_mem memory among)
      refine List.pairwise_append.mpr
        ⟨place_before _ _ (Nat.le_refl memory.origin), ih later behind, ?_⟩
      intro first firstMember second secondMember position inside other within
      have firstWithin := memory_within memory (fits memory List.mem_cons_self) first firstMember
      obtain ⟨place, among, put⟩ := List.mem_flatMap.mp secondMember
      have secondWithin := memory_within place (later place among) second put
      have gap := before place among
      unfold Area.Contains at inside within
      omega

theorem before_unique (placed : List (Placed Name)) (before : placed.Pairwise Before)
    (first second : Placed Name) (firstMember : first ∈ placed) (secondMember : second ∈ placed)
    (position : Nat) (inside : first.area.Contains position)
    (within : second.area.Contains position) : first = second := by
  have apart : placed.Pairwise fun first second =>
      ¬ (first.area.Contains position ∧ second.area.Contains position) := by
    refine before.imp ?_
    rintro first second less ⟨one, both⟩
    exact Nat.lt_irrefl position (less position one position both)
  have : Std.Symm fun first second : Placed Name =>
      ¬ (first.area.Contains position ∧ second.area.Contains position) :=
    ⟨fun _ _ neither both => neither both.symm⟩
  by_contra different
  exact apart.forall firstMember secondMember different ⟨inside, within⟩

variable [DecidableEq Name]

/-- `ADDR` of a section, or the value of a symbol. -/
def find (placed : List (Placed Name)) (name : Name) : Option Area :=
  (placed.find? fun entry => entry.name = name).map Placed.area

theorem find_member (placed : List (Placed Name)) (distinct : (placed.map Placed.name).Nodup)
    (entry : Placed Name) (member : entry ∈ placed) : find placed entry.name = some entry.area := by
  induction placed with
  | nil => exact absurd member List.not_mem_nil
  | cons head rest ih =>
      obtain ⟨fresh, tail⟩ := List.nodup_cons.mp distinct
      rcases List.mem_cons.mp member with rfl | later
      · simp [find]
      · have other : head.name ≠ entry.name := by
          intro same
          exact fresh (same ▸ List.mem_map_of_mem later)
        have found := ih tail later
        unfold find at found ⊢
        rwa [List.find?_cons_of_neg (by simpa using other)]

theorem find_absent (placed : List (Placed Name)) (name : Name)
    (absent : name ∉ placed.map Placed.name) : find placed name = none := by
  rw [find, Option.map_eq_none_iff, List.find?_eq_none]
  intro entry member named
  exact absent (decide_eq_true_eq.mp named ▸ List.mem_map_of_mem member)

end Rp2350Tee.SectionLayout
