import Mathlib.Data.List.Pairwise

/-!
Areas of a device that are laid out one behind the other, each given by its offset and
its size as the layout's author wrote them. What follows from every area beginning where
the one before it ends: no two areas meet, nothing between them is left out, and the
offsets keep the alignment of the sizes.
-/

namespace Rp2350Tee.AreaMap

structure Area where
  offset : Nat
  size : Nat
  deriving DecidableEq

def Area.limit (area : Area) : Nat := area.offset + area.size

def Area.Contains (area : Area) (position : Nat) : Prop :=
  area.offset ≤ position ∧ position < area.limit

def Apart (first second : Area) : Prop :=
  first.limit ≤ second.offset ∨ second.limit ≤ first.offset

instance apart_symm : Std.Symm Apart where
  symm _ _ apart := apart.symm

theorem apart_contains (first second : Area) (apart : Apart first second) (position : Nat)
    (inside : first.Contains position) : ¬ second.Contains position := by
  unfold Apart at apart
  unfold Area.Contains at inside ⊢
  omega

/-- Every area begins where the one before it ends. -/
def Consecutive : Nat → List Area → Prop
  | _, [] => True
  | start, area :: rest => area.offset = start ∧ Consecutive area.limit rest

def total : List Area → Nat
  | [] => 0
  | area :: rest => area.size + total rest

theorem total_cons (area : Area) (rest : List Area) :
    total (area :: rest) = area.size + total rest := rfl

variable (start : Nat) (areas : List Area)

theorem consecutive_within (placed : Consecutive start areas) :
    ∀ area ∈ areas, start ≤ area.offset ∧ area.limit ≤ start + total areas := by
  induction areas generalizing start with
  | nil => simp
  | cons first rest ih =>
      obtain ⟨here, behind⟩ := placed
      have extent : first.limit = start + first.size := by rw [Area.limit, here]
      intro area member
      rw [total_cons]
      rcases List.mem_cons.mp member with rfl | later
      · omega
      · have within := ih first.limit behind area later
        omega

theorem consecutive_apart (placed : Consecutive start areas) : areas.Pairwise Apart := by
  induction areas generalizing start with
  | nil => exact List.Pairwise.nil
  | cons first rest ih =>
      refine List.Pairwise.cons ?_ (ih first.limit placed.2)
      intro area member
      exact Or.inl (consecutive_within first.limit rest placed.2 area member).1

theorem consecutive_append (placed : Consecutive start areas) (last : Area)
    (behind : last.offset = start + total areas) : Consecutive start (areas ++ [last]) := by
  induction areas generalizing start with
  | nil => exact ⟨behind, trivial⟩
  | cons first rest ih =>
      obtain ⟨here, tail⟩ := placed
      refine ⟨here, ih first.limit tail ?_⟩
      rw [behind, total_cons, Area.limit, here, Nat.add_assoc]

theorem consecutive_end (last : Area) (placed : Consecutive start (areas ++ [last])) :
    start + total (areas ++ [last]) = last.limit := by
  induction areas generalizing start with
  | nil =>
      rw [List.nil_append, total_cons, Area.limit, placed.1]
      rfl
  | cons first rest ih =>
      obtain ⟨here, behind⟩ := placed
      rw [List.cons_append, total_cons, ← ih first.limit behind, Area.limit, here, Nat.add_assoc]

theorem consecutive_exclusive (placed : Consecutive start areas) (first second : Area)
    (firstMember : first ∈ areas) (secondMember : second ∈ areas) (different : first ≠ second)
    (position : Nat) (inside : first.Contains position) : ¬ second.Contains position :=
  apart_contains first second
    ((consecutive_apart start areas placed).forall firstMember secondMember different) position inside

theorem consecutive_covers (placed : Consecutive start areas) (position : Nat)
    (above : start ≤ position) (below : position < start + total areas) :
    ∃ area ∈ areas, area.Contains position := by
  induction areas generalizing start with
  | nil =>
      rw [total] at below
      omega
  | cons first rest ih =>
      obtain ⟨here, behind⟩ := placed
      have extent : first.limit = start + first.size := by rw [Area.limit, here]
      rw [total_cons] at below
      by_cases inside : position < first.limit
      · exact ⟨first, List.mem_cons_self, by omega, inside⟩
      · obtain ⟨area, member, contains⟩ := ih first.limit behind (by omega) (by omega)
        exact ⟨area, List.mem_cons_of_mem first member, contains⟩

theorem consecutive_aligned (placed : Consecutive start areas) (unit : Nat)
    (startAligned : unit ∣ start) (whole : ∀ area ∈ areas, unit ∣ area.size) :
    ∀ area ∈ areas, unit ∣ area.offset := by
  induction areas generalizing start with
  | nil => simp
  | cons first rest ih =>
      obtain ⟨here, behind⟩ := placed
      have firstAligned : unit ∣ first.offset := here ▸ startAligned
      have next : unit ∣ first.limit := Nat.dvd_add firstAligned (whole first List.mem_cons_self)
      intro area member
      rcases List.mem_cons.mp member with rfl | later
      · exact firstAligned
      · exact ih first.limit behind next
          (fun area among => whole area (List.mem_cons_of_mem first among)) area later

/-- Below its end the layout is a partition of the device. -/
theorem consecutive_partition (placed : Consecutive start areas) (position : Nat)
    (above : start ≤ position) (below : position < start + total areas) :
    ∃! area, area ∈ areas ∧ area.Contains position := by
  obtain ⟨area, member, inside⟩ := consecutive_covers start areas placed position above below
  refine ⟨area, ⟨member, inside⟩, ?_⟩
  rintro other ⟨among, contains⟩
  by_contra different
  exact consecutive_exclusive start areas placed other area among member different position contains
    inside

end Rp2350Tee.AreaMap
