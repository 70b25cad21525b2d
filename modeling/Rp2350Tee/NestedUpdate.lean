import Mathlib.Data.BitVec
import Mathlib.Data.List.Nodup
import Mathlib.Data.List.Perm.Basic

/-!
A counter that is advanced by a load and a later store, by calls that preempt one
another: a call that starts while others are in progress ends before they go on.
The ledger keeps the counter and what the calls hold. No update is lost as long
as no store happens while another call is between its load and its store.
-/

namespace Rp2350Tee.NestedUpdate

variable {w : Nat}

structure Ledger (w : Nat) where
  counter : BitVec w
  /-- What the calls between their load and their store have read, innermost first. -/
  loaded : List (BitVec w)
  /-- What the calls that have stored are about to return. -/
  stored : List (BitVec w)
  returned : List (BitVec w)

inductive Act where
  | skip | load | store | finish

def Ledger.act (ledger : Ledger w) : Act → Ledger w
  | .skip => ledger
  | .load => { ledger with loaded := ledger.counter :: ledger.loaded }
  | .store =>
      match ledger.loaded with
      | [] => ledger
      | value :: outer =>
          { ledger with
            counter := value + 1
            loaded := outer
            stored := (value + 1) :: ledger.stored }
  | .finish =>
      match ledger.stored with
      | [] => ledger
      | value :: rest => { ledger with stored := rest, returned := value :: ledger.returned }

def Ledger.stores (ledger : Ledger w) : Nat := ledger.stored.length + ledger.returned.length

/-- A store of the innermost call while no other one has loaded, and before the values run out. -/
def Apart (ledger : Ledger w) : Act → Prop
  | .skip | .load | .finish => True
  | .store => ∀ value outer, ledger.loaded = value :: outer → outer = [] ∧ ledger.stores + 1 < 2 ^ w

theorem act_store (ledger : Ledger w) (value : BitVec w) (outer : List (BitVec w))
    (loaded : ledger.loaded = value :: outer) :
    ledger.act .store =
      { ledger with
        counter := value + 1
        loaded := outer
        stored := (value + 1) :: ledger.stored } := by
  rw [Ledger.act, loaded]

theorem store_stores (ledger : Ledger w) (value : BitVec w) (outer : List (BitVec w))
    (loaded : ledger.loaded = value :: outer) :
    (ledger.act .store).stores = ledger.stores + 1 := by
  rw [act_store ledger value outer loaded, Ledger.stores, Ledger.stores, List.length_cons,
    Nat.add_right_comm]

theorem finish_stores (ledger : Ledger w) : (ledger.act .finish).stores = ledger.stores := by
  rw [Ledger.act]
  split
  · rfl
  · rename_i value rest stored
    simp only [Ledger.stores, stored, List.length_cons]
    omega

theorem act_stores (ledger : Ledger w) (act : Act) : ledger.stores ≤ (ledger.act act).stores := by
  cases act with
  | skip => exact Nat.le_refl _
  | load => exact Nat.le_refl _
  | store =>
      cases loaded : ledger.loaded with
      | nil => rw [Ledger.act, loaded]
      | cons value outer => exact (store_stores ledger value outer loaded).symm ▸ Nat.le_succ _
  | finish => exact (finish_stores ledger).ge

variable (start : BitVec w)

def ahead (value : BitVec w) : Nat := (value - start).toNat

theorem ahead_succ (value : BitVec w) (room : ahead start value + 1 < 2 ^ w) :
    ahead start (value + 1) = ahead start value + 1 := by
  have moved : value + 1 - start = value - start + 1 := by
    rw [BitVec.sub_eq_add_neg, BitVec.sub_eq_add_neg, BitVec.add_assoc, BitVec.add_comm 1,
      ← BitVec.add_assoc]
  have wide : 1 < 2 ^ w := Nat.lt_of_le_of_lt (Nat.le_add_left 1 _) room
  have one : (1 : BitVec w).toNat = 1 := Nat.mod_eq_of_lt wide
  rw [ahead, moved, BitVec.toNat_add, one]
  exact Nat.mod_eq_of_lt room

theorem ahead_injective (first second : BitVec w) (same : ahead start first = ahead start second) :
    first = second := by
  have offsets : first - start = second - start := BitVec.eq_of_toNat_eq same
  rw [← BitVec.sub_add_cancel first start, offsets, BitVec.sub_add_cancel]

theorem ahead_offset (count : Nat) (small : count < 2 ^ w) :
    ahead start (start + BitVec.ofNat w count) = count := by
  rw [ahead, BitVec.add_comm, BitVec.add_sub_cancel, BitVec.toNat_ofNat, Nat.mod_eq_of_lt small]

/-- No load is newer than the counter, and a call has loaded no more than the ones inside it. -/
structure Behind (ledger : Ledger w) : Prop where
  counter : ahead start ledger.counter ≤ ledger.stores
  loaded : ∀ value ∈ ledger.loaded, ahead start value ≤ ahead start ledger.counter
  nested : ledger.loaded.Pairwise fun inner outer => ahead start outer ≤ ahead start inner

/-- Every store has advanced the counter, and every load is of its present value. -/
structure UpToDate (ledger : Ledger w) : Prop where
  few : ledger.stores < 2 ^ w
  counter : ahead start ledger.counter = ledger.stores
  loaded : ∀ value ∈ ledger.loaded, value = ledger.counter

theorem behind_act (ledger : Ledger w) (act : Act) (behind : Behind start ledger)
    (few : (ledger.act act).stores < 2 ^ w) : Behind start (ledger.act act) := by
  cases act with
  | skip => exact behind
  | load =>
      refine ⟨behind.counter, ?_, ?_⟩
      · intro value member
        rcases List.mem_cons.mp member with rfl | before
        · exact Nat.le_refl _
        · exact behind.loaded value before
      · exact List.pairwise_cons.mpr ⟨behind.loaded, behind.nested⟩
  | store =>
      rw [Ledger.act] at few ⊢
      cases loaded : ledger.loaded with
      | nil => simpa [loaded] using behind
      | cons value outer =>
          simp only [loaded, Ledger.stores, List.length_cons] at few ⊢
          have inner := behind.loaded value (by rw [loaded]; exact List.mem_cons_self)
          have nested := behind.nested
          rw [loaded, List.pairwise_cons] at nested
          have total := behind.counter
          rw [Ledger.stores] at total
          have next := ahead_succ start value (by omega)
          refine ⟨?_, fun older member => ?_, nested.2⟩
          · simp only [Ledger.stores, List.length_cons]
            omega
          · have older := nested.1 older member
            rw [next]
            omega
  | finish =>
      rw [Ledger.act]
      cases stored : ledger.stored with
      | nil => exact behind
      | cons value rest =>
          refine ⟨?_, behind.loaded, behind.nested⟩
          have total := behind.counter
          simp only [Ledger.stores, stored, List.length_cons] at total ⊢
          omega

theorem store_ahead (ledger : Ledger w) (value : BitVec w) (outer : List (BitVec w))
    (loaded : ledger.loaded = value :: outer) (current : UpToDate start ledger)
    (few : ledger.stores + 1 < 2 ^ w) : ahead start (value + 1) = ledger.stores + 1 := by
  have read := current.loaded value (by rw [loaded]; exact List.mem_cons_self)
  have counted := current.counter
  rw [← read] at counted
  rw [ahead_succ start value (by omega), counted]

/-- A store leaves the ledger up to date only if it was, and if no other call had loaded. -/
theorem store_up_to_date_iff (ledger : Ledger w) (value : BitVec w) (outer : List (BitVec w))
    (loaded : ledger.loaded = value :: outer)
    (behind : ledger.stores < 2 ^ w → Behind start ledger) :
    UpToDate start (ledger.act .store) ↔
      UpToDate start ledger ∧ outer = [] ∧ ledger.stores + 1 < 2 ^ w := by
  have total := store_stores ledger value outer loaded
  rw [act_store ledger value outer loaded] at total ⊢
  constructor
  · intro current
    have few := current.few
    rw [total] at few
    have behind := behind (by omega)
    have inner := behind.loaded value (by rw [loaded]; exact List.mem_cons_self)
    have nested := behind.nested
    rw [loaded, List.pairwise_cons] at nested
    have counted := behind.counter
    have next := ahead_succ start value (by omega)
    have advanced := current.counter
    rw [total] at advanced
    change ahead start (value + 1) = _ at advanced
    have read : value = ledger.counter :=
      ahead_injective start value ledger.counter (by omega)
    -- a call further out would have loaded the value that this store replaces
    have alone : outer = [] := by
      cases outer with
      | nil => rfl
      | cons older rest =>
          have stale : older = value + 1 := current.loaded older List.mem_cons_self
          have order := nested.1 older List.mem_cons_self
          rw [stale] at order
          omega
    refine ⟨⟨by omega, by omega, ?_⟩, alone, few⟩
    rw [loaded, alone]
    intro other member
    rw [List.mem_singleton.mp member]
    exact read
  · rintro ⟨current, rfl, few⟩
    constructor
    · rw [total]
      exact few
    · rw [total]
      exact store_ahead start ledger value [] loaded current few
    · exact fun other member => absurd member List.not_mem_nil

/-- Once out of date the ledger stays so, and it gets so only by a store that is not apart. -/
theorem up_to_date_act_iff (ledger : Ledger w) (act : Act)
    (behind : ledger.stores < 2 ^ w → Behind start ledger) :
    UpToDate start (ledger.act act) ↔ UpToDate start ledger ∧ Apart ledger act := by
  cases act with
  | skip => exact (and_iff_left trivial).symm
  | load =>
      rw [Apart, and_true]
      constructor
      · intro current
        exact ⟨current.few, current.counter,
          fun value member => current.loaded value (List.mem_cons_of_mem _ member)⟩
      · intro current
        refine ⟨current.few, current.counter, fun value member => ?_⟩
        rcases List.mem_cons.mp member with rfl | before
        · rfl
        · exact current.loaded value before
  | store =>
      rw [Apart]
      cases loaded : ledger.loaded with
      | nil => simp [Ledger.act, loaded]
      | cons value outer =>
          rw [store_up_to_date_iff start ledger value outer loaded behind]
          simp
  | finish =>
      have total := finish_stores ledger
      rw [Apart, and_true]
      rw [Ledger.act] at total ⊢
      cases stored : ledger.stored with
      | nil => exact Iff.rfl
      | cons value rest =>
          rw [stored] at total
          constructor
          · intro current
            exact ⟨total ▸ current.few, total ▸ current.counter, current.loaded⟩
          · intro current
            exact ⟨total.symm ▸ current.few, total.symm ▸ current.counter, current.loaded⟩

/-- The stores so far wrote different values, none beyond the number of stores. -/
structure Counted (ledger : Ledger w) : Prop where
  bounded : ∀ value ∈ ledger.stored ++ ledger.returned, ahead start value ≤ ledger.stores
  distinct : (ledger.stored ++ ledger.returned).Nodup

theorem counted_act (ledger : Ledger w) (act : Act) (current : UpToDate start ledger)
    (apart : Apart ledger act) (counted : Counted start ledger) :
    Counted start (ledger.act act) := by
  cases act with
  | skip => exact counted
  | load => exact ⟨counted.bounded, counted.distinct⟩
  | store =>
      rw [Ledger.act]
      cases loaded : ledger.loaded with
      | nil => exact counted
      | cons value outer =>
          obtain ⟨rfl, few⟩ := apart value outer loaded
          have next := store_ahead start ledger value [] loaded current few
          refine ⟨fun other member => ?_, List.nodup_cons.mpr ⟨fun member => ?_, counted.distinct⟩⟩
          · simp only [Ledger.stores, List.length_cons]
            rcases List.mem_cons.mp member with rfl | before
            · rw [next, Ledger.stores]
              omega
            · have := counted.bounded other before
              rw [Ledger.stores] at this
              omega
          · have := counted.bounded (value + 1) member
            omega
  | finish =>
      rw [Ledger.act]
      cases stored : ledger.stored with
      | nil => exact counted
      | cons value rest =>
          have order : (rest ++ value :: ledger.returned).Perm (ledger.stored ++ ledger.returned) := by
            rw [stored]
            exact List.perm_middle
          refine ⟨fun other member => ?_, order.nodup_iff.mpr counted.distinct⟩
          have := counted.bounded other (order.mem_iff.mp member)
          simp only [Ledger.stores, stored, List.length_cons] at this ⊢
          omega

end Rp2350Tee.NestedUpdate
