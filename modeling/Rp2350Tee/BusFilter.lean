import Mathlib.Data.List.Nodup
import Rp2350Tee.TzConfig

/-!
ACCESSCTRL of the RP2350, the filter in front of each bus target: a register of grants
for each of them, a mask of Non-secure GPIOs, and a lock register that shuts out single
bus masters. Every write but the ones to the GPIO mask carries a password. The keys of
the grant registers and what the chip keeps of a write are parameters.
-/

namespace Rp2350Tee.BusFilter

open TzConfig (Word)

/-- `ACCESSCTRL_PASSWORD_BITS` of the SDK, `ACCESSCTRL_PASSWORD` of minimal-tz. -/
def passwordBits : Word := 0xacce0000

def accessctrlDbg : Word := 1 <<< 7
def accessctrlDma : Word := 1 <<< 6
def accessctrlCore1 : Word := 1 <<< 5
def accessctrlCore0 : Word := 1 <<< 4
def accessctrlSp : Word := 1 <<< 3
def accessctrlSu : Word := 1 <<< 2
def accessctrlNsp : Word := 1 <<< 1
def accessctrlNsu : Word := 1 <<< 0

inductive Master where
  | core0 | core1 | dma | debug
  deriving DecidableEq

def Master.lockMsk : Master → Word
  | .core0 => 1 <<< 0
  | .core1 => 1 <<< 1
  | .dma => 1 <<< 2
  | .debug => 1 <<< 3

structure AccessCtrl (Reg : Type) where
  grants : Reg → Word
  gpioNsmask0 : Word
  gpioNsmask1 : Word
  lock : Word

/-- What a chip resets to, and what a register holds after a write to it, given what it
held before. -/
structure Chip (Reg : Type) where
  reset : Reg → Word
  resetGpioNsmask : Word
  keep : Reg → Word → Word → Word

inductive Request (Reg : Type) where
  | grant (reg : Reg) (value : Word)
  | cfgreset (value : Word)
  | gpioNsmask0 (value : Word)
  | gpioNsmask1 (value : Word)
  | lock (value : Word)

variable {Reg : Type} [DecidableEq Reg] (chip : Chip Reg)

def AccessCtrl.locked (ac : AccessCtrl Reg) (master : Master) : Bool :=
  ac.lock &&& master.lockMsk != 0

def hasPassword (value : Word) : Bool := value &&& 0xffff0000 == passwordBits

/-- A write by a bus master. Locked masters and wrong passwords are ignored. -/
def AccessCtrl.write (master : Master) (ac : AccessCtrl Reg) (request : Request Reg) :
    AccessCtrl Reg :=
  if ac.locked master then ac
  else match request with
    | .grant reg value =>
        if hasPassword value then
          let kept := chip.keep reg (ac.grants reg) (value &&& 0xffff)
          { ac with grants := Function.update ac.grants reg kept }
        else ac
    | .cfgreset value =>
        if hasPassword value && value &&& 1 != 0 then
          { ac with grants := chip.reset, gpioNsmask0 := chip.resetGpioNsmask
                    gpioNsmask1 := chip.resetGpioNsmask }
        else ac
    | .gpioNsmask0 value => { ac with gpioNsmask0 := value }
    | .gpioNsmask1 value => { ac with gpioNsmask1 := value }
    | .lock value =>
        if hasPassword value then { ac with lock := ac.lock ||| (value &&& 0xf) } else ac

theorem write_locked (master : Master) (ac : AccessCtrl Reg) (request : Request Reg)
    (locked : ac.locked master = true) : ac.write chip master request = ac := if_pos locked

theorem write_grant (master : Master) (ac : AccessCtrl Reg) (reg : Reg) (value : Word)
    (free : ac.locked master = false) (password : hasPassword value = true) :
    ac.write chip master (.grant reg value) =
      { ac with grants :=
          Function.update ac.grants reg (chip.keep reg (ac.grants reg) (value &&& 0xffff)) } := by
  simp [AccessCtrl.write, free, password]

theorem grant_elsewhere (master : Master) (ac : AccessCtrl Reg) (reg other : Reg) (value : Word)
    (different : other ≠ reg) :
    (ac.write chip master (.grant reg value)).grants other = ac.grants other := by
  simp only [AccessCtrl.write]
  split_ifs <;> simp [Function.update_of_ne different]

theorem grant_lock (master : Master) (ac : AccessCtrl Reg) (reg : Reg) (value : Word) :
    (ac.write chip master (.grant reg value)).lock = ac.lock := by
  simp only [AccessCtrl.write]
  split_ifs <;> rfl

/-- Nothing is granted that `wide` does not grant. -/
def Narrower (narrow wide : Word) : Prop := narrow &&& wide = narrow

instance (narrow wide : Word) : Decidable (Narrower narrow wide) :=
  inferInstanceAs (Decidable (narrow &&& wide = narrow))

theorem narrower_refl (word : Word) : Narrower word word := BitVec.and_self

theorem narrower_trans (narrow middle wide : Word) (first : Narrower narrow middle)
    (second : Narrower middle wide) : Narrower narrow wide := by
  unfold Narrower at first second ⊢
  calc narrow &&& wide = (narrow &&& middle) &&& wide := by rw [first]
    _ = narrow &&& (middle &&& wide) := BitVec.and_assoc _ _ _
    _ = narrow := by rw [second, first]

theorem narrower_refuses (narrow wide bit : Word) (inside : Narrower narrow wide)
    (refused : wide &&& bit = 0) : narrow &&& bit = 0 := by
  unfold Narrower at inside
  rw [← inside, BitVec.and_assoc, refused]
  exact BitVec.and_zero

/-- A chip whose registers hold no bit that the last write to them did not carry. -/
def Chip.Plain : Prop := ∀ reg old new, Narrower (chip.keep reg old new) new

/-- A chip whose registers implement all eight grants. -/
def Chip.HoldsGrants : Prop :=
  ∀ reg old new, chip.keep reg old new &&& 0xff = new &&& 0xff

structure Progress (Reg : Type) where
  unit : AccessCtrl Reg
  failed : Bool

def writeBack (progress : Progress Reg) (entry : Reg × Word) : Progress Reg :=
  let unit := progress.unit.write chip .core0 (.grant entry.1 (entry.2 ||| passwordBits))
  ⟨unit, if unit.grants entry.1 = entry.2 then progress.failed else true⟩

variable (progress : Progress Reg) (entries : List (Reg × Word))

theorem write_back_lock :
    (entries.foldl (writeBack chip) progress).unit.lock = progress.unit.lock := by
  induction entries generalizing progress with
  | nil => rfl
  | cons entry rest ih =>
      rw [List.foldl_cons, ih]
      exact grant_lock chip .core0 progress.unit entry.1 _

theorem write_back_elsewhere (reg : Reg) (absent : reg ∉ entries.map Prod.fst) :
    (entries.foldl (writeBack chip) progress).unit.grants reg = progress.unit.grants reg := by
  induction entries generalizing progress with
  | nil => rfl
  | cons entry rest ih =>
      rw [List.map_cons, List.mem_cons, not_or] at absent
      rw [List.foldl_cons, ih _ absent.2]
      exact grant_elsewhere chip .core0 progress.unit entry.1 reg _ absent.1

/-- Registers that are written once read back right during the configuration exactly when
they hold their values at its end. -/
theorem write_back_failed (unique : (entries.map Prod.fst).Nodup) :
    (entries.foldl (writeBack chip) progress).failed = false ↔
      progress.failed = false ∧ ∀ entry ∈ entries,
        (entries.foldl (writeBack chip) progress).unit.grants entry.1 = entry.2 := by
  induction entries generalizing progress with
  | nil => simp
  | cons entry rest ih =>
      obtain ⟨absent, uniqueRest⟩ := List.nodup_cons.mp unique
      have final := write_back_elsewhere chip (writeBack chip progress entry) rest entry.1 absent
      rw [List.foldl_cons, ih (writeBack chip progress entry) uniqueRest, List.forall_mem_cons, final,
        ← and_assoc]
      apply and_congr_left'
      rw [writeBack]
      split
      · rename_i held
        simp only [held, and_true]
      · rename_i lost
        simp only [lost, and_false, Bool.true_eq_false]

theorem write_back_grants (unique : (entries.map Prod.fst).Nodup)
    (free : progress.unit.locked .core0 = false) (entry : Reg × Word) (member : entry ∈ entries)
    (password : ∀ entry ∈ entries, hasPassword (entry.2 ||| passwordBits) = true) :
    (entries.foldl (writeBack chip) progress).unit.grants entry.1 =
      chip.keep entry.1 (progress.unit.grants entry.1) ((entry.2 ||| passwordBits) &&& 0xffff) := by
  induction entries generalizing progress with
  | nil => exact absurd member List.not_mem_nil
  | cons first rest ih =>
      obtain ⟨absent, uniqueRest⟩ := List.nodup_cons.mp unique
      have here := write_grant chip .core0 progress.unit first.1 (first.2 ||| passwordBits) free
        (password first List.mem_cons_self)
      rw [List.foldl_cons]
      rcases List.mem_cons.mp member with rfl | later
      · rw [write_back_elsewhere chip _ rest entry.1 absent, writeBack, here]
        exact Function.update_self _ _ _
      · have different : entry.1 ≠ first.1 := fun same =>
          absent (same ▸ List.mem_map_of_mem later)
        have still : (writeBack chip progress first).unit.locked .core0 = false := by
          rw [writeBack, AccessCtrl.locked, grant_lock]
          exact free
        rw [ih (writeBack chip progress first) uniqueRest still later
          fun entry member => password entry (List.mem_cons_of_mem first member)]
        rw [writeBack, grant_elsewhere chip .core0 progress.unit first.1 entry.1 _ different]

end Rp2350Tee.BusFilter
