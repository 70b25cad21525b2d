import Rp2350Tee.PmpUnit

/-!
`examples/minimal-pmp/main.c`: M-mode set-up, the trap trampoline with its C
dispatcher and services, and the drop to U-mode. C code is modelled by the
memory and CSR effects of its statements; what only the compiled code decides
(where the linker puts the objects, what the caller-saved registers hold when a
load of C code faults) is a field of `Layout` or `Platform`, never a choice made
here. C stack frames are not modelled: `sp` stays at the trap frame while the
dispatcher runs, and a buffer that `svc_sign` signs over the frames of its own
callers changes memory alone. What the self-test leaves in registers comes from the
secret, never from the key, which no code before it reads.
-/

namespace Rp2350Tee.PmpProgram

open ByteMemory PmpUnit

abbrev Word := BitVec 32

def sramStart : Nat := 0x20000000
def sramEnd : Nat := 0x20082000

def mbMagic : Nat := 0
def mbXh3Before : Nat := 1
def mbXh3Mcause : Nat := 2
def mbXh3After : Nat := 3
def mbMcause : Nat := 8
def mbMtval : Nat := 9
def mbStage : Nat := 11
def mbN : Nat := 12

def svcGetCounter : Word := 0
def svcSignNumber : Word := 1

def stageXh3 : Word := 1
def stageU : Word := 2

def pmpR : Word := 1 <<< 0
def pmpW : Word := 1 <<< 1
def pmpX : Word := 1 <<< 2
def pmpANapot : Word := 3 <<< 3

/-- The objects of the program and where the linker puts them. `mainT` is the local `t`
of the self-test in `main`. -/
structure Placement where
  gProt : Word
  gMb : Word
  gStage : Word
  gMTrapStack : Word
  mainT : Word

def Placement.objects (place : Placement) : List (Word × Nat) :=
  [(place.gProt, 64), (place.gMb, 64), (place.gStage, 4), (place.gMTrapStack, 512), (place.mainT, 4)]

/-- A placement the linker can produce: every object in SRAM, no two on the same bytes,
`g_prot` on a 64-byte boundary. -/
structure Layout extends Placement where
  aligned : gProt.toNat % 64 = 0
  inSram : ∀ object ∈ toPlacement.objects,
    sramStart ≤ object.1.toNat ∧ object.1.toNat + object.2 ≤ sramEnd
  apart : toPlacement.objects.Pairwise Separate

variable (layout : Layout)

def Placement.secret (place : Placement) : Word := place.gProt
def Placement.counter (place : Placement) : Word := byteAt place.gProt 4
def Placement.key (place : Placement) : Word := byteAt place.gProt 8
def Placement.mailbox (place : Placement) (index : Nat) : Word := byteAt place.gMb (4 * index)
def Placement.trapStackTop (place : Placement) : Word := byteAt place.gMTrapStack 512

/-- The caller-saved registers in the order of `trap_frame_t`. -/
abbrev Regs := Fin 16 → Word

def a0 : Fin 16 := 0
def a1 : Fin 16 := 1
def a7 : Fin 16 := 7

def frameSlot (frame : Word) (register : Fin 16) : Word := byteAt frame (4 * register.val)

def loadFrame (memory : Memory 32) (frame : Word) : Regs :=
  fun register => load32 memory (frameSlot frame register)

/-- What the program does not decide: which addresses the bus answers, what `mtval` reports,
and what compiled code leaves in registers where one of its own loads or stores faults. -/
structure Platform where
  responds : Access → Word → Bool
  sramResponds : ∀ access address, sramStart ≤ address.toNat → address.toNat < sramEnd →
    responds access address = true
  mtvalOf : Word → Word
  selfTestPc : Word
  selfTestRegs : Word → Regs
  selfTestStale : Word → Word
  signPc : Access → Word
  signRegs : Regs → (Fin 16 → Byte) → Nat → Byte → Regs
  signStale : Regs → (Fin 16 → Byte) → Nat → Byte
  entryPc : Word
  uModeEntry : Word

/-- One run of `trap_entry`: the mode it interrupted and the stack pointer it took
from `mscratch`. -/
structure TrapRecord where
  origin : Mode
  sp : Word

structure Machine where
  mem : Memory 32
  pmp : Pmp
  regs : Regs
  sp : Word
  pc : Word
  mscratch : Word
  mepc : Word
  mcause : Word
  mtval : Word
  mpp : Mode
  mode : Mode
  halted : Bool
  traps : List TrapRecord

def Machine.takeTrap (machine : Machine) (cause tval : Word) : Machine :=
  { machine with
    mcause := cause, mepc := machine.pc, mtval := tval, mpp := machine.mode, mode := .machine }

/-- `csrrw sp, mscratch, sp` and `addi sp, sp, -64`. -/
def Machine.switchStack (machine : Machine) : Machine :=
  { machine with
    sp := machine.mscratch - 64
    mscratch := machine.sp
    traps := machine.traps ++ [⟨machine.mpp, machine.mscratch⟩] }

/-- The sixteen `lw`, `addi sp, sp, 64`, `csrrw sp, mscratch, sp` and `mret`. -/
def Machine.restore (machine : Machine) : Machine :=
  { machine with
    regs := loadFrame machine.mem machine.sp
    sp := machine.mscratch
    mscratch := machine.sp + 64
    mode := machine.mpp
    mpp := .user
    pc := machine.mepc }

/-- The way out of `trap_entry`, unless the dispatcher loops for ever. -/
def Machine.leaveTrap (machine : Machine) : Machine :=
  if machine.halted then machine else machine.restore

/-- The sixteen `sw` where none of them faults. -/
def Machine.saveRegs (machine : Machine) : Machine :=
  { machine with mem := storeWords machine.mem machine.sp (List.ofFn machine.regs) }

def Machine.atFault (machine : Machine) (pc : Word) (regs : Regs) : Machine :=
  { machine with pc := pc, regs := regs }

def Machine.canAccess (machine : Machine) (platform : Platform) (mode : Mode) (access : Access)
    (base : Word) (count : Nat) : Bool :=
  machine.pmp.grants mode access base count &&
    (List.range count).all fun index => platform.responds access (byteAt base index)

def halfword (memory : Memory 32) (address : Word) : BitVec 16 :=
  memory (byteAt address 1) ++ memory address

/-- The access-fault branch of `trap_dispatch`: recover from the Xh3pmpm self-test, or
record and halt. -/
def accessFault (machine : Machine) : Machine :=
  if load32 machine.mem layout.gStage = stageXh3 then
    let mem := store32 machine.mem (layout.mailbox mbXh3Mcause) machine.mcause
    let mem := store32 mem layout.gStage stageU
    let opcode := halfword mem machine.mepc
    { machine with
      mem := mem
      pmp := { machine.pmp with pmpcfgm0 := 0 }
      mepc := machine.mepc + if opcode &&& 3 = 3 then 4 else 2 }
  else
    let mem := store32 machine.mem (layout.mailbox mbMcause) machine.mcause
    let mem := store32 mem (layout.mailbox mbMtval) machine.mtval
    let mem := store32 mem (layout.mailbox mbStage) 0x0000600D
    { machine with mem := mem, halted := true }

variable (platform : Platform)

/-- A `sw` of `trap_entry` that faults itself traps once more; the stack pointer then in
`mscratch` is the one of the interrupted M-mode code. -/
def saveFault (machine : Machine) (address : Word) : Machine :=
  let taken := (machine.atFault platform.entryPc machine.regs).takeTrap 7 (platform.mtvalOf address)
  (accessFault layout taken.switchStack.saveRegs).leaveTrap

def saveWord (machine : Machine) (address value : Word) : Machine :=
  if machine.halted then machine
  else if machine.canAccess platform .machine .write address 4 then
    { machine with mem := store32 machine.mem address value }
  else saveFault layout platform machine address

def saveWords (machine : Machine) (address : Word) : List Word → Machine
  | [] => machine
  | word :: rest => saveWords (saveWord layout platform machine address word) (byteAt address 4) rest

/-- The stack switch and the sixteen `sw` of `trap_entry`. -/
def enterTrap (machine : Machine) : Machine :=
  saveWords layout platform machine.switchStack machine.switchStack.sp (List.ofFn machine.regs)

/-- A load or store of M-mode C code faults: `trap_entry` runs on whatever `mscratch` holds. -/
def machineFault (machine : Machine) (cause address pc : Word) (regs : Regs) : Machine :=
  let entered := enterTrap layout platform
    ((machine.atFault pc regs).takeTrap cause (platform.mtvalOf address))
  (if entered.halted then entered else accessFault layout entered).leaveTrap

def keyBytes (memory : Memory 32) (place : Placement) : Fin 16 → Byte :=
  fun index => memory (byteAt place.key index.val)

/-- The load of `buf[i]`. One that faults and is skipped leaves its register as it was. -/
def signLoad (address : Word) (index : Nat) (machine : Machine) : Machine × Byte :=
  if machine.canAccess platform .machine .read address 1 then (machine, machine.mem address)
  else
    let key := keyBytes machine.mem layout.toPlacement
    let stale := platform.signStale machine.regs key index
    (machineFault layout platform machine 5 address (platform.signPc .read)
      (platform.signRegs machine.regs key index stale), stale)

/-- The store of `(uint8_t)(buf[i] ^ g_prot.key[i % 16])`. -/
def signStore (address : Word) (index : Nat) (old : Byte) (machine : Machine) : Machine :=
  let key := keyBytes machine.mem layout.toPlacement
  if machine.canAccess platform .machine .write address 1 then
    let value := old ^^^ key ⟨index % 16, Nat.mod_lt _ (by decide)⟩
    { machine with mem := Function.update machine.mem address value }
  else machineFault layout platform machine 7 address (platform.signPc .write)
    (platform.signRegs machine.regs key index old)

/-- `buf[i] = (uint8_t)(buf[i] ^ g_prot.key[i % 16])`, a load and a store that may each fault. -/
def svcSignByte (buf : Word) (index : Nat) (machine : Machine) : Machine :=
  if machine.halted then machine else
  let loaded := signLoad layout platform (byteAt buf index) index machine
  if loaded.1.halted then loaded.1
  else signStore layout platform (byteAt buf index) index loaded.2 loaded.1

/-- The first `count` iterations of the loop of `svc_sign`. -/
def svcSignLoop (buf : Word) (machine : Machine) : Nat → Machine
  | 0 => machine
  | count + 1 => svcSignByte layout platform buf count (svcSignLoop buf machine count)

def svcSign (buf len : Word) (machine : Machine) : Machine :=
  if len > 64 then machine
  else if buf + len > layout.gProt ∧ buf < layout.gProt + 64 then machine
  else svcSignLoop layout platform buf machine len.toNat

/-- `switch (f->a7)` of `trap_dispatch`; `frame` is the `trap_frame_t` pointer. -/
def serveCall (frame : Word) (machine : Machine) : Machine :=
  let number := load32 machine.mem (frameSlot frame a7)
  if number = svcGetCounter then
    let value := load32 machine.mem layout.counter + 1
    let mem := store32 machine.mem layout.counter value
    { machine with mem := store32 mem (frameSlot frame a0) value }
  else if number = svcSignNumber then
    let signed := svcSign layout platform (load32 machine.mem (frameSlot frame a0))
      (load32 machine.mem (frameSlot frame a1)) machine
    if signed.halted then signed
    else { signed with mem := store32 signed.mem (frameSlot frame a0) 0 }
  else
    { machine with mem := store32 machine.mem (frameSlot frame a0) 0xFFFFFFFF }

/-- `write_csr(mepc, epc + 4u)`, unless a nested fault has stopped the service. -/
def Machine.skipCall (machine : Machine) (epc : Word) : Machine :=
  if machine.halted then machine else { machine with mepc := epc + 4 }

def trapDispatch (frame : Word) (machine : Machine) : Machine :=
  if machine.mcause = 8 then (serveCall layout platform frame machine).skipCall machine.mepc
  else if machine.mcause = 5 ∨ machine.mcause = 7 then accessFault layout machine
  else
    { machine with
      mem := store32 machine.mem (layout.mailbox mbStage) 0x0000DEAD
      halted := true }

def trapEntry (machine : Machine) : Machine :=
  let entered := enterTrap layout platform machine
  (if entered.halted then entered
    else trapDispatch layout platform entered.sp entered).leaveTrap

def pmpNapot (base size : Word) : Word := (base >>> 2) ||| ((size >>> 3) - 1)

def pmpIsolateSecret (machine : Machine) : Machine :=
  let cfg := ((pmpANapot ||| pmpR ||| pmpW ||| pmpX) <<< 8) ||| pmpANapot
  let pmpaddr := Function.update machine.pmp.pmpaddr 0 (pmpNapot layout.gProt 64)
  { machine with pmp :=
    { pmpaddr := Function.update pmpaddr 1 0xFFFFFFFF
      pmpcfg := Function.update machine.pmp.pmpcfg 0 cfg
      pmpcfgm0 := 0 } }

def Machine.write (machine : Machine) (address value : Word) : Machine :=
  { machine with mem := store32 machine.mem address value }

/-- The machine after a read of `g_prot.secret` by `main`, and the value read. A load that
faults and is skipped leaves its register as it was. -/
def readSecret (stored : Word) (machine : Machine) : Machine × Word :=
  if machine.canAccess platform .machine .read layout.secret 4 then
    (machine, load32 machine.mem layout.secret)
  else
    (machineFault layout platform machine 5 layout.secret platform.selfTestPc
      (platform.selfTestRegs stored), platform.selfTestStale stored)

/-- `main` up to the call of `pmp_isolate_secret`. -/
def mainInit (stored : Word) (key : Fin 16 → Byte) (machine : Machine) : Machine :=
  let mem := storeWords machine.mem layout.gMb (List.replicate mbN 0)
  let mem := store32 mem (layout.mailbox mbMagic) 0x504D5002
  let mem := store32 mem layout.secret stored
  let mem := store32 mem layout.counter 0
  let mem := storeBytes mem layout.key (List.ofFn key)
  { machine with
    mem := mem, mscratch := layout.trapStackTop, mode := .machine, halted := false, traps := [] }

/-- The Xh3pmpm demo: M-mode reads, restricts itself, faults, recovers and reads again. -/
def mainSelfTest (stored : Word) (machine : Machine) : Machine :=
  let before := readSecret layout platform stored machine
  let machine := before.1.write (layout.mailbox mbXh3Before) before.2
  let machine := machine.write layout.gStage stageXh3
  let machine := { machine with pmp := { machine.pmp with pmpcfgm0 := 1 } }
  let tested := readSecret layout platform stored machine
  if tested.1.halted then tested.1 else
  let machine := tested.1.write layout.mainT tested.2
  let after := readSecret layout platform stored machine
  after.1.write (layout.mailbox mbXh3After) after.2

def mainDrop (machine : Machine) : Machine :=
  let machine := machine.write layout.gStage stageU
  let machine := machine.write (layout.mailbox mbStage) 0x00000A11
  { machine with mepc := platform.uModeEntry, pc := platform.uModeEntry, mode := .user, mpp := .user }

/-- `main` up to and including the `mret`, with the secret and the key it stores as parameters. -/
def main (stored : Word) (key : Fin 16 → Byte) (machine : Machine) : Machine :=
  let machine := pmpIsolateSecret layout (mainInit layout stored key machine)
  let machine := mainSelfTest layout platform stored machine
  if machine.halted then machine else mainDrop layout platform machine

def secretValue : Word := 0x5EC00001

def keyValue : Fin 16 → Byte := fun index => BitVec.ofNat 8 (0xA5 + index.val)

/-! U-mode after the drop: any instruction stream, one memory access or trap at a time. -/

/-- The exceptions that are neither access faults nor environment calls. -/
inductive OtherException where
  | instructionMisaligned | instructionAccess | illegalInstruction | breakpoint
  | loadMisaligned | storeMisaligned
  deriving DecidableEq

def OtherException.code : OtherException → Word
  | .instructionMisaligned => 0
  | .instructionAccess => 1
  | .illegalInstruction => 2
  | .breakpoint => 3
  | .loadMisaligned => 4
  | .storeMisaligned => 6

inductive UOp where
  | load (width : Width) (address : Word)
  | store (width : Width) (address value : Word)
  | ecall
  | exception (cause : OtherException)
  deriving DecidableEq

/-- One U-mode instruction with the registers U-mode has put in place for it. -/
structure UStep where
  regs : Regs
  sp : Word
  pc : Word
  op : UOp

inductive Observation where
  | loaded (bytes : List Byte)
  | stored
  | returned (regs : Regs)
  | faulted
  | stopped

def userTrap (machine : Machine) (cause tval : Word) : Machine :=
  trapEntry layout platform (machine.takeTrap cause tval)

def Machine.atStep (machine : Machine) (step : UStep) : Machine :=
  { machine with regs := step.regs, sp := step.sp, pc := step.pc }

def userOp (machine : Machine) : UOp → Machine × Observation
  | .load width address =>
      if machine.canAccess platform machine.mode .read address width.bytes then
        (machine, .loaded (loadBytes machine.mem address width.bytes))
      else (userTrap layout platform machine 5 (platform.mtvalOf address), .faulted)
  | .store width address value =>
      if machine.canAccess platform machine.mode .write address width.bytes then
        ({ machine with mem := storeBytes machine.mem address (storeValue width value) }, .stored)
      else (userTrap layout platform machine 7 (platform.mtvalOf address), .faulted)
  | .ecall =>
      let after := userTrap layout platform machine 8 0
      (after, if after.halted then .stopped else .returned after.regs)
  | .exception cause => (userTrap layout platform machine cause.code 0, .faulted)

def userStep (machine : Machine) (step : UStep) : Machine × Observation :=
  if machine.halted then (machine, .stopped)
  else userOp layout platform (machine.atStep step) step.op

end Rp2350Tee.PmpProgram
