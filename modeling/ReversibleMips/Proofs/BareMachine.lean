import ReversibleMips.Emulator.Basic

/-!
# Machines of bare numbers

In an emulator every address is aligned and every register exists, because their types say so,
and the frame of a step reaches the journal only when the step is over.  A bare machine has
none of this.  Its program counter and the locations of its records are plain words, registers
are looked up by numbers, and each record is added to a frame that has to be open.  These things
are checked when they are used, and a check that fails is a misuse, which stops the machine.
-/

namespace ReversibleMips

/-- The prior state of something, at a location that is any word. -/
structure BareRecord where
  kind : MutationKind
  location : Word
  prior : Word
deriving DecidableEq

/-- The state of an emulator in plain numbers. -/
structure BareMachine where
  registers : Registers
  ram : Ram
  pc : Word
  tape : Tape
  journal : List (List BareRecord)
deriving DecidableEq

namespace BareMachine

/-- What an instruction does to a bare machine.  A fault leaves the machine as it is by then, and
a misuse leaves nothing. -/
structure Recorder (α : Type) where
  run : BareMachine → Except Misuse (Except Fault α × BareMachine)

namespace Recorder

protected def pure {α : Type} (value : α) : Recorder α where
  run machine := .ok (.ok value, machine)

protected def bind {α β : Type} (first : Recorder α) (next : α → Recorder β) : Recorder β where
  run machine :=
    match first.run machine with
    | .error misuse => .error misuse
    | .ok (.error fault, machine) => .ok (.error fault, machine)
    | .ok (.ok value, machine) => (next value).run machine

instance : Monad Recorder where
  pure := Recorder.pure
  bind := Recorder.bind

def ofResult {α : Type} (result : Except Fault α) : Recorder α where
  run machine := .ok (result, machine)

end Recorder

def place (offset : Word) : Address := .ofNat (offset.toNat / 4)

def offsetOf (index : Int) : Word :=
  if 0 ≤ index ∧ index ≤ 0x3fffffff then UInt32.ofInt index * 4 else 0

def aligned (offset : Word) : Except Fault Word :=
  if offset % 4 = 0 then .ok offset else .error (.address (.misaligned offset))

/-- A byte offset moved by a number of words, as far as there is room before and behind it. -/
def moved (offset : Word) (words : Int) : Except Fault Word :=
  let index := offset.toNat / 4
  if words < 0 then
    if index < words.natAbs then .error (.address .outside)
    else .ok (offset - UInt32.ofNat words.natAbs * 4)
  else if 0x3fffffff - index < words.natAbs then .error (.address .outside)
  else .ok (offset + UInt32.ofNat words.natAbs * 4)

def register (index : Int) : Recorder Word where
  run machine :=
    match Register.ofIndex index with
    | .error misuse => .error misuse
    | .ok register => .ok (.ok (machine.registers.read register), machine)

def assignRegister (index : Int) (value : Word) : Recorder Unit where
  run machine :=
    match Register.ofIndex index with
    | .error misuse => .error misuse
    | .ok register =>
        .ok (.ok (), { machine with registers := machine.registers.write register value })

def memory (offset : Word) : Recorder Word where
  run machine :=
    match machine.ram.read (place offset) with
    | .error error => .ok (.error (.memory error), machine)
    | .ok value => .ok (.ok value, machine)

def assignMemory (offset value : Word) : Recorder Unit where
  run machine :=
    match machine.ram.write (place offset) value with
    | .error error => .ok (.error (.memory error), machine)
    | .ok ram => .ok (.ok (), { machine with ram := ram })

def programCounter : Recorder Word where
  run machine := .ok (.ok machine.pc, machine)

def assignPc (pc : Word) : Recorder Unit where
  run machine := .ok (.ok (), { machine with pc := pc })

def input : Recorder (Option UInt8) where
  run machine := .ok (.ok machine.tape.read.1, { machine with tape := machine.tape.read.2 })

def output (value : UInt8) : Recorder Unit where
  run machine :=
    match machine.tape.write value with
    | .error error => .ok (.error (.tape error), machine)
    | .ok tape => .ok (.ok (), { machine with tape := tape })

def openFrame (machine : BareMachine) : BareMachine :=
  { machine with journal := [] :: machine.journal }

def record (entry : BareRecord) : Recorder Unit where
  run machine :=
    match machine.journal with
    | [] => .error .noOpenFrame
    | frame :: earlier =>
        .ok (.ok (), { machine with journal := (frame ++ [entry]) :: earlier })

def setRegister (index : Int) (value : Word) : Recorder Unit := do
  let prior ← register index
  record ⟨.register, offsetOf index, prior⟩
  assignRegister index value

def setMemory (offset value : Word) : Recorder Unit := do
  let prior ← memory offset
  record ⟨.memory, offset, prior⟩
  assignMemory offset value

def setPc (next : Word → Recorder Word) : Recorder Unit := do
  let pc ← programCounter
  record ⟨.pc, pc, 0⟩
  assignPc (← next pc)

def field (word shift : Word) : Int := ((word >>> shift) &&& 0x1f).toNat

def effective (word : Word) : Recorder Word := do
  Recorder.ofResult
    (aligned ((← register (field word 21)) + UInt32.ofInt word.immediate.toInt))

/-- Write the two registers of products and divisions. -/
def setPair (high low : Word) : Recorder Unit := do
  setRegister 32 high
  setRegister 33 low

def branch (word : Word) (taken : Bool) : Recorder Unit :=
  setPc fun pc =>
    if taken then .ofResult (moved pc word.immediate.toInt) else pure pc

def execute (op : Op) (word : Word) : Recorder Unit :=
  let s := field word 21
  let t := field word 16
  let d := field word 11
  match op with
  | .add => do setRegister d ((← register s) + (← register t))
  | .sub => do setRegister d ((← register s) - (← register t))
  | .slt => do
      setRegister d (if (← register s).toInt32 < (← register t).toInt32 then 1 else 0)
  | .sltu => do setRegister d (if (← register s) < (← register t) then 1 else 0)
  | .mult => do
      let product := (← register s).toInt32.toInt * (← register t).toInt32.toInt
      setPair (UInt32.ofInt (product / 0x100000000)) (UInt32.ofInt product)
  | .multu => do
      let product := (← register s).toNat * (← register t).toNat
      setPair (UInt32.ofNat (product / 0x100000000)) (UInt32.ofNat product)
  | .div => do
      let dividend ← register s
      let divisor ← register t
      if divisor = 0 then .ofResult (.error .divisionByZero)
      else
        setPair (dividend.toInt32 % divisor.toInt32).toUInt32
          (dividend.toInt32 / divisor.toInt32).toUInt32
  | .divu => do
      let dividend ← register s
      let divisor ← register t
      if divisor = 0 then .ofResult (.error .divisionByZero)
      else setPair (dividend % divisor) (dividend / divisor)
  | .mfhi => do setRegister d (← register 32)
  | .mflo => do setRegister d (← register 33)
  | .lis =>
      setPc fun pc => do
        setRegister d (← memory pc)
        .ofResult (moved pc 1)
  | .lw => do
      let offset ← effective word
      if offset = Machine.inputAddress then setRegister t (inputWord (← input))
      else setRegister t (← memory offset)
  | .sw => do
      let offset ← effective word
      let value ← register t
      if offset = Machine.outputAddress then output value.toUInt8
      else setMemory offset value
  | .beq => do branch word ((← register s) = (← register t))
  | .bne => do branch word ((← register s) ≠ (← register t))
  | .jr => do
      let target ← Recorder.ofResult (aligned (← register s))
      setPc fun _ => pure target
  | .jalr => do
      let target ← Recorder.ofResult (aligned (← register s))
      setPc fun pc => do
        setRegister 31 pc
        pure target
  | .word | .other _ => .ofResult (.error (.code ⟨.notExecutable, op, word⟩))

def advance (instruction : Instruction) : Recorder Unit := do
  setPc fun pc => .ofResult (moved pc 1)
  execute instruction.op instruction.word

/-- A machine after a call, and the error that the call returns. -/
abbrev Reply := Except Misuse (BareMachine × Option EmulatorError)

def step (machine : BareMachine) : Reply :=
  let here := place machine.pc
  if machine.pc = Machine.returnAddress then .ok (machine, some (.step .terminated))
  else
    match machine.ram.instruction here with
    | .error error =>
        .ok (machine.openFrame, some (.step (.failed here (.decode 0 here) (.memory error))))
    | .ok instruction =>
        match (advance instruction).run machine.openFrame with
        | .error misuse => .error misuse
        | .ok (.error fault, machine) =>
            .ok (machine, some (.step (.failed here instruction fault)))
        | .ok (.ok (), machine) => .ok (machine, none)

def restore (machine : BareMachine) (record : BareRecord) : Reply :=
  match record.kind with
  | .register =>
      match Register.ofIndex (place record.location).index with
      | .error misuse => .error misuse
      | .ok register =>
          .ok ({ machine with registers := machine.registers.write register record.prior }, none)
  | .memory =>
      match machine.ram.write (place record.location) record.prior with
      | .error error => .ok (machine, some (.memory error))
      | .ok ram => .ok ({ machine with ram := ram }, none)
  | .pc => .ok ({ machine with pc := record.location }, none)
  | .other _ => .ok (machine, none)

def restoreAll (machine : BareMachine) : List BareRecord → Reply
  | [] => .ok (machine, none)
  | record :: rest =>
      match machine.restore record with
      | .error misuse => .error misuse
      | .ok (machine, some error) => .ok (machine, some error)
      | .ok (machine, none) => machine.restoreAll rest

def undo (machine : BareMachine) : Reply :=
  match machine.journal with
  | [] => .ok (machine, some .noHistory)
  | frame :: earlier => { machine with journal := earlier }.restoreAll frame.reverse

def undoAll : Nat → BareMachine → Reply
  | 0, machine => .ok (machine, none)
  | steps + 1, machine =>
      match machine.undo with
      | .error misuse => .error misuse
      | .ok (machine, some error) => .ok (machine, some error)
      | .ok (machine, none) => undoAll steps machine

/-- Undo the latest steps.  If there are not that many, nothing happens. -/
def stepBack (machine : BareMachine) (count : Int) : Reply :=
  if count < 0 ∨ machine.journal.length < count then .ok (machine, some .noHistory)
  else undoAll count.toNat machine

end BareMachine
end ReversibleMips
