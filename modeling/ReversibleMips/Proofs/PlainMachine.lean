import ReversibleMips.Machine.Interpreter

/-!
# Plain machines

A plain machine is the reference for what programs do.  Its memory is nothing but words,
each of which is decoded whenever it is fetched; writing a register, a word of memory or
the program counter just assigns it; and nothing is recorded or told.
-/

namespace ReversibleMips

/-- The state of a processor whose memory is nothing but words. -/
structure PlainMachine where
  registers : Registers
  words : Array Word
  pc : Address
  tape : Tape
deriving DecidableEq

namespace PlainMachine

def register (machine : PlainMachine) (register : Register) : Word :=
  machine.registers.read register

def memory (machine : PlainMachine) (address : Address) : Except Fault Word :=
  match machine.words[address.index]? with
  | some word => .ok word
  | none => .error (.memory ⟨address⟩)

def setRegister (machine : PlainMachine) (register : Register) (value : Word) :
    PlainMachine :=
  { machine with registers := machine.registers.write register value }

def setPair (machine : PlainMachine) (high low : Word) : PlainMachine :=
  (machine.setRegister .hi high).setRegister .lo low

def setMemory (machine : PlainMachine) (address : Address) (value : Word) :
    PlainMachine × Option Fault :=
  if address.index < machine.words.size then
    ({ machine with words := machine.words.setIfInBounds address.index value }, none)
  else
    (machine, some (.memory ⟨address⟩))

/-- Assign the program counter.  Its new value is computed from the old one, and the
computation may itself assign registers or fail. -/
def setPc (machine : PlainMachine)
    (next : Address → PlainMachine → PlainMachine × Except Fault Address) :
    PlainMachine × Option Fault :=
  match next machine.pc machine with
  | (machine, .error fault) => (machine, some fault)
  | (machine, .ok pc) => ({ machine with pc := pc }, none)

def input (machine : PlainMachine) (register : Register) : PlainMachine :=
  let (value, tape) := machine.tape.read
  { machine with tape := tape }.setRegister register (inputWord value)

def output (machine : PlainMachine) (value : UInt8) : PlainMachine × Option Fault :=
  match machine.tape.write value with
  | .error error => (machine, some (.tape error))
  | .ok tape => ({ machine with tape := tape }, none)

def place (machine : PlainMachine) (base : Register) (offset : Int16) :
    Except Fault Address :=
  (Address.ofValue (machine.register base + UInt32.ofInt offset.toInt)).mapError .address

def load (machine : PlainMachine) (word : Word) : PlainMachine × Option Fault :=
  match machine.place word.regS word.immediate with
  | .error fault => (machine, some fault)
  | .ok address =>
      if address.value = Machine.inputAddress then (machine.input word.regT, none)
      else
        match machine.memory address with
        | .error fault => (machine, some fault)
        | .ok value => (machine.setRegister word.regT value, none)

def store (machine : PlainMachine) (word : Word) : PlainMachine × Option Fault :=
  match machine.place word.regS word.immediate with
  | .error fault => (machine, some fault)
  | .ok address =>
      let value := machine.register word.regT
      if address.value = Machine.outputAddress then machine.output value.toUInt8
      else machine.setMemory address value

def branch (machine : PlainMachine) (word : Word) (taken : Bool) :
    PlainMachine × Option Fault :=
  machine.setPc fun pc machine =>
    if taken then (machine, (pc.add word.immediate.toInt).mapError .address)
    else (machine, .ok pc)

/-- Assign a register the word at the program counter, and skip that word. -/
def loadNext (machine : PlainMachine) (destination : Register) :
    PlainMachine × Option Fault :=
  machine.setPc fun pc machine =>
    match machine.memory pc with
    | .error fault => (machine, .error fault)
    | .ok value =>
        (machine.setRegister destination value, (pc.add 1).mapError .address)

/-- Jump to the address in a register, after doing something with the program counter. -/
def jump (machine : PlainMachine) (source : Register)
    (before : Address → PlainMachine → PlainMachine) : PlainMachine × Option Fault :=
  match Address.ofValue (machine.register source) with
  | .error error => (machine, some (.address error))
  | .ok target => machine.setPc fun pc machine => (before pc machine, .ok target)

def execute (machine : PlainMachine) (instruction : Instruction) :
    PlainMachine × Option Fault :=
  let word := instruction.word
  let s := machine.register word.regS
  let t := machine.register word.regT
  match instruction.op with
  | .add => (machine.setRegister word.regD (s + t), none)
  | .sub => (machine.setRegister word.regD (s - t), none)
  | .slt => (machine.setRegister word.regD (if s.toInt32 < t.toInt32 then 1 else 0), none)
  | .sltu => (machine.setRegister word.regD (if s < t then 1 else 0), none)
  | .mult =>
      let product := s.toInt32.toInt * t.toInt32.toInt
      (machine.setPair (UInt32.ofInt (product / 0x100000000)) (UInt32.ofInt product), none)
  | .multu =>
      let product := s.toNat * t.toNat
      (machine.setPair (UInt32.ofNat (product / 0x100000000)) (UInt32.ofNat product), none)
  | .div =>
      if t = 0 then (machine, some .divisionByZero)
      else
        (machine.setPair (s.toInt32 % t.toInt32).toUInt32 (s.toInt32 / t.toInt32).toUInt32,
          none)
  | .divu =>
      if t = 0 then (machine, some .divisionByZero)
      else (machine.setPair (s % t) (s / t), none)
  | .mfhi => (machine.setRegister word.regD (machine.register .hi), none)
  | .mflo => (machine.setRegister word.regD (machine.register .lo), none)
  | .lis => machine.loadNext word.regD
  | .lw => machine.load word
  | .sw => machine.store word
  | .beq => machine.branch word (s = t)
  | .bne => machine.branch word (s ≠ t)
  | .jr => machine.jump word.regS fun _ machine => machine
  | .jalr => machine.jump word.regS fun pc machine => machine.setRegister .link pc.value
  | .word | .other _ => (machine, some (.code ⟨.notExecutable, instruction.op, word⟩))

/-- Stop where the program returns to.  Otherwise fetch the word at the program counter,
decode it, move on by one word, and execute it. -/
def step (machine : PlainMachine) : PlainMachine × Option StepError :=
  let pc := machine.pc
  if pc.value = Machine.returnAddress then (machine, some .terminated)
  else
    match machine.memory pc with
    | .error fault => (machine, some (.failed pc (.decode 0 pc) fault))
    | .ok word =>
        let instruction := Instruction.decode word pc
        match machine.setPc fun pc machine => (machine, (pc.add 1).mapError .address) with
        | (machine, some fault) => (machine, some (.failed pc instruction fault))
        | (machine, none) =>
            let (machine, fault) := machine.execute instruction
            (machine, fault.map (.failed pc instruction))

def steps : List (Tape → Tape) → PlainMachine → PlainMachine × List (Option StepError)
  | [], machine => (machine, [])
  | change :: changes, machine =>
      let (next, error) := { machine with tape := change machine.tape }.step
      let (last, errors) := steps changes next
      (last, error :: errors)

end PlainMachine
end ReversibleMips
