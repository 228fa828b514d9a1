import ReversibleMips.Machine.Basic

/-!
# What instructions do

The effect of an instruction is found from the state before it, and is a value
that says which writes to make.  A machine that keeps a journal and one that does
not then only differ in how they make these writes.

When an effect is found, the program counter has already moved on to the word
after the instruction.
-/

namespace ReversibleMips

/-- The writes that an instruction asks for. -/
inductive Effect where
  | write (register : Register) (value : Word)
  | writePair (high low : Word)
  | store (address : Address) (value : Word)
  | receive (register : Register)
  | send (value : UInt8)
  /-- Replace the program counter.  A register may be written on the way, and
  this happens even if there is no place to go on at. -/
  | jump (link : Option (Register × Word)) (target : Except Fault Address)

namespace Instruction

/-- The address that a load or a store names: a register plus the immediate. -/
def effectiveAddress (instruction : Instruction) (registers : Registers) :
    Except AddressError Address :=
  Address.ofValue
    (registers.read instruction.word.regS +
      UInt32.ofInt instruction.word.immediate.toInt)

def branch (instruction : Instruction) (pc : Address) (taken : Bool) : Effect :=
  if taken then
    .jump none ((pc.add instruction.word.immediate.toInt).mapError .address)
  else
    .jump none (.ok pc)

def truth (holds : Bool) : Word := if holds then 1 else 0

def loadEffect (instruction : Instruction) (machine : Machine) : Except Fault Effect :=
  match instruction.effectiveAddress machine.registers with
  | .error error => .error (.address error)
  | .ok address =>
      if address.value = Machine.inputAddress then
        .ok (.receive instruction.word.regT)
      else
        match machine.ram.read address with
        | .error error => .error (.memory error)
        | .ok value => .ok (.write instruction.word.regT value)

def storeEffect (instruction : Instruction) (machine : Machine) : Except Fault Effect :=
  match instruction.effectiveAddress machine.registers with
  | .error error => .error (.address error)
  | .ok address =>
      let value := machine.registers.read instruction.word.regT
      if address.value = Machine.outputAddress then
        .ok (.send value.toUInt8)
      else
        .ok (.store address value)

/-- The effect of loading the word that follows the instruction, and skipping
it. -/
def lisEffect (instruction : Instruction) (machine : Machine) : Effect :=
  match machine.ram.read machine.pc with
  | .error error => .jump none (.error (.memory error))
  | .ok value =>
      .jump (some (instruction.word.regD, value)) ((machine.pc.add 1).mapError .address)

def jumpEffect (instruction : Instruction) (machine : Machine)
    (link : Option (Register × Word)) : Except Fault Effect :=
  match Address.ofValue (machine.registers.read instruction.word.regS) with
  | .error error => .error (.address error)
  | .ok target => .ok (.jump link (.ok target))

def effect (instruction : Instruction) (machine : Machine) : Except Fault Effect :=
  let word := instruction.word
  let s := machine.registers.read word.regS
  let t := machine.registers.read word.regT
  match instruction.op with
  | .add => .ok (.write word.regD (s + t))
  | .sub => .ok (.write word.regD (s - t))
  | .slt => .ok (.write word.regD (truth (s.toInt32 < t.toInt32)))
  | .sltu => .ok (.write word.regD (truth (s < t)))
  | .mult =>
      let product := s.toInt32.toInt * t.toInt32.toInt
      .ok (.writePair (UInt32.ofInt (product / 0x100000000)) (UInt32.ofInt product))
  | .multu =>
      let product := s.toNat * t.toNat
      .ok (.writePair (UInt32.ofNat (product / 0x100000000)) (UInt32.ofNat product))
  | .div =>
      if t = 0 then .error .divisionByZero
      else .ok (.writePair (s.toInt32 % t.toInt32).toUInt32 (s.toInt32 / t.toInt32).toUInt32)
  | .divu =>
      if t = 0 then .error .divisionByZero
      else .ok (.writePair (s % t) (s / t))
  | .mfhi => .ok (.write word.regD (machine.registers.read .hi))
  | .mflo => .ok (.write word.regD (machine.registers.read .lo))
  | .lis => .ok (instruction.lisEffect machine)
  | .lw => instruction.loadEffect machine
  | .sw => instruction.storeEffect machine
  | .beq => .ok (instruction.branch machine.pc (s = t))
  | .bne => .ok (instruction.branch machine.pc (s ≠ t))
  | .jr => instruction.jumpEffect machine none
  | .jalr => instruction.jumpEffect machine (some (.link, machine.pc.value))
  | .word | .other _ => .error (.code ⟨.notExecutable, instruction.op, word⟩)

end Instruction
end ReversibleMips
