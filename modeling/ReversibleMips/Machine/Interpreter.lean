import ReversibleMips.Machine.Effect

/-!
# The plain interpreter

Running instructions on a machine that keeps no record of what it replaces.  The
word at the program counter is decoded afresh for every step.
-/

namespace ReversibleMips

inductive StepError where
  | terminated
  | failed (pc : Address) (instruction : Instruction) (fault : Fault)
deriving DecidableEq

namespace StepError

def message : StepError → String
  | terminated => "program returned to OS, finished successfully"
  | failed pc instruction fault =>
      "pc " ++ pc.text ++ " '" ++ instruction.text ++ "' " ++ fault.message

end StepError

/-- The word that a read of the input leaves in a register: a byte, or all ones
at the end of the input. -/
def inputWord : Option UInt8 → Word
  | some value => value.toUInt32
  | none => 0xffffffff

namespace Machine

def setRegister (machine : Machine) (register : Register) (value : Word) : Machine :=
  { machine with registers := machine.registers.write register value }

def perform (machine : Machine) : Effect → Machine × Option Fault
  | .write register value => (machine.setRegister register value, none)
  | .writePair high low => ((machine.setRegister .hi high).setRegister .lo low, none)
  | .store address value =>
      match machine.ram.write address value with
      | .error error => (machine, some (.memory error))
      | .ok ram => ({ machine with ram := ram }, none)
  | .receive register =>
      let (value, tape) := machine.tape.read
      ({ machine with tape := tape }.setRegister register (inputWord value), none)
  | .send value =>
      match machine.tape.write value with
      | .error error => (machine, some (.tape error))
      | .ok tape => ({ machine with tape := tape }, none)
  | .jump link target =>
      let linked :=
        match link with
        | none => machine
        | some (register, value) => machine.setRegister register value
      match target with
      | .error fault => (linked, some fault)
      | .ok pc => ({ linked with pc := pc }, none)

def execute (machine : Machine) (instruction : Instruction) : Machine × Option Fault :=
  match instruction.effect machine with
  | .error fault => (machine, some fault)
  | .ok effect => machine.perform effect

/-- Fetch the word at the program counter, move on, and execute it. -/
def step (machine : Machine) : Machine × Option StepError :=
  if machine.terminated then
    (machine, some .terminated)
  else
    let pc := machine.pc
    match machine.ram.read pc with
    | .error error => (machine, some (.failed pc (.decode 0 pc) (.memory error)))
    | .ok word =>
        let instruction := Instruction.decode word pc
        match pc.add 1 with
        | .error error => (machine, some (.failed pc instruction (.address error)))
        | .ok next =>
            let (machine, fault) := { machine with pc := next }.execute instruction
            (machine, fault.map (.failed pc instruction))

end Machine
end ReversibleMips
