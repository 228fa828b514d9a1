import ReversibleMips.Emulator.Basic

/-!
# Running forwards

A step fetches the instruction at the program counter, moves on and makes the
writes that the instruction asks for.  Each write is recorded in the frame of the
step before it is made, and told as an event after it has been made.  A step that
fails keeps the frame of what it had done by then.
-/

namespace ReversibleMips

/-- What becomes of the writes of an effect. -/
structure Performance where
  emulator : Emulator
  frame : Frame
  events : List Event
  fault : Option Fault

namespace Emulator

def setRegister (emulator : Emulator) (register : Register) (value : Word) : Performance :=
  let prior := emulator.registers.read register
  { emulator := { emulator with registers := emulator.registers.write register value }
    frame := [.ofRegister register prior]
    events := [.register register prior]
    fault := none }

def setMemory (emulator : Emulator) (address : Address) (value : Word) : Performance :=
  match emulator.ram.read address with
  | .error error => ⟨emulator, [], [], some (.memory error)⟩
  | .ok prior =>
      { emulator := { emulator with ram := emulator.ram.setIndex address.index value }
        frame := [.ofMemory address prior]
        events := [.memory address prior]
        fault := none }

/-- Replace the program counter, recording what it was. -/
def setPc (emulator : Emulator) (link : Option (Register × Word))
    (target : Except Fault Address) : Performance :=
  let leaving := Mutation.ofPc emulator.pc
  let linked : Performance :=
    match link with
    | none => ⟨emulator, [], [], none⟩
    | some (register, value) => emulator.setRegister register value
  match target with
  | .error fault => ⟨linked.emulator, leaving :: linked.frame, linked.events, some fault⟩
  | .ok pc =>
      ⟨{ linked.emulator with pc := pc }, leaving :: linked.frame,
        linked.events ++ [.pc pc], none⟩

def perform (emulator : Emulator) : Effect → Performance
  | .write register value => emulator.setRegister register value
  | .writePair high low =>
      let first := emulator.setRegister .hi high
      let second := first.emulator.setRegister .lo low
      ⟨second.emulator, first.frame ++ second.frame, first.events ++ second.events, none⟩
  | .store address value => emulator.setMemory address value
  | .receive register =>
      let (value, tape) := emulator.tape.read
      { emulator with tape := tape }.setRegister register (inputWord value)
  | .send value =>
      match emulator.tape.write value with
      | .error error => ⟨emulator, [], [], some (.tape error)⟩
      | .ok tape => ⟨{ emulator with tape := tape }, [], [], none⟩
  | .jump link target => emulator.setPc link target

def execute (emulator : Emulator) (instruction : Instruction) : Performance :=
  match instruction.effect emulator.toMachine with
  | .error fault => ⟨emulator, [], [], some fault⟩
  | .ok effect => emulator.perform effect

/-- Move on to the word after an instruction and execute it. -/
def advance (emulator : Emulator) (instruction : Instruction) : Performance :=
  let moved := emulator.setPc none ((emulator.pc.add 1).mapError .address)
  match moved.fault with
  | some fault => ⟨moved.emulator, moved.frame, moved.events, some fault⟩
  | none =>
      let executed := moved.emulator.execute instruction
      ⟨executed.emulator, moved.frame ++ executed.frame, moved.events ++ executed.events,
        executed.fault⟩

/-- Close a step: its frame goes to the journal and its outcome is told. -/
def conclude (pc : Address) (instruction : Instruction) (performance : Performance) : Outcome :=
  let error := performance.fault.map (StepError.failed pc instruction)
  { emulator :=
      { performance.emulator with
        journal := performance.emulator.journal.push performance.frame }
    events := performance.events ++ [.ran instruction performance.frame error]
    error := error.map .step }

def step (emulator : Emulator) : Outcome :=
  if emulator.terminated then
    ⟨emulator, [], some (.step .terminated)⟩
  else
    let pc := emulator.pc
    match emulator.ram.instruction pc with
    | .error error =>
        conclude pc (.decode 0 pc) ⟨emulator, [], [], some (.memory error)⟩
    | .ok instruction => conclude pc instruction (emulator.advance instruction)

inductive Ending where
  | unfinished
  | returned
  | failed (error : EmulatorError)
deriving DecidableEq

/-- What becomes of a run. -/
structure Run where
  emulator : Emulator
  events : List Event
  ending : Ending

/-- Run a program until it returns or fails, for at most a number of steps. -/
def runFor : Nat → Emulator → Run
  | 0, emulator => ⟨emulator, [], if emulator.terminated then .returned else .unfinished⟩
  | steps + 1, emulator =>
      if emulator.terminated then
        ⟨emulator, [], .returned⟩
      else
        match emulator.step with
        | ⟨emulator, events, some error⟩ => ⟨emulator, events, .failed error⟩
        | ⟨emulator, events, none⟩ =>
            let later := runFor steps emulator
            ⟨later.emulator, events ++ later.events, later.ending⟩

end Emulator
end ReversibleMips
