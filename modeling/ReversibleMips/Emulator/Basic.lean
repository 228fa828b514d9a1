import ReversibleMips.Journal
import ReversibleMips.Machine.Interpreter

/-!
# The emulator

An emulator is a machine with a journal.  What it does is told in events, for a
listener that follows every change of the state or for a log.
-/

namespace ReversibleMips

/-- Why a request to an emulator is refused or fails. -/
inductive EmulatorError where
  | step (error : StepError)
  | noHistory
  | programSize (bytes : Nat)
  | programRange (words : Nat)
  | arrayRange
  | memory (error : RamError)
  | misuse (misuse : Misuse)
deriving DecidableEq

namespace EmulatorError

def message : EmulatorError → String
  | step error => error.message
  | noHistory => "no more instructions to reverse"
  | programSize bytes =>
      "address must be a multiple of four: program size " ++ toString bytes
  | programRange words =>
      "data is outside memory range: program of " ++ toString words ++ " words"
  | arrayRange => "array has too many elements; is outside memory range"
  | memory error => error.message
  | misuse error => error.message

end EmulatorError

/-- What an emulator tells of its doings.  A listener follows the first four, and
a log the last three. -/
inductive Event where
  | register (register : Register) (prior : Word)
  | memory (address : Address) (prior : Word)
  | pc (pc : Address)
  | ran (instruction : Instruction) (frame : Frame) (error : Option StepError)
  | reversed (pc : Address)
  | loaded (words : Nat)
deriving DecidableEq

namespace Event

def logLine? : Event → Option String
  | ran instruction _ none =>
      some ("emulator: " ++ instruction.address.text ++ ": " ++ instruction.text)
  | ran instruction _ (some error) =>
      some ("emulator: " ++ instruction.address.text ++ ": " ++ error.message)
  | reversed place => some ("emulator: reversed to " ++ place.text)
  | loaded words => some ("emulator: loaded " ++ toString words ++ " words")
  | _ => none

/-- The line of a trace about an event: the instruction that ran, and the state
that it replaced or the error that it met. -/
def traceLine? : Event → Option String
  | ran instruction frame error =>
      let changes := frame.filter fun mutation => mutation.kind ≠ .pc
      let outcome :=
        match error with
        | some error => error.message
        | none => ", ".intercalate (changes.map Mutation.text)
      some
        (instruction.address.text ++ ": " ++ Text.padRight 24 instruction.text ++ " " ++ outcome)
  | _ => none

end Event

/-- A machine that can be run backwards. -/
@[ext]
structure Emulator extends Machine where
  journal : Journal
deriving DecidableEq, Inhabited

/-- What becomes of a request to an emulator. -/
structure Outcome where
  emulator : Emulator
  events : List Event
  error : Option EmulatorError

namespace Emulator

def ofSize (size : Nat) : Emulator :=
  { toMachine := .ofSize size, journal := .empty }

def full : Emulator := ofSize Ram.fullSize

def history (emulator : Emulator) : Nat := emulator.journal.length

/-- Clear the registers, memory, the journal and the program counter, and rewind
the tape. -/
def reset (emulator : Emulator) : Emulator :=
  { registers := .empty
    ram := emulator.ram.reset
    pc := .zero
    tape := emulator.tape.rewind
    journal := .empty }

/-- The names that programs for an emulator may use, with their values. -/
def defines : List (String × String) :=
  ("RETURN_OS", Text.hex Machine.returnAddress.toNat) :: Machine.defines

/-- Every register, and then every word of memory that is not zero. -/
def cells (emulator : Emulator) : List Cell :=
  (emulator.registers.toList.map fun (register, _) => emulator.registers.cell register) ++
    emulator.ram.nonzero.map fun (address, _) =>
      (emulator.ram.cell address).toOption.getD default

/-- The general registers but the zero register, four to a row. -/
def completed (emulator : Emulator) : String :=
  let shown (register : Register) : String :=
    "$" ++ Text.decimal 2 register.val ++ " = " ++
      Text.hexWord (emulator.registers.read register).toNat ++ "  " ++
      if register.val % 4 = 0 then "\n" else ""
  let general := (List.finRange 34).filter fun register => 1 ≤ register.val ∧ register.val < 32
  "MIPS Program Completed\n" ++ String.join (general.map shown) ++ "\n"

end Emulator
end ReversibleMips
