import ReversibleMips.Ram
import ReversibleMips.Registers
import ReversibleMips.Tape

/-!
# The machine

The state that instructions act on: registers, memory, the program counter and
the tape behind the two addresses of memory-mapped input and output.
-/

namespace ReversibleMips

/-- Why an instruction fails. -/
inductive Fault where
  | address (error : AddressError)
  | memory (error : RamError)
  | code (error : CodeError)
  | divisionByZero
  | tape (error : TapeError)
deriving DecidableEq

namespace Fault

def message : Fault → String
  | address error => error.message
  | memory error => error.message
  | code error => error.message
  | divisionByZero => "runtime error: integer divide by zero"
  | tape error => error.message

end Fault

/-- The state of a processor. -/
@[ext]
structure Machine where
  registers : Registers
  ram : Ram
  pc : Address
  tape : Tape
deriving DecidableEq, Inhabited

namespace Machine

/-- A load from here reads a byte of the input. -/
def inputAddress : Word := 0xffff0004

/-- A store to here writes the low byte of the register to the output. -/
def outputAddress : Word := 0xffff000c

def returnAddress : Word := 0x8123456c

/-- The names that every source may use for the layout of the machine, with their
values. -/
def defines : List (String × String) :=
  [("MAX_ADDRESS", Text.hex Ram.maxAddress.toNat),
    ("REG_STACK", toString Register.stack.val),
    ("REG_LINK", toString Register.link.val),
    ("STDIN", Text.hex inputAddress.toNat),
    ("STDOUT", Text.hex outputAddress.toNat)]

def ofSize (size : Nat) : Machine :=
  { registers := .empty, ram := .ofSize size, pc := .zero, tape := .detached }

def terminated (machine : Machine) : Bool :=
  machine.pc.value = returnAddress

end Machine
end ReversibleMips
