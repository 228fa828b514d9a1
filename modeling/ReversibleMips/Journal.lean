import ReversibleMips.Address
import ReversibleMips.Register

/-!
# The undo journal

Every instruction that runs has a frame in the journal: a record of each piece
of state that it replaced.  Putting the records of a frame back, the latest
first, undoes the instruction.
-/

namespace ReversibleMips

/-- The kind of state that a record restores.  There are records of no known
kind as well; they restore nothing. -/
inductive MutationKind where
  | register
  | memory
  | pc
  | other (code : Int)
deriving DecidableEq

namespace MutationKind

def ofCode : Int → MutationKind
  | 0 => register
  | 1 => memory
  | 2 => pc
  | code => other code

def name : MutationKind → String
  | register => "register"
  | memory => "memory"
  | pc => "pc"
  | other code => "MutationKind(" ++ toString code ++ ")"

end MutationKind

/-- The prior state of one register, word of memory or program counter.

The location of a register is four times its index, and the location of a
program counter is the program counter itself, which leaves no use for the prior
word. -/
@[ext]
structure Mutation where
  kind : MutationKind
  location : Address
  prior : Word
deriving DecidableEq

namespace Mutation

def ofRegister (register : Register) (prior : Word) : Mutation :=
  ⟨.register, Address.ofNat register.val, prior⟩

def ofMemory (address : Address) (prior : Word) : Mutation :=
  ⟨.memory, address, prior⟩

def ofPc (pc : Address) : Mutation :=
  ⟨.pc, pc, 0⟩

def registerIndex (mutation : Mutation) : Nat :=
  mutation.location.index

def text (mutation : Mutation) : String :=
  match mutation.kind with
  | .register =>
      Register.tagOf mutation.registerIndex ++ " was " ++ Text.hexWord mutation.prior.toNat
  | .memory =>
      "M[" ++ mutation.location.hex ++ "] was " ++ Text.hexWord mutation.prior.toNat
  | .pc | .other _ => "pc was " ++ mutation.location.text

end Mutation

/-- The records of one instruction, the earliest first. -/
abbrev Frame := List Mutation

/-- The frames of the instructions that can be undone, the latest first. -/
@[ext]
structure Journal where
  frames : List Frame
deriving DecidableEq

namespace Journal

def empty : Journal := ⟨[]⟩

instance : Inhabited Journal := ⟨empty⟩

def length (journal : Journal) : Nat := journal.frames.length

def push (journal : Journal) (frame : Frame) : Journal :=
  ⟨frame :: journal.frames⟩

def openFrame (journal : Journal) : Journal := journal.push []

/-- Add a record to the open frame, which is the latest. -/
def record (journal : Journal) (mutation : Mutation) : Except Misuse Journal :=
  match journal.frames with
  | [] => .error .noOpenFrame
  | frame :: earlier => .ok ⟨(frame ++ [mutation]) :: earlier⟩

def last? (journal : Journal) : Option Frame := journal.frames.head?

def pop (journal : Journal) : Journal := ⟨journal.frames.tail⟩

def toList (journal : Journal) : List Frame := journal.frames.reverse

def frame? (journal : Journal) : Int → Option Frame
  | .ofNat number => journal.toList[number]?
  | .negSucc _ => none

@[simp]
theorem length_push (journal : Journal) (frame : Frame) :
    (journal.push frame).length = journal.length + 1 := rfl

@[simp]
theorem last?_push (journal : Journal) (frame : Frame) :
    (journal.push frame).last? = some frame := rfl

@[simp]
theorem pop_push (journal : Journal) (frame : Frame) :
    (journal.push frame).pop = journal := rfl

@[simp]
theorem toList_push (journal : Journal) (frame : Frame) :
    (journal.push frame).toList = journal.toList ++ [frame] := by
  simp [toList, push]

end Journal
end ReversibleMips
