import ReversibleMips.Address
import ReversibleMips.Word

/-!
# Instructions

An instruction is a word of memory together with the operation that it stands
for and the address where it resides.  Decoding never fails: a word that encodes
no operation is an instruction that cannot be executed.
-/

namespace ReversibleMips

/-- Why a word cannot be taken as an operation. -/
inductive CodeCause where
  /-- The opcode or the function code belongs to another operation. -/
  | mismatch
  | badCode
  | notExecutable
deriving DecidableEq

/-- A word that cannot be taken as an operation. -/
structure CodeError where
  cause : CodeCause
  op : Op
  word : Word
deriving DecidableEq

namespace CodeError

def causeText : CodeCause → String
  | .mismatch => "mismatched opcode or operand"
  | .badCode => "bad code"
  | .notExecutable => "executing a non-instruction is not allowed"

def message (error : CodeError) : String :=
  causeText error.cause ++ " on " ++ error.op.name ++ " " ++ Text.hexWord error.word.toNat

end CodeError

/-- A decoded word of memory. -/
@[ext]
structure Instruction where
  op : Op
  word : Word
  address : Address
deriving DecidableEq, Inhabited

namespace Shape

def check (shape : Shape) (word : Word) : Except CodeCause Unit :=
  match shape with
  | data => .ok ()
  | register funct s t d =>
      if word.opcode ≠ 0 ∨ word.funct ≠ funct then
        .error .mismatch
      else if (!s && word.regS.val ≠ 0) || (!t && word.regT.val ≠ 0) ||
          (!d && word.regD.val ≠ 0) then
        .error .badCode
      else
        .ok ()
  | immediate opcode =>
      if word.opcode ≠ opcode then .error .mismatch else .ok ()

end Shape

namespace Instruction

/-- Take a word as a given operation.  A word that is not encoded as the operation comes with the
reason, beside the instruction that it would have been. -/
def attempt (op : Op) (word : Word) (address : Address) : Instruction × Option CodeError :=
  match op.shape? with
  | none => (default, some ⟨.mismatch, op, word⟩)
  | some shape =>
      match shape.check word with
      | .error cause => (⟨op, word, address⟩, some ⟨cause, op, word⟩)
      | .ok () => (⟨op, word, address⟩, none)

/-- Take a word as a given operation, or say why it is not encoded as one. -/
def make (op : Op) (word : Word) (address : Address) : Except CodeError Instruction :=
  match attempt op word address with
  | (instruction, none) => .ok instruction
  | (_, some error) => .error error

/-- The instruction at an address that holds a word.  A word that cannot be taken as the operation
it is tried as stands for itself. -/
def decode (word : Word) (address : Address) : Instruction :=
  match attempt word.likelyOp word address with
  | (instruction, none) => instruction
  | (_, some _) => ⟨.word, word, address⟩

def registerText (register : Register) : String :=
  "$" ++ toString register.val

def text (instruction : Instruction) : String :=
  let name := instruction.op.name
  let s := registerText instruction.word.regS
  let t := registerText instruction.word.regT
  let d := registerText instruction.word.regD
  let immediate := toString instruction.word.immediate.toInt
  match instruction.op with
  | .add | .sub | .slt | .sltu => name ++ " " ++ d ++ ", " ++ s ++ ", " ++ t
  | .mult | .multu | .div | .divu => name ++ " " ++ s ++ ", " ++ t
  | .beq | .bne => name ++ " " ++ s ++ ", " ++ t ++ ", " ++ immediate
  | .lw | .sw => name ++ " " ++ t ++ ", " ++ immediate ++ "(" ++ s ++ ")"
  | .mfhi | .mflo | .lis => name ++ " " ++ d
  | .jr | .jalr => name ++ " " ++ s
  | .word | .other _ => ".word " ++ Text.hexWord instruction.word.toNat

end Instruction
end ReversibleMips
