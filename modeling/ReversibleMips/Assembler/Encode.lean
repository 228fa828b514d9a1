import ReversibleMips.Assembler.Operand
import ReversibleMips.Word

/-!
# Encoding a line

From a mnemonic and its operands to a machine word.  A reference to a label is left
for the linker.
-/

namespace ReversibleMips
namespace Assembler

/-- A machine word, and the label that it still refers to. -/
structure Encoded where
  code : Word
  label : Option Glyphs
deriving DecidableEq

def wrongCount (needed : Nat) (arguments : List Glyphs) : Fault :=
  if arguments.length < needed then .valueMissing else .extraArguments

/-- Encode a word of data, which is a number or a label. -/
def encodeDatum (equates : Equates) : List Glyphs → Except Fault Encoded
  | [argument] =>
      if equates.isLabel argument then .ok ⟨0, some argument⟩
      else (equates.valueOf argument).map fun code => ⟨code, none⟩
  | arguments => .error (wrongCount 1 arguments)

/-- Encode an operation on a destination and two sources. -/
def encodeThree (equates : Equates) (op : Op) : List Glyphs → Except Fault Encoded
  | [destination, first, second] => do
      let d ← equates.registerOf destination
      let s ← equates.registerOf first
      let t ← equates.registerOf second
      return ⟨op.encode s.val t.val d.val 0, none⟩
  | arguments => .error (wrongCount 3 arguments)

def encodeTwo (equates : Equates) (op : Op) : List Glyphs → Except Fault Encoded
  | [first, second] => do
      let s ← equates.registerOf first
      let t ← equates.registerOf second
      return ⟨op.encode s.val t.val 0 0, none⟩
  | arguments => .error (wrongCount 2 arguments)

/-- Encode an operation on one register, which is a source or a destination. -/
def encodeOne (equates : Equates) (op : Op) : List Glyphs → Except Fault Encoded
  | [argument] => do
      let register ← equates.registerOf argument
      return ⟨op.encode register.val 0 register.val 0, none⟩
  | arguments => .error (wrongCount 1 arguments)

/-- Encode a branch by a number of words, or to a label.  Its registers are looked at
before superfluous arguments are. -/
def encodeBranch (equates : Equates) (op : Op) : List Glyphs → Except Fault Encoded
  | first :: second :: target :: rest => do
      let s ← equates.registerOf first
      let t ← equates.registerOf second
      if !rest.isEmpty then
        throw .extraArguments
      else if equates.isLabel target then
        return ⟨op.encode s.val t.val 0 0, some target⟩
      else
        let immediate ← equates.immediateOf target
        return ⟨op.encode s.val t.val 0 immediate, none⟩
  | _ => .error .valueMissing

/-- Encode a load or a store.  An offset that is missing is zero. -/
def encodeIndexed (equates : Equates) (op : Op) : List Glyphs → Except Fault Encoded
  | [register, place] => do
      let t ← equates.registerOf register
      match indexed? place with
      | none => throw (.registerInvalid (Glyphs.shown place))
      | some (offset, base) =>
          let s ← equates.registerOf base
          let immediate ← if offset.isEmpty then pure 0 else equates.immediateOf offset
          return ⟨op.encode s.val t.val 0 immediate, none⟩
  | arguments => .error (wrongCount 2 arguments)

def encode (equates : Equates) (op : Op) (arguments : List Glyphs) : Except Fault Encoded :=
  match op with
  | .word => encodeDatum equates arguments
  | .add | .sub | .slt | .sltu => encodeThree equates op arguments
  | .mult | .multu | .div | .divu => encodeTwo equates op arguments
  | .mfhi | .mflo | .lis | .jr | .jalr => encodeOne equates op arguments
  | .beq | .bne => encodeBranch equates op arguments
  | .lw | .sw => encodeIndexed equates op arguments
  | .other _ => .error .instructionInvalid

end Assembler
end ReversibleMips
