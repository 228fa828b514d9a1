import ReversibleMips.Assembler.Fault
import ReversibleMips.Register
import ReversibleMips.Text.Glyph
import ReversibleMips.Text.IntLiteral

/-!
# Operands

The words of a line that name numbers, registers and labels.  A word that is an
equate stands for the text of the equate; that text is not looked up again.
-/

namespace ReversibleMips
namespace Assembler

abbrev Equates := Std.TreeMap Glyphs Glyphs

namespace Equates

def resolve (equates : Equates) (word : Glyphs) : Glyphs :=
  equates[word]?.getD word

/-- The number that a word stands for, as a machine word.  Both signed and unsigned
numbers of thirty-two bits have one. -/
def valueOf (equates : Equates) (word : Glyphs) : Except Fault Word :=
  let meant := equates.resolve word
  match Text.readInt 64 meant.chars with
  | .ok value =>
      if -0x80000000 ≤ value ∧ value ≤ 0xffffffff then .ok (UInt32.ofInt value)
      else .error (.notNumber meant.shown)
  | .error _ => .error (.notNumber meant.shown)

/-- The immediate that a word stands for.  Both signed and unsigned numbers of sixteen
bits are immediates. -/
def immediateOf (equates : Equates) (word : Glyphs) : Except Fault Int16 :=
  match equates.valueOf word with
  | .error fault => .error fault
  | .ok value =>
      let signed := value.toInt32.toInt
      if -0x8000 ≤ signed ∧ signed ≤ 0xffff then .ok (Int16.ofInt signed)
      else .error (.immediateRange word.shown)

def registerOf (equates : Equates) (word : Glyphs) : Except Fault Register :=
  let meant := equates.resolve word
  match meant with
  | .char '$' :: digits =>
      match Text.readDecimal? 255 (Glyphs.chars digits) with
      | some index =>
          if general : index ≤ 31 then .ok ⟨index, by omega⟩
          else .error (.registerInvalid meant.shown)
      | none => .error (.registerInvalid meant.shown)
  | _ => .error (.registerInvalid meant.shown)

def isLabel (equates : Equates) (word : Glyphs) : Bool :=
  !equates.contains word &&
    match word with
    | .char first :: _ => first = '_' || first.isAlpha
    | _ => false

end Equates

def isNameGlyph : Glyph → Bool
  | .char char => char.isAlphanum || char = '_'
  | .stray _ => false

def isBaseName : Glyphs → Bool
  | .char '$' :: name => !name.isEmpty && name.all isNameGlyph
  | name => !name.isEmpty && name.all isNameGlyph

/-- The two parts of an operand such as `-4($30)`: the offset, which may be missing,
and the base register. -/
def indexed? (word : Glyphs) : Option (Glyphs × Glyphs) :=
  match word.reverse with
  | .char ')' :: reversed =>
      match Text.splitLast? (.char '(') reversed.reverse with
      | some (offset, base) => if isBaseName base then some (offset, base) else none
      | none => none
  | _ => none

end Assembler
end ReversibleMips
