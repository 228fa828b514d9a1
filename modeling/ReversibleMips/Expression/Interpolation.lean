import ReversibleMips.Expression.Comparison
import ReversibleMips.Expression.Shown
import ReversibleMips.Text.DigitValue

/-!
# Filling in values

Two ways to put values into a text: at marks with a percent sign, which tell how a value is
written, and at fields in braces, which tell which value is meant.
-/

namespace ReversibleMips
namespace Expression

def ascii (char : Char) : UInt8 := UInt8.ofNat char.toNat

/-- The bytes of a code point.  The replacement character stands for those that are no
characters. -/
def bytesOfPoint (point : Nat) : List UInt8 :=
  String.utf8EncodeChar (if valid : point.isValidChar then Char.ofNatAux point valid
    else Glyph.replacement)

def inBase (base : Nat) (value : Int) : List Char :=
  let digits := Nat.toDigits base value.natAbs
  if value < 0 then '-' :: digits else digits

def onlyPoint? (bytes : ByteArray) : Option Nat :=
  match Glyphs.ofBytes bytes.toList with
  | [glyph] => some glyph.shown.toNat
  | _ => none

def Value.number? : Value → Option Float
  | .float value => some value
  | .int value => some (Float.ofInt value)
  | _ => Option.none

def converted? (heap : Heap) (letter : Char) (value : Value) : Option ByteArray :=
  match letter with
  | 's' => some (heap.asText value)
  | 'r' => some (heap.shown value)
  | 'd' | 'i' => value.wholeNumber?.map fun number => bytesOfChars (inBase 10 number)
  | 'o' => value.wholeNumber?.map fun number => bytesOfChars (inBase 8 number)
  | 'x' => value.wholeNumber?.map fun number => bytesOfChars (inBase 16 number)
  | 'X' =>
      value.wholeNumber?.map fun number => bytesOfChars ((inBase 16 number).map Char.toUpper)
  | 'e' => value.number?.map fun number => bytesOfChars (FloatStyle.scientific.shown 'e' number)
  | 'E' => value.number?.map fun number => bytesOfChars (FloatStyle.scientific.shown 'E' number)
  | 'f' => value.number?.map fun number => bytesOfChars (FloatStyle.fixed.shown 'e' number)
  | 'F' =>
      value.number?.map fun number =>
        if number.isFinite then "%F".toUTF8
        else bytesOfChars (FloatStyle.fixed.shown 'e' number)
  | 'g' => value.number?.map fun number => bytesOfChars (FloatStyle.shortest.shown 'e' number)
  | 'G' => value.number?.map fun number => bytesOfChars (FloatStyle.shortest.shown 'E' number)
  | 'c' =>
      match value with
      | .int point =>
          if 0 ≤ point ∧ point < 0x110000 then some ⟨(bytesOfPoint point.toNat).toArray⟩ else none
      | .text bytes => (onlyPoint? bytes).map fun point => ⟨(bytesOfPoint point).toArray⟩
      | _ => none
  | '%' => some "%".toUTF8
  | _ => none

/-- The value that a mark means: that of a key in parentheses, or the next one.  The result
has what stands behind the key. -/
def marked? (heap : Heap) (argument : Value) (index : Nat) (bytes : List UInt8) :
    Option (Value × List UInt8) :=
  match bytes with
  | 0x28 :: rest =>
      match rest.dropWhile (· ≠ ascii ')'), argument with
      | _ :: behind, .dict address =>
          match (heap.dict address).find? (.text (rest.takeWhile (· ≠ ascii ')'))) with
          | some value => some (value, behind)
          | none => none
      | _, _ => none
  | rest =>
      match argument with
      | .tuple items => items[index]?.map (·, rest)
      | argument => if index = 0 then some (argument, rest) else none

/-- Fill values in at marks, behind what has been made, with the number of those already
filled in.  The first argument bounds the length of the text. -/
def fillMarks (heap : Heap) (argument : Value) :
    Nat → ByteArray → Nat → List UInt8 → Option (ByteArray × Nat)
  | 0, made, index, _ => some (made, index)
  | _ + 1, made, index, [] => some (made, index)
  | bound + 1, made, index, byte :: rest =>
      if byte ≠ ascii '%' then fillMarks heap argument bound (made.push byte) index rest
      else if rest.head? = some (ascii '%') then
        fillMarks heap argument bound (made.push byte) index (rest.drop 1)
      else
        match marked? heap argument index rest with
        | some (value, letter :: rest) =>
            match converted? heap (Char.ofNat letter.toNat) value with
            | some piece => fillMarks heap argument bound (made ++ piece) (index + 1) rest
            | none => none
        | _ => none

/-- Fill the items of a tuple, the values of a dictionary or a single value in at the marks
of a text.  All have to be filled in, but not the values of a dictionary. -/
def Heap.interpolate (heap : Heap) (text : ByteArray) (argument : Value) :
    Except Failure Value :=
  match fillMarks heap argument (text.size + 1) .empty 0 text.toList with
  | none => .error .evaluation
  | some (made, index) =>
      let complete : Bool :=
        match argument with
        | .tuple items => items.size ≤ index
        | .dict _ => true
        | _ => 1 ≤ index
      if complete then .ok (.text made) else .error .evaluation

structure Field where
  name : List UInt8
  conversion : List UInt8
  detail : List UInt8

def cutAt? (mark : UInt8) (bytes : List UInt8) : Option (List UInt8 × List UInt8) :=
  match bytes.dropWhile (· ≠ mark) with
  | _ :: rest => some (bytes.takeWhile (· ≠ mark), rest)
  | [] => none

def Field.ofBytes (bytes : List UInt8) : Field :=
  match cutAt? (ascii '!') bytes with
  | none =>
      match cutAt? (ascii ':') bytes with
      | none => ⟨bytes, [ascii 's'], []⟩
      | some (name, detail) => ⟨name, [ascii 's'], detail⟩
  | some (name, rest) =>
      match cutAt? (ascii ':') rest with
      | none => ⟨name, rest, []⟩
      | some (conversion, detail) => ⟨name, conversion, detail⟩

/-- How the fields so far have named their values. -/
inductive Numbering where
  | unset
  | automatic (next : Nat)
  | manual
deriving DecidableEq

/-- The number that digits are, if they are, in sixty-four bits.  Bits beyond get lost, and
there is no number once it turns negative. -/
def placeOf? (chars : List Char) : Option Nat :=
  if chars.all Char.isDigit then
    (chars.foldl
      (fun (number : Option Int) char =>
        (number.map fun number => wrapped (10 * number + Text.digitOrZero char)).filter (0 ≤ ·))
      (some 0)).map Int.toNat
  else
    none

def fieldValue? (arguments : Array Value) (named : List (List UInt8 × Value))
    (numbering : Numbering) (name : List UInt8) : Option (Value × Numbering) :=
  if name.isEmpty then
    match numbering with
    | .manual => none
    | .unset => arguments[0]?.map (·, .automatic 1)
    | .automatic next => arguments[next]?.map (·, .automatic (next + 1))
  else
    match placeOf? (name.map fun byte => Char.ofNat byte.toNat), numbering with
    | some _, .automatic _ => none
    | some place, _ => arguments[place]?.map (·, .manual)
    | none, _ => (named.lookup name).map (·, numbering)

def fieldText? (heap : Heap) (field : Field) (value : Value) : Option ByteArray :=
  if !field.detail.isEmpty then none
  else if field.conversion = [ascii 's'] then some (heap.asText value)
  else if field.conversion = [ascii 'r'] then some (heap.shown value)
  else none

/-- Fill values in at fields, behind what has been made.  The first argument bounds the
length of the text. -/
def fillFields (heap : Heap) (arguments : Array Value) (named : List (List UInt8 × Value)) :
    Nat → ByteArray → Numbering → List UInt8 → Option ByteArray
  | 0, made, _, _ => some made
  | _ + 1, made, _, [] => some made
  | bound + 1, made, numbering, byte :: rest =>
      if byte = 0x7d then
        if rest.head? = some byte then
          fillFields heap arguments named bound (made.push byte) numbering (rest.drop 1)
        else none
      else if byte = 0x7b then
        if rest.head? = some byte then
          fillFields heap arguments named bound (made.push byte) numbering (rest.drop 1)
        else
          match cutAt? 0x7d rest with
          | none => none
          | some (inside, rest) =>
              let field := Field.ofBytes inside
              match fieldValue? arguments named numbering field.name with
              | none => none
              | some (value, numbering) =>
                  match fieldText? heap field value with
                  | none => none
                  | some piece =>
                      fillFields heap arguments named bound (made ++ piece) numbering rest
      else
        fillFields heap arguments named bound (made.push byte) numbering rest

def Heap.format (heap : Heap) (text : ByteArray) (arguments : Array Value)
    (named : List (List UInt8 × Value)) : Except Failure Value :=
  match fillFields heap arguments named (text.size + 1) .empty .unset text.toList with
  | some made => .ok (.text made)
  | none => .error .evaluation

end Expression
end ReversibleMips
