import ReversibleMips.Expression.Comparison

/-!
# Numbers from texts and other values

Reading integers in a base and numbers with a fraction, and converting values to them.
-/

namespace ReversibleMips
namespace Expression

def natOfDigits? (base : Nat) (digits : List Char) : Option Nat :=
  if !digits.isEmpty && digits.all (Text.isDigitOf base) then
    some (Text.digitsValue base digits)
  else
    none

def markedBase? : List Char → Option Nat
  | '0' :: letter :: _ :: _ =>
      if letter = 'x' ∨ letter = 'X' then some 16
      else if letter = 'o' ∨ letter = 'O' then some 8
      else if letter = 'b' ∨ letter = 'B' then some 2
      else none
  | _ => none

/-- The number that a text without a sign is in a base.  The mark of the base may
stand in front; base zero takes the base from the mark. -/
def natOfText? (base : Nat) (chars : List Char) : Option Nat :=
  match markedBase? chars with
  | some marked =>
      if base = 0 ∨ base = marked then natOfDigits? marked (chars.drop 2)
      else natOfDigits? base chars
  | none =>
      if base = 0 then
        if chars.head? = some '0' ∧ 1 < chars.length then
          if chars.all (· = '0') then some 0 else none
        else natOfDigits? 10 chars
      else natOfDigits? base chars

def singleBytes (bytes : ByteArray) : List Char :=
  bytes.toList.map fun byte => Char.ofNat byte.toNat

def intOfText? (base : Nat) (bytes : ByteArray) : Option Int :=
  match singleBytes bytes with
  | '-' :: rest => (natOfText? base rest).map fun value => -(value : Int)
  | '+' :: rest => (natOfText? base rest).map fun value => (value : Int)
  | rest => (natOfText? base rest).map fun value => (value : Int)

def base? : Option Value → Option Nat
  | none => some 10
  | some value =>
      match value.small? with
      | some base => if base = 0 ∨ (2 ≤ base ∧ base ≤ 36) then some base.toNat else none
      | none => none

def Value.toInt? (value : Value) (base : Option Value) : Option Int :=
  match value, base with
  | .text content, base => (base? base).bind fun base => intOfText? base content
  | .bool value, Option.none => some (if value then 1 else 0)
  | value, Option.none => value.wholeNumber?
  | _, some _ => Option.none

/-- Underscores stand between digits only.  The letters of the base count as a digit.  The
first argument tells what the character before is: a digit, an underscore or something
else. -/
def underscoresFit (isDigit : Char → Bool) : Option Bool → List Char → Bool
  | before, [] => before ≠ some false
  | before, char :: rest =>
      if isDigit char then underscoresFit isDigit (some true) rest
      else if char = '_' then before = some true && underscoresFit isDigit (some false) rest
      else before ≠ some false && underscoresFit isDigit none rest

def mantissa (isDigit : Char → Bool) (chars : List Char) : List Char × List Char × List Char :=
  let (whole, rest) := chars.span isDigit
  match rest with
  | '.' :: rest =>
      let (fraction, rest) := rest.span isDigit
      (whole, fraction, rest)
  | rest => (whole, [], rest)

/-- The exponent behind a letter, up to the end.  Nothing at all is the exponent zero if it
may be left out. -/
def exponentOf? (letter : Char) (optional : Bool) : List Char → Option Int
  | [] => if optional then some 0 else none
  | first :: rest =>
      let (negative, digits) :=
        match rest with
        | '-' :: rest => (true, rest)
        | '+' :: rest => (false, rest)
        | rest => (false, rest)
      if first.toLower = letter && !digits.isEmpty && digits.all Char.isDigit then
        let value : Int := Binary64.exponentOf digits
        some (if negative then -value else value)
      else
        none

def decimalFloat? (chars : List Char) : Option Float :=
  let (whole, fraction, rest) := mantissa Char.isDigit chars
  if whole.isEmpty ∧ fraction.isEmpty then none
  else
    (exponentOf? 'e' true rest).bind fun exponent =>
      Binary64.scientific? (whole ++ fraction) (exponent - fraction.length)

def hexFloat? (chars : List Char) : Option Float :=
  let (whole, fraction, rest) := mantissa (Text.isDigitOf 16) chars
  if whole.isEmpty ∧ fraction.isEmpty then none
  else
    (exponentOf? 'p' false rest).bind fun exponent =>
      Binary64.ofPower? (Text.digitsValue 16 (whole ++ fraction))
        (exponent - 4 * fraction.length)

def magnitudeOf? (chars : List Char) : Option Float :=
  match chars with
  | '0' :: letter :: first :: rest =>
      if letter.toLower = 'x' then
        if underscoresFit (Text.isDigitOf 16) (some true) (first :: rest) then
          hexFloat? ((first :: rest).filter (· ≠ '_'))
        else none
      else plain ('0' :: letter :: first :: rest)
  | chars => plain chars
where
  plain (chars : List Char) : Option Float :=
    if underscoresFit Char.isDigit none chars then decimalFloat? (chars.filter (· ≠ '_')) else none

def floatOfChars? (chars : List Char) : Option Float :=
  let (negative, rest) :=
    match chars with
    | '-' :: rest => (true, rest)
    | '+' :: rest => (false, rest)
    | rest => (false, rest)
  let signed (number : Float) : Float := if negative then -number else number
  let word := String.ofList (rest.map Char.toLower)
  if word = "inf" ∨ word = "infinity" then some (signed (1.0 / 0.0))
  else if word = "nan" then some (0.0 / 0.0)
  else (magnitudeOf? rest).map signed

def Value.toFloat? : Value → Option Float
  | .bool holds => some (if holds then 1.0 else 0.0)
  | .int value => Binary64.ofInt? value
  | .float value => some value
  | .text content => floatOfChars? (singleBytes content)
  | _ => Option.none

end Expression
end ReversibleMips
