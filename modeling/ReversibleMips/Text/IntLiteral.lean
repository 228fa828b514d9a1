/-!
# Integer literals

An integer literal is an optional sign, an optional mark of the base (`0x`, `0o`,
`0b`, or a leading zero for octal) and digits.  Single underscores may stand
between digits, and between the mark of the base and a digit.

Digits are read from the left, and a literal that grows too large is out of range
whatever comes after.
-/

namespace ReversibleMips
namespace Text

/-- Why a text is not an integer of the wanted size. -/
inductive LiteralError where
  | malformed
  | outOfRange
deriving DecidableEq

def digitValue? (char : Char) : Option Nat :=
  if '0' ≤ char ∧ char ≤ '9' then some (char.toNat - 0x30)
  else if 'a' ≤ char ∧ char ≤ 'z' then some (char.toNat - 0x61 + 10)
  else if 'A' ≤ char ∧ char ≤ 'Z' then some (char.toNat - 0x41 + 10)
  else none

/-- The base that a literal is written in, and its digits without the mark of the
base. -/
def literalBase : List Char → Nat × List Char
  | '0' :: 'b' :: digit :: rest => (2, digit :: rest)
  | '0' :: 'B' :: digit :: rest => (2, digit :: rest)
  | '0' :: 'o' :: digit :: rest => (8, digit :: rest)
  | '0' :: 'O' :: digit :: rest => (8, digit :: rest)
  | '0' :: 'x' :: digit :: rest => (16, digit :: rest)
  | '0' :: 'X' :: digit :: rest => (16, digit :: rest)
  | '0' :: rest => (8, rest)
  | text => (10, text)

def hasBaseLetter : List Char → Bool
  | '0' :: letter :: _ => "bBoOxX".toList.contains letter
  | _ => false

/-- Read digits behind those already read, skipping underscores. -/
def readDigits (base max : Nat) : Nat → List Char → Except LiteralError Nat
  | value, [] => .ok value
  | value, '_' :: rest => readDigits base max value rest
  | value, char :: rest =>
      match digitValue? char with
      | none => .error .malformed
      | some digit =>
          if base ≤ digit then .error .malformed
          else if max < value * base + digit then .error .outOfRange
          else readDigits base max (value * base + digit) rest

/-- Every underscore has something before it that is not an underscore, and
something after it.  The flag tells whether the character before was fit to be
followed by an underscore. -/
def underscoresFit : Bool → List Char → Bool
  | _, [] => true
  | false, '_' :: _ => false
  | true, ['_'] => false
  | true, '_' :: rest => underscoresFit false rest
  | _, _ :: rest => underscoresFit true rest

def readUnsigned (max : Nat) (text : List Char) : Except LiteralError Nat :=
  match text with
  | [] => .error .malformed
  | text =>
      let (base, digits) := literalBase text
      match readDigits base max 0 digits with
      | .error error => .error error
      | .ok value =>
          let fits :=
            if hasBaseLetter text then underscoresFit true (text.drop 2)
            else underscoresFit false text
          if fits then .ok value else .error .malformed

/-- Read an integer literal of a number of bits in two's complement. -/
def readInt (bits : Nat) (text : List Char) : Except LiteralError Int :=
  let limit : Nat := 1 <<< (bits - 1)
  let max : Nat := (1 <<< bits) - 1
  match text with
  | '-' :: rest =>
      match readUnsigned max rest with
      | .error error => .error error
      | .ok value => if limit < value then .error .outOfRange else .ok (-value)
  | text =>
      let rest :=
        match text with
        | '+' :: rest => rest
        | text => text
      match readUnsigned max rest with
      | .error error => .error error
      | .ok value => if limit ≤ value then .error .outOfRange else .ok value

/-- Read a decimal number up to a bound, written with digits only. -/
def readDecimal? (max : Nat) (text : List Char) : Option Nat :=
  if text.isEmpty || !text.all Char.isDigit then none
  else (readDigits 10 max 0 text).toOption

end Text
end ReversibleMips
