import ReversibleMips.Assembler.Operand
import ReversibleMips.Expression.Execution

/-!
# Lines of a source

From the text of a line to its words: comments go, character literals become the
numbers of their characters, expressions in `$(…)` become their values, and commas and
tabs separate words as blanks do.
-/

namespace ReversibleMips
namespace Assembler

/-- A line without comment and surrounding blanks. -/
def statementText (line : Glyphs) : Glyphs :=
  Glyphs.trim (Text.before (.char '#') (Text.before (.char ';') line))

def quote : Glyph := .char '\''

def backslash : Glyph := .char '\\'

def numberText (number : Int) : Glyphs := Glyphs.ofString (toString number)

def escapeCode? : Glyph → Option Nat
  | .char '\\' => some 0x5c
  | .char 'n' => some 0x0a
  | .char 'r' => some 0x0d
  | .char 'e' => some 0x1b
  | _ => none

/-- What becomes of a literal with a backslash.  An unknown escape stays as it is. -/
def escapedLiteral (escaped : Glyph) : Glyphs :=
  match escapeCode? escaped with
  | some code => numberText code
  | none => [quote, backslash, escaped, quote]

def byteCode? : Glyph → Option Nat
  | .char char => if char.toNat < 0x80 then some char.toNat else none
  | .stray byte => some byte.toNat

/-- What becomes of a literal with one glyph.  Only single bytes have a number, and a
lone backslash has none. -/
def plainLiteral (glyph : Glyph) : Glyphs :=
  match byteCode? glyph with
  | some code =>
      if glyph = backslash then [quote, glyph, quote] else numberText code
  | none => [quote, glyph, quote]

/-- Replace the character literals of a text, from the left. -/
def expandCharacters : Glyphs → Glyphs
  | .char '\'' :: first :: second :: third :: rest =>
      if first = backslash ∧ second ≠ quote ∧ third = quote then
        escapedLiteral second ++ expandCharacters rest
      else if first ≠ quote ∧ second = quote then
        plainLiteral first ++ expandCharacters (third :: rest)
      else
        quote :: expandCharacters (first :: second :: third :: rest)
  | [.char '\'', first, .char '\''] =>
      if first ≠ quote then plainLiteral first else [quote, first, quote]
  | glyph :: rest => glyph :: expandCharacters rest
  | [] => []

def Equates.number? (equates : Equates) (name : String) : Option Int :=
  match equates[Glyphs.ofString name]? with
  | some text =>
      match equates.valueOf text with
      | .ok value => some value.toInt32.toInt
      | .error _ => none
  | none => none

/-- The value of an expression, as a machine word.  Expressions see a stray byte as the
character that is shown of it. -/
def Equates.evaluate (equates : Equates) (expression : Glyphs) : Except Fault Word :=
  match Expression.assignedValue equates.number? expression.chars with
  | .error failure => .error (.expression failure)
  | .ok (some (.int value)) =>
      if -0x8000000000000000 ≤ value ∧ value < 0x8000000000000000 then .ok (UInt32.ofInt value)
      else .error (.notInteger expression.shown)
  | .ok _ => .error (.notInteger expression.shown)

/-- The expression that a text behind a dollar sign starts with, and what comes after
it.  It reaches to the last parenthesis. -/
def expressionIn? : Glyphs → Option (Glyphs × Glyphs)
  | .char '(' :: rest => Text.splitLast? (.char ')') rest
  | _ => none

/-- Replace the expression behind a dollar sign, if there is one.  The text has no
dollar sign in it. -/
def Equates.expandPiece (equates : Equates) (piece : Glyphs) : Except Fault Glyphs :=
  match expressionIn? piece with
  | none => .ok (.char '$' :: piece)
  | some (expression, rest) =>
      (equates.evaluate expression).map fun value => numberText value.toInt32.toInt ++ rest

/-- Put pieces together again, unless some could not be expanded.  Of several faults
the last one counts, up to one behind which nothing is evaluated. -/
def joinPieces : List (Except Fault Glyphs) → Except Fault Glyphs
  | [] => .ok []
  | .error fault :: rest =>
      if fault.isFinal then .error fault
      else
        match joinPieces rest with
        | .error later => .error later
        | .ok _ => .error fault
  | .ok piece :: rest => (joinPieces rest).map (piece ++ ·)

def Equates.expandExpressions (equates : Equates) (text : Glyphs) : Except Fault Glyphs :=
  match Text.splitOn (.char '$') text with
  | [] => .ok []
  | first :: pieces =>
      (joinPieces (pieces.map fun piece => equates.expandPiece piece)).map (first ++ ·)

def Equates.printedBy (equates : Equates) (text : Glyphs) : List Glyphs :=
  (Text.splitOn (.char '$') text).tail.flatMap fun piece =>
    match expressionIn? piece with
    | none => []
    | some (expression, _) =>
        (Expression.Execution.ofText equates.number? expression.chars).printed.toList.map
          fun line => Glyphs.ofBytes line.toList

def lineWords (text : Glyphs) : List Glyphs :=
  Glyphs.words <| text.map fun glyph =>
    if glyph = .char ',' ∨ glyph = .char '\t' then .char ' ' else glyph

def Equates.wordsOf (equates : Equates) (text : Glyphs) : Except Fault (List Glyphs) :=
  (equates.expandExpressions (expandCharacters text)).map lineWords

end Assembler
end ReversibleMips
