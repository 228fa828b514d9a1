import ReversibleMips.Expression.Execution
import ReversibleMips.Proofs.IntegerLiterals
import ReversibleMips.Proofs.Operands

/-!
# Arithmetic formulas

The expressions that only calculate: numbers and names with signs, operators and parentheses.
A formula has a value in integers without bounds and one in words, and it is written with any
blanks between its parts and with decimal or hexadecimal numbers.
-/

namespace ReversibleMips

namespace Text

theorem digitsValue_eq_positional (base : Nat) (digits : List Char) :
    digitsValue base digits = positional base digits := by
  have reversed (back : List Char) :
      digitsValue base back.reverse = positional base back.reverse := by
    induction back with
    | nil => rfl
    | cons last back ih =>
        rw [List.reverse_cons, digitsValue_append_singleton, ih, positional, positional,
          List.foldl_append, List.foldl_cons, List.foldl_nil]
  simpa using reversed digits.reverse

end Text

namespace Expression

/-- A sign in front of an operand. -/
inductive Sign where
  | positive
  | negative
  | complement
deriving DecidableEq

inductive Operator where
  | add
  | sub
  | mul
  | bitAnd
  | bitOr
  | bitXor
deriving DecidableEq

/-- An expression of numbers and names.  Parentheses are a part of it. -/
inductive Formula where
  | literal (value : Nat)
  | equate (name : String)
  | group (body : Formula)
  | signed (sign : Sign) (operand : Formula)
  | joined (operator : Operator) (left right : Formula)
deriving DecidableEq

namespace Sign

def op : Sign → UnaryOp
  | positive => .positive
  | negative => .negate
  | complement => .complement

def char : Sign → Char
  | positive => '+'
  | negative => '-'
  | complement => '~'

def token : Sign → Token
  | positive => .plus
  | negative => .minus
  | complement => .tilde

def exact : Sign → Int → Int
  | positive, value => value
  | negative, value => -value
  | complement, value => intComplement value

def wrapped : Sign → Word → Word
  | positive, word => word
  | negative, word => -word
  | complement, word => ~~~word

end Sign

namespace Operator

def op : Operator → BinaryOp
  | add => .add
  | sub => .sub
  | mul => .mul
  | bitAnd => .bitAnd
  | bitOr => .bitOr
  | bitXor => .bitXor

def char : Operator → Char
  | add => '+'
  | sub => '-'
  | mul => '*'
  | bitAnd => '&'
  | bitOr => '|'
  | bitXor => '^'

def token : Operator → Token
  | add => .plus
  | sub => .minus
  | operator => .binary operator.op

def exact : Operator → Int → Int → Int
  | add, left, right => left + right
  | sub, left, right => left - right
  | mul, left, right => left * right
  | bitAnd, left, right => intAnd left right
  | bitOr, left, right => intOr left right
  | bitXor, left, right => intXor left right

def wrapped : Operator → Word → Word → Word
  | add, left, right => left + right
  | sub, left, right => left - right
  | mul, left, right => left * right
  | bitAnd, left, right => left &&& right
  | bitOr, left, right => left ||| right
  | bitXor, left, right => left ^^^ right

end Operator

def keywords : List String :=
  ["and", "or", "not", "in", "if", "else", "pass", "return", "break", "continue", "load", "elif",
    "while", "for", "lambda", "def"] ++ Token.reservedWords

def isIdentifier (name : String) : Bool :=
  match name.toList with
  | [] => false
  | first :: rest =>
      Token.startsName first && rest.all Token.continuesName && !keywords.contains name &&
        name != resultName

namespace Formula

def exact (values : String → Int) : Formula → Int
  | literal value => value
  | equate name => values name
  | group body => body.exact values
  | signed sign operand => sign.exact (operand.exact values)
  | joined operator left right => operator.exact (left.exact values) (right.exact values)

def wrapped (words : String → Word) : Formula → Word
  | literal value => UInt32.ofNat value
  | equate name => words name
  | group body => body.wrapped words
  | signed sign operand => sign.wrapped (operand.wrapped words)
  | joined operator left right => operator.wrapped (left.wrapped words) (right.wrapped words)

def names : Formula → List String
  | literal _ => []
  | equate name => [name]
  | group body => body.names
  | signed _ operand => operand.names
  | joined _ left right => left.names ++ right.names

/-- How tight the outermost operator binds its operands.  What has none outside of parentheses
is tighter than all signs. -/
def level : Formula → Nat
  | joined operator _ _ => operator.op.level
  | _ => 12

/-- Parentheses stand wherever operators would bind otherwise, and all names are names. -/
def Proper : Formula → Prop
  | literal _ => True
  | equate name => isIdentifier name = true
  | group body => body.Proper
  | signed sign operand => sign.op.level < operand.level ∧ operand.Proper
  | joined operator left right =>
      operator.op.level ≤ left.level ∧ operator.op.level < right.level ∧ left.Proper ∧
        right.Proper

instance decidableProper : (formula : Formula) → Decidable formula.Proper
  | literal _ => isTrue trivial
  | equate name => inferInstanceAs (Decidable (isIdentifier name = true))
  | group body => decidableProper body
  | signed sign operand =>
      have := decidableProper operand
      inferInstanceAs (Decidable (sign.op.level < operand.level ∧ operand.Proper))
  | joined operator left right =>
      have := decidableProper left
      have := decidableProper right
      inferInstanceAs (Decidable (operator.op.level ≤ left.level ∧
        operator.op.level < right.level ∧ left.Proper ∧ right.Proper))

def tokens : Formula → List Token
  | literal value => [.int value]
  | equate name => [.name name]
  | group body => .openParen :: (body.tokens ++ [.closeParen])
  | signed sign operand => sign.token :: operand.tokens
  | joined operator left right => left.tokens ++ operator.token :: right.tokens

end Formula

/-- The ways to write a formula. -/
inductive Spells : Formula → List Char → Prop where
  | decimal {digits : List Char} (some : digits ≠ []) (each : digits.all Char.isDigit = true)
      (noZero : digits.head? = Option.some '0' → digits.all (· = '0') = true) :
      Spells (.literal (Text.positional 10 digits)) digits
  | hex {letter : Char} {digits : List Char} (marks : letter = 'x' ∨ letter = 'X')
      (some : digits ≠ []) (each : digits.all (Text.isDigitOf 16) = true) :
      Spells (.literal (Text.positional 16 digits)) ('0' :: letter :: digits)
  | equate (name : String) : Spells (.equate name) name.toList
  | group {body : Formula} {text : List Char} (inner : Spells body text) :
      Spells (.group body) ('(' :: (text ++ [')']))
  | signed {operand : Formula} {text : List Char} (sign : Sign) (behind : Spells operand text) :
      Spells (.signed sign operand) (sign.char :: text)
  | joined {left right : Formula} {text more : List Char} (operator : Operator)
      (first : Spells left text) (second : Spells right more) :
      Spells (.joined operator left right) (text ++ operator.char :: more)
  | blankBefore {formula : Formula} {text : List Char} {blank : Char}
      (separates : Token.separates blank = true) (spelled : Spells formula text) :
      Spells formula (blank :: text)
  | blankBehind {formula : Formula} {text : List Char} {blank : Char}
      (separates : Token.separates blank = true) (spelled : Spells formula text) :
      Spells formula (text ++ [blank])

def isFormulaChar (char : Char) : Bool :=
  Token.continuesName char || "+-*&|^~() \t".toList.contains char

theorem isFormulaChar_of_isAlphanum {char : Char} (alphanumeric : char.isAlphanum = true) :
    isFormulaChar char = true := by
  change (char.isAlpha || char.isDigit) = true at alphanumeric
  rw [Bool.or_eq_true] at alphanumeric
  rcases alphanumeric with letter | digit
  · simp [isFormulaChar, Token.continuesName, Token.startsName, Text.isLetter, letter]
  · simp [isFormulaChar, Token.continuesName, digit]

theorem ascii_lt_of_inRanges {point : Nat} (inside : Text.inRanges Text.letterRanges point = true) :
    0x80 ≤ point := by
  have ranges : Text.letterRanges.all (fun range => 0x80 ≤ range.1) = true := by decide +kernel
  obtain ⟨range, member, within⟩ := List.any_eq_true.mp inside
  have least := List.all_eq_true.mp ranges range member
  simp only [decide_eq_true_eq, Bool.and_eq_true] at least within
  omega

def isSymbol (char : Char) : Bool := char.toNat < 0x80 && !char.isAlphanum && char ≠ '_'

theorem continuesName_of_isSymbol {char : Char} (symbol : isSymbol char = true) :
    Token.continuesName char = false := by
  simp only [isSymbol, Bool.and_eq_true, Bool.not_eq_true', decide_eq_true_eq] at symbol
  obtain ⟨⟨small, other⟩, noLine⟩ := symbol
  change (char.isAlpha || char.isDigit) = false at other
  rw [Bool.or_eq_false_iff] at other
  have noLetter : Text.inRanges Text.letterRanges char.toNat = false := by
    rw [Bool.eq_false_iff]
    intro inside
    have large := ascii_lt_of_inRanges inside
    omega
  simp [Token.continuesName, Token.startsName, Text.isLetter, noLine, other.1, other.2, noLetter]

theorem ne_of_continuesName {char mark : Char} (continues : Token.continuesName char = true)
    (symbol : isSymbol mark = true) : char ≠ mark := by
  rintro rfl
  rw [continuesName_of_isSymbol symbol] at continues
  cases continues

theorem isFormulaChar_of_isSymbol {char : Char} (symbol : isSymbol char = true)
    (other : char ∉ "+-*&|^~() \t".toList) : isFormulaChar char = false := by
  rw [isFormulaChar, continuesName_of_isSymbol symbol, Bool.false_or, Bool.eq_false_iff]
  exact fun listed => other (List.contains_iff_mem.mp listed)

theorem isIdentifier_eq {name : String} (identifier : isIdentifier name = true) :
    (∃ first rest, name.toList = first :: rest ∧ Token.startsName first = true) ∧
      (∀ char ∈ name.toList, Token.continuesName char = true) ∧ name ∉ keywords ∧
      name ≠ resultName := by
  unfold isIdentifier at identifier
  split at identifier
  · cases identifier
  · rename_i first rest written
    simp only [Bool.and_eq_true, List.all_eq_true, Bool.not_eq_true', bne_iff_ne] at identifier
    obtain ⟨⟨⟨starts, continues⟩, noKeyword⟩, other⟩ := identifier
    refine ⟨⟨first, rest, written, starts⟩, ?_, by simpa using noKeyword, other⟩
    intro char member
    rw [written] at member
    rcases List.mem_cons.mp member with rfl | later
    · simp [Token.continuesName, starts]
    · exact continues char later

theorem isFormulaChar_of_mark {char : Char} (mark : char ∈ "+-*&|^~() \t".toList) :
    isFormulaChar char = true :=
  Bool.or_eq_true _ _ ▸ .inr (List.contains_iff_mem.mpr mark)

theorem eq_of_separates {char : Char} (separates : Token.separates char = true) :
    char = ' ' ∨ char = '\t' := by
  simpa [Token.separates] using separates

theorem isFormulaChar_of_separates {char : Char} (separates : Token.separates char = true) :
    isFormulaChar char = true := by
  apply isFormulaChar_of_mark
  rcases eq_of_separates separates with rfl | rfl
  · decide
  · decide

theorem Spells.formulaChars {formula : Formula} {text : List Char} (spells : Spells formula text)
    (proper : formula.Proper) : ∀ char ∈ text, isFormulaChar char = true := by
  induction spells with
  | decimal _ each _ =>
      intro char member
      apply isFormulaChar_of_isAlphanum
      change (char.isAlpha || char.isDigit) = true
      rw [List.all_eq_true.mp each char member, Bool.or_true]
  | hex letter _ each =>
      intro char member
      apply isFormulaChar_of_isAlphanum
      rcases List.mem_cons.mp member with rfl | member
      · rfl
      · rcases List.mem_cons.mp member with rfl | member
        · rcases letter with rfl | rfl
          · rfl
          · rfl
        · exact Text.isAlphanum_of_isDigitOf (List.all_eq_true.mp each char member)
  | equate name =>
      intro char member
      simp [isFormulaChar, (isIdentifier_eq proper).2.1 char member]
  | group inner ih =>
      intro char member
      simp only [List.mem_cons, List.mem_append, List.not_mem_nil, or_false] at member
      rcases member with rfl | inside | rfl
      · exact isFormulaChar_of_mark (by decide)
      · exact ih proper char inside
      · exact isFormulaChar_of_mark (by decide)
  | signed sign behind ih =>
      intro char member
      rcases List.mem_cons.mp member with rfl | later
      · exact isFormulaChar_of_mark (by cases sign <;> decide)
      · exact ih proper.2 char later
  | joined operator first second firstIH secondIH =>
      intro char member
      rcases List.mem_append.mp member with inFirst | behind
      · exact firstIH proper.2.2.1 char inFirst
      · rcases List.mem_cons.mp behind with rfl | inSecond
        · exact isFormulaChar_of_mark (by cases operator <;> decide)
        · exact secondIH proper.2.2.2 char inSecond
  | blankBefore separates spelled ih =>
      intro char member
      rcases List.mem_cons.mp member with rfl | later
      · exact isFormulaChar_of_separates separates
      · exact ih proper char later
  | blankBehind separates spelled ih =>
      intro char member
      rcases List.mem_append.mp member with inside | last
      · exact ih proper char inside
      · rw [List.mem_singleton.mp last]
        exact isFormulaChar_of_separates separates

theorem Spells.notMem {formula : Formula} {text : List Char} (spells : Spells formula text)
    (proper : formula.Proper) {char : Char} (symbol : isSymbol char = true)
    (other : char ∉ "+-*&|^~() \t".toList) : char ∉ text := by
  intro member
  have strange := isFormulaChar_of_isSymbol symbol other
  rw [spells.formulaChars proper char member] at strange
  cases strange

end Expression
end ReversibleMips
