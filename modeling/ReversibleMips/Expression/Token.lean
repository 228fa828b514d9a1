import ReversibleMips.Expression.Binary64
import ReversibleMips.Expression.Tree
import ReversibleMips.Text.Letter
import ReversibleMips.Text.Piece

/-!
# Tokens

Cutting a text into tokens, and the tokens into lines.  Blanks and tabs separate tokens.
A line feed ends a line, but not inside of brackets and not behind a backslash.  The text
ends at a null character outside of quotes.
-/

namespace ReversibleMips
namespace Expression

inductive Token where
  | int (value : Nat)
  | float (value : Float)
  | text (bytes : List UInt8)
  | bytes (bytes : List UInt8)
  | name (name : String)
  | plus
  | minus
  | tilde
  | logicalNot
  | binary (op : BinaryOp)
  | ifWord
  | elseWord
  | openParen
  | closeParen
  | openBracket
  | closeBracket
  | openBrace
  | closeBrace
  | comma
  | colon
  | dot
  | assign
  | update (op : BinaryOp)
  | doubleStar
  | passWord
  | breakWord
  | continueWord
  | returnWord
  | loadWord
  | elifWord
  | whileWord
  | forWord (site : Nat)
  | lambdaWord (site : Nat)
  | defWord (site : Nat)
  | margin (column : Nat)
  | newline

namespace Token

def exponent? (chars : List Char) : Option (Int × List Char) :=
  let (negative, digits) :=
    match chars with
    | '-' :: rest => (true, rest)
    | '+' :: rest => (false, rest)
    | rest => (false, rest)
  let (written, rest) := digits.span Char.isDigit
  if written.isEmpty then none
  else
    let value : Int := Binary64.exponentOf written
    some (if negative then -value else value, rest)

def floatTail? (mantissa : List Char) (places : Nat) :
    List Char → Option (Token × List Char)
  | 'e' :: rest | 'E' :: rest =>
      match exponent? rest with
      | none => none
      | some (exponent, rest) =>
          (Binary64.scientific? mantissa (exponent - places)).map fun value => (float value, rest)
  | rest => (Binary64.scientific? mantissa (-(places : Int))).map fun value => (float value, rest)

/-- Read an integer with the letter of its base.  Octal and binary numbers are
limited to sixty-three bits. -/
def basedInt? (base : Nat) (limit : Option Nat) (chars : List Char) :
    Option (Token × List Char) :=
  let (digits, rest) := chars.span (Text.isDigitOf base)
  let value := Text.digitsValue base digits
  if digits.isEmpty then none
  else
    match limit with
    | some bound => if value < bound then some (int value, rest) else none
    | none => some (int value, rest)

/-- Read a decimal number.  A leading zero is only allowed in front of a fraction
or an exponent, or if all digits are zero. -/
def decimal? (chars : List Char) : Option (Token × List Char) :=
  let (digits, rest) := chars.span Char.isDigit
  match rest with
  | '.' :: rest =>
      let (fraction, rest) := rest.span Char.isDigit
      floatTail? (digits ++ fraction) fraction.length rest
  | 'e' :: _ | 'E' :: _ => floatTail? digits 0 rest
  | rest =>
      if digits.head? = some '0' ∧ ¬ digits.all (· = '0') then none
      else some (int (Text.digitsValue 10 digits), rest)

def number? : List Char → Option (Token × List Char)
  | '0' :: 'x' :: rest | '0' :: 'X' :: rest => basedInt? 16 none rest
  | '0' :: 'o' :: rest | '0' :: 'O' :: rest => basedInt? 8 (some 0x8000000000000000) rest
  | '0' :: 'b' :: rest | '0' :: 'B' :: rest => basedInt? 2 (some 0x8000000000000000) rest
  | chars => decimal? chars

/-- Read a text up to the quote that ends it.  The character behind a backslash
does not end it. -/
def quotedBody? (quote : Char) : List Char → Option (List Char × List Char)
  | [] => none
  | ['\\'] => none
  | '\\' :: escaped :: rest =>
      (quotedBody? quote rest).map fun (body, rest) => ('\\' :: escaped :: body, rest)
  | char :: rest =>
      if char = quote then some ([], rest)
      else if char = '\n' then none
      else (quotedBody? quote rest).map fun (body, rest) => (char :: body, rest)

def longBody? (quote : Char) : List Char → Option (List Char × List Char)
  | [] => none
  | ['\\'] => none
  | '\\' :: escaped :: rest =>
      (longBody? quote rest).map fun (body, rest) => ('\\' :: escaped :: body, rest)
  | char :: rest =>
      if char = quote ∧ rest.take 2 = [quote, quote] then some ([], rest.drop 2)
      else (longBody? quote rest).map fun (body, rest) => (char :: body, rest)

def hexPoint? (count : Nat) (chars : List Char) : Option Nat :=
  let digits := chars.take count
  if digits.length = count ∧ digits.all (Text.isDigitOf 16) then some (Text.digitsValue 16 digits)
  else none

/-- The byte of a number that is written as an escape.  It is a character below the first
limit, if the bytes are to be characters. -/
def escapedByte? (raw : Bool) (point : Nat) : Option UInt8 :=
  if point < (if raw then 0x100 else 0x80) then some (UInt8.ofNat point) else none

/-- The bytes that an escape sequence stands for, and the length of the sequence without
its backslash.  An escaped line feed stands for nothing.  The flag tells that any byte may
be written, not only those of characters. -/
def escape? (raw : Bool) : List Char → Option (List UInt8 × Nat)
  | [] => none
  | '\n' :: _ => some ([], 1)
  | 'a' :: _ => some ([0x07], 1)
  | 'b' :: _ => some ([0x08], 1)
  | 'f' :: _ => some ([0x0c], 1)
  | 'n' :: _ => some ([0x0a], 1)
  | 'r' :: _ => some ([0x0d], 1)
  | 't' :: _ => some ([0x09], 1)
  | 'v' :: _ => some ([0x0b], 1)
  | '\\' :: _ => some ([0x5c], 1)
  | '\'' :: _ => some ([0x27], 1)
  | '"' :: _ => some ([0x22], 1)
  | 'x' :: rest =>
      (hexPoint? 2 rest).bind fun point => (escapedByte? raw point).map fun byte => ([byte], 3)
  | 'u' :: rest => (hexPoint? 4 rest).bind fun point => (character? point).map (·, 5)
  | 'U' :: rest => (hexPoint? 8 rest).bind fun point => (character? point).map (·, 9)
  | chars =>
      let digits := (chars.take 3).takeWhile (Text.isDigitOf 8)
      if digits.isEmpty then none
      else
        (escapedByte? raw (Text.digitsValue 8 digits)).map fun byte => ([byte], digits.length)
where
  /-- The bytes of a code point, unless it is reserved for surrogates. -/
  character? (point : Nat) : Option (List UInt8) :=
    if valid : point.isValidChar then some (String.utf8EncodeChar (Char.ofNatAux point valid))
    else none

/-- The bytes of a text in which escapes stand for characters.  The first argument
bounds the length of the text. -/
def unescape? (raw : Bool) : Nat → List Char → Option (List UInt8)
  | _, [] => some []
  | 0, _ :: _ => none
  | bound + 1, '\\' :: rest =>
      match escape? raw rest with
      | none => none
      | some (content, length) => (unescape? raw bound (rest.drop length)).map (content ++ ·)
  | bound + 1, char :: rest =>
      (unescape? raw bound rest).map (String.utf8EncodeChar char ++ ·)

/-- How a text between quotes is read. -/
structure Style where
  plain : Bool
  raw : Bool

def quoted? (style : Style) (quote : Char) (chars : List Char) : Option (Token × List Char) :=
  let body? :=
    if chars.take 2 = [quote, quote] then longBody? quote (chars.drop 2)
    else quotedBody? quote chars
  match body? with
  | none => none
  | some (body, rest) =>
      let bytes? :=
        if style.plain then some (body.flatMap String.utf8EncodeChar)
        else unescape? style.raw body.length body
      bytes?.map fun content => (if style.raw then bytes content else text content, rest)

def opening? : List Char → Option (Style × Char × List Char)
  | 'r' :: 'b' :: quote :: rest => behind ⟨true, true⟩ quote rest
  | 'r' :: quote :: rest => behind ⟨true, false⟩ quote rest
  | 'b' :: quote :: rest => behind ⟨false, true⟩ quote rest
  | quote :: rest => behind ⟨false, false⟩ quote rest
  | [] => none
where
  behind (style : Style) (quote : Char) (rest : List Char) :
      Option (Style × Char × List Char) :=
    if quote = '"' ∨ quote = '\'' then some (style, quote, rest) else none

def startsName (char : Char) : Bool := char = '_' || Text.isLetter char

def continuesName (char : Char) : Bool := startsName char || char.isDigit

def reservedWords : List String :=
  ["as", "async", "await", "class", "del", "except", "finally", "from", "global", "import",
    "is", "nonlocal", "raise", "try", "with", "yield"]

def ofWord? (site : Nat) (word : String) : Option Token :=
  match word with
  | "and" => some (binary .and)
  | "or" => some (binary .or)
  | "not" => some logicalNot
  | "in" => some (binary .isIn)
  | "if" => some ifWord
  | "else" => some elseWord
  | "pass" => some passWord
  | "return" => some returnWord
  | "break" => some breakWord
  | "continue" => some continueWord
  | "load" => some loadWord
  | "elif" => some elifWord
  | "while" => some whileWord
  | "for" => some (forWord site)
  | "lambda" => some (lambdaWord site)
  | "def" => some (defWord site)
  | word => if reservedWords.contains word then none else some (name word)

def sign? : List Char → Option (Token × List Char)
  | '=' :: '=' :: rest => some (binary .equal, rest)
  | '=' :: rest => some (assign, rest)
  | '!' :: '=' :: rest => some (binary .notEqual, rest)
  | '<' :: '=' :: rest => some (binary .lessEqual, rest)
  | '<' :: '<' :: rest => some (operator .shiftLeft (binary .shiftLeft) rest)
  | '<' :: rest => some (binary .less, rest)
  | '>' :: '=' :: rest => some (binary .greaterEqual, rest)
  | '>' :: '>' :: rest => some (operator .shiftRight (binary .shiftRight) rest)
  | '>' :: rest => some (binary .greater, rest)
  | '+' :: rest => some (operator .add plus rest)
  | '-' :: rest => some (operator .sub minus rest)
  | '*' :: '*' :: rest => some (doubleStar, rest)
  | '*' :: rest => some (operator .mul (binary .mul) rest)
  | '/' :: '/' :: rest => some (operator .floorDivide (binary .floorDivide) rest)
  | '/' :: rest => some (operator .divide (binary .divide) rest)
  | '%' :: rest => some (operator .modulo (binary .modulo) rest)
  | '&' :: rest => some (operator .bitAnd (binary .bitAnd) rest)
  | '|' :: rest => some (operator .bitOr (binary .bitOr) rest)
  | '^' :: rest => some (operator .bitXor (binary .bitXor) rest)
  | '~' :: rest => some (tilde, rest)
  | ',' :: rest => some (comma, rest)
  | ':' :: rest => some (colon, rest)
  | '(' :: rest => some (openParen, rest)
  | ')' :: rest => some (closeParen, rest)
  | '[' :: rest => some (openBracket, rest)
  | ']' :: rest => some (closeBracket, rest)
  | '\x7b' :: rest => some (openBrace, rest)
  | '\x7d' :: rest => some (closeBrace, rest)
  | _ => none
where
  operator (op : BinaryOp) (alone : Token) : List Char → Token × List Char
    | '=' :: rest => (update op, rest)
    | rest => (alone, rest)

def next? (site : Nat) (chars : List Char) : Option (Token × List Char) :=
  match opening? chars with
  | some (style, quote, rest) => quoted? style quote rest
  | none =>
      match chars with
      | [] => none
      | char :: rest =>
          if char.isDigit then number? chars
          else if char = '.' then
            if rest.head?.any Char.isDigit then decimal? chars else some (dot, rest)
          else if startsName char then
            let (word, rest) := chars.span continuesName
            (ofWord? site (String.ofList word)).map (·, rest)
          else sign? chars

def joinNotIn : List Token → List Token
  | logicalNot :: binary .isIn :: rest => binary .notIn :: joinNotIn rest
  | token :: rest => token :: joinNotIn rest
  | [] => []

/-- How many brackets are open behind a token, unless it closes one that is not open. -/
def depthAfter? (depth : Nat) : Token → Option Nat
  | openParen | openBracket | openBrace => some (depth + 1)
  | closeParen | closeBracket | closeBrace => if depth = 0 then none else some (depth - 1)
  | _ => some depth

def separates (char : Char) : Bool := char = ' ' || char = '\t'

/-- The column that blanks and tabs at the start of a line lead to, behind a number of
them that lead to some column.  A tab goes on by up to eight columns, as the number of
characters before it tells. -/
def columnBehind (count column : Nat) : List Char → Nat
  | ' ' :: rest => columnBehind (count + 1) (column + 1) rest
  | '\t' :: rest => columnBehind (count + 1) (column + (8 - count % 8)) rest
  | _ => column

/-- Cut a text into tokens.  The first argument bounds its length and is the site of the
next token, the second is the number of brackets that are open, and the flag tells that the
line has no token yet. -/
def scanFor : Nat → Nat → Bool → List Char → Option (List Token)
  | 0, _, _, _ => none
  | bound + 1, depth, fresh, chars =>
      let start :=
        if fresh && depth = 0 then [margin (columnBehind 0 0 chars)] else []
      match chars.dropWhile separates with
      | [] | '\x00' :: _ => some []
      | '\n' :: rest =>
          let later := scanFor bound depth true rest
          if fresh || depth ≠ 0 then later else later.map (newline :: ·)
      | '\\' :: '\n' :: rest => (scanFor bound depth false rest).map (start ++ ·)
      | chars =>
          match next? bound chars with
          | none => none
          | some (token, rest) =>
              match depthAfter? depth token with
              | none => none
              | some depth => (scanFor bound depth false rest).map (start ++ token :: ·)

/-- The tokens of a text.  Every kind of line end is a line feed. -/
def scan? (chars : List Char) : Option (List Token) :=
  (scanFor (chars.length + 1) 0 true (Text.withLineFeeds chars)).map joinNotIn

end Token

structure Line where
  column : Nat
  tokens : List Token

namespace Line

def ofTokens (tokens : List Token) : List Line :=
  (tokens.foldr
    (fun token ((tokens, lines) : List Token × List Line) =>
      match token with
      | .newline => ([], lines)
      | .margin column => ([], ⟨column, tokens⟩ :: lines)
      | token => (token :: tokens, lines))
    ([], [])).2

def ofText? (text : List Char) : Option (List Line) :=
  (Token.scan? text).map ofTokens

end Line
end Expression
end ReversibleMips
