import ReversibleMips.Expression.Operation
import ReversibleMips.Text.LetterCase

/-!
# Methods of texts

What texts can be asked for.  A text is a sequence of bytes; where characters matter, a
byte that belongs to none counts as the replacement character.
-/

namespace ReversibleMips
namespace Expression

abbrev Named := List (List UInt8 × Value)

def Value.text? : Value → Option ByteArray
  | .text content => some content
  | _ => Option.none

def glyphsOf (bytes : ByteArray) : Glyphs := Glyphs.ofBytes bytes.toList

def charsOf (bytes : ByteArray) : List Char := (glyphsOf bytes).chars

def allChars (kind : Char → Bool) (bytes : ByteArray) : Bool :=
  !bytes.isEmpty && (charsOf bytes).all kind

def lowered (bytes : ByteArray) : ByteArray :=
  bytesOfChars ((charsOf bytes).map Text.toLowerCase)

def uppered (bytes : ByteArray) : ByteArray :=
  bytesOfChars ((charsOf bytes).map Text.toUpperCase)

/-- A text with its first character in title case and the others in lower case. -/
def capitalized (bytes : ByteArray) : ByteArray :=
  match charsOf bytes with
  | [] => .empty
  | first :: rest => bytesOfChars (Text.toTitleCase first :: rest.map Text.toLowerCase)

/-- Characters with the first of each word in title case and the others in lower case.  The
flag tells that the character before has a case. -/
def titled (cased : Bool) : List Char → List Char
  | [] => []
  | char :: rest =>
      let char := if cased then Text.toLowerCase char else Text.toTitleCase char
      char :: titled (Text.isCased char) rest

/-- Words start in upper or title case and go on in lower case.  The flags tell that a
character so far has a case, and that the one before has. -/
def isTitled (any cased : Bool) : List Char → Bool
  | [] => any
  | char :: rest =>
      if char.isUpper || Text.isTitleCase char then !cased && isTitled true true rest
      else if Text.isLowerCase char then cased && isTitled true true rest
      else if Text.isUpperCase char then false
      else isTitled any false rest

def isCasedAs (change : ByteArray → ByteArray) (bytes : ByteArray) : Bool :=
  (charsOf bytes).any Text.isCased && bytes == change bytes

def firstWord (text : Glyphs) : Glyphs × Glyphs := text.span fun glyph => !glyph.isBlank

/-- The words of a text.  Behind a number of words the rest is one piece.  The first
argument bounds the number of words. -/
def wordsAtMost : Nat → Option Nat → Glyphs → List Glyphs
  | 0, _, _ => []
  | bound + 1, limit, text =>
      let text := text.dropWhile Glyph.isBlank
      if text.isEmpty then []
      else
        match limit with
        | some 0 => [text]
        | limit =>
            let (word, rest) := firstWord text
            word :: wordsAtMost bound (limit.map (· - 1)) rest

def splitWords (limit : Option Nat) (bytes : ByteArray) : List ByteArray :=
  (wordsAtMost (bytes.size + 1) limit (glyphsOf bytes)).map Glyphs.toBytes

/-- The words of a text.  In front of a number of words the rest is one piece. -/
def splitWordsLast (limit : Option Nat) (bytes : ByteArray) : List ByteArray :=
  ((wordsAtMost (bytes.size + 1) limit (glyphsOf bytes).reverse).map fun word =>
    Glyphs.toBytes word.reverse).reverse

/-- The pieces of a text between marks.  In front of a number of marks the rest is one
piece. -/
def splitAtLast (mark bytes : ByteArray) (limit : Option Nat) : List ByteArray :=
  let pieces := Text.splitAtMost mark bytes none
  match limit with
  | none => pieces
  | some count =>
      let excess := pieces.length - count
      if excess = 0 then pieces
      else Text.joinWith mark (pieces.take excess) :: pieces.drop excess

/-- A limit for the number of cuts.  There is none if it is negative. -/
def limitOf (limit : Int) : Option Nat := if limit < 0 then none else some limit.toNat

def splitLines (keep : Bool) (bytes : ByteArray) : List ByteArray :=
  if bytes.isEmpty then []
  else
    let feed : ByteArray := ⟨#[0x0a]⟩
    let pieces := Text.splitAtMost feed bytes none
    let complete := pieces.dropLast.map fun piece => if keep then piece ++ feed else piece
    match pieces.getLast? with
    | some last => if last.isEmpty then complete else complete ++ [last]
    | none => complete

def interleaved (made other : ByteArray) : Nat → Glyphs → ByteArray
  | 0, text => made ++ text.toBytes
  | _ + 1, [] => made ++ other
  | count + 1, glyph :: rest =>
      interleaved (glyph.toBytes.foldl ByteArray.push (made ++ other)) other count rest

def replaced (mark other bytes : ByteArray) (limit : Option Nat) : ByteArray :=
  if mark.isEmpty then
    interleaved .empty other (limit.getD (bytes.size + 1)) (glyphsOf bytes)
  else
    Text.joinWith other (Text.splitAtMost mark bytes limit)

def cutAround (mark bytes : ByteArray) (place : Nat) : List ByteArray :=
  [bytes.extract 0 place, mark, bytes.extract (place + mark.size) bytes.size]

def goesAtEnds? : List Value → Option (Glyph → Bool)
  | [] => some Glyph.isBlank
  | [.text bytes] =>
      if bytes.isEmpty then some Glyph.isBlank
      else
        let chars := charsOf bytes
        some fun glyph => chars.contains glyph.shown
  | _ => none

def trimmedLeft (goes : Glyph → Bool) (text : Glyphs) : Glyphs := text.dropWhile goes

def trimmedRight (goes : Glyph → Bool) (text : Glyphs) : Glyphs :=
  (text.reverse.dropWhile goes).reverse

def hasEnd? (test : ByteArray → ByteArray → Bool) (bytes : ByteArray) :
    List Value → Option Bool
  | [] => some false
  | .text part :: rest => if test part bytes then some true else hasEnd? test bytes rest
  | _ => none

def boundsOf? (length : Nat) (arguments : List Value) : Option (Nat × Nat) :=
  let found :=
    match arguments with
    | [] => bounds? length .none .none
    | [first] => bounds? length first .none
    | [first, last] => bounds? length first last
    | _ => none
  found.map fun (start, stop) => (start.toNat, stop.toNat)

def partOf? (bytes : ByteArray) (arguments : List Value) : Option (ByteArray × Nat) :=
  (boundsOf? bytes.size arguments).map fun (start, stop) => (bytes.extract start stop, start)

/-- How often something occurs in a text.  Nothing occurs around every character. -/
def countIn (part bytes : ByteArray) : Nat :=
  if part.isEmpty then (glyphsOf bytes).length + 1 else (Text.occurrences part bytes).length

def placeBy? (search : ByteArray → ByteArray → Option Nat) (bytes : ByteArray)
    (arguments : List Value) : Option (Option Nat) :=
  match arguments with
  | .text part :: bounds =>
      (partOf? bytes bounds).map fun (inside, start) => (search part inside).map (· + start)
  | _ => none

namespace TextMethod

def tests? : TextMethod → Option (ByteArray → Bool)
  | isAlnum => some (allChars fun char => Text.isLetter char || Text.isDecimal char)
  | isAlpha => some (allChars Text.isLetter)
  | isDigit => some (allChars Text.isDecimal)
  | isSpace => some (allChars Text.isBlank)
  | isLower => some (isCasedAs lowered)
  | isUpper => some (isCasedAs uppered)
  | isTitle => some fun bytes => isTitled false false (charsOf bytes)
  | _ => none

def changes? : TextMethod → Option (ByteArray → ByteArray)
  | capitalize => some capitalized
  | lower => some lowered
  | upper => some uppered
  | title => some fun bytes => bytesOfChars (titled false (charsOf bytes))
  | _ => none

def views? : TextMethod → Option View
  | elems => some .elements
  | elemOrds => some .elementOrds
  | codepoints => some .codepoints
  | codepointOrds => some .codepointOrds
  | _ => none

def value? (method : TextMethod) (bytes : ByteArray) (arguments : List Value) :
    Option Value :=
  match method, arguments with
  | count, .text part :: bounds =>
      (partOf? bytes bounds).map fun (inside, _) => .int (countIn part inside)
  | find, arguments =>
      (placeBy? Text.find? bytes arguments).map fun place => .int ((place.map Int.ofNat).getD (-1))
  | findLast, arguments =>
      (placeBy? Text.findLast? bytes arguments).map fun place =>
        .int ((place.map Int.ofNat).getD (-1))
  | index, arguments =>
      (placeBy? Text.find? bytes arguments).join.map fun place => .int place
  | indexLast, arguments =>
      (placeBy? Text.findLast? bytes arguments).join.map fun place => .int place
  | startsWith, ends :: bounds =>
      (partOf? bytes bounds).bind fun (inside, _) =>
        (hasEnd? Text.startsWith inside (several ends)).map .bool
  | endsWith, ends :: bounds =>
      (partOf? bytes bounds).bind fun (inside, _) =>
        (hasEnd? Text.endsWith inside (several ends)).map .bool
  | strip, arguments =>
      (goesAtEnds? arguments).map fun goes =>
        .text (trimmedRight goes (trimmedLeft goes (glyphsOf bytes))).toBytes
  | stripLeft, arguments =>
      (goesAtEnds? arguments).map fun goes => .text (trimmedLeft goes (glyphsOf bytes)).toBytes
  | stripRight, arguments =>
      (goesAtEnds? arguments).map fun goes => .text (trimmedRight goes (glyphsOf bytes)).toBytes
  | dropStart, [.text start] =>
      some (.text (if Text.startsWith start bytes then bytes.extract start.size bytes.size
        else bytes))
  | dropEnd, [.text last] =>
      some (.text (if Text.endsWith last bytes then bytes.extract 0 (bytes.size - last.size)
        else bytes))
  | replace, [.text mark, .text other] => some (.text (replaced mark other bytes none))
  | replace, [.text mark, .text other, limit] =>
      limit.long?.map fun limit => .text (replaced mark other bytes (limitOf limit))
  | partition, [.text mark] =>
      if mark.isEmpty then none
      else
        some (texts (match Text.find? mark bytes with
          | some place => cutAround mark bytes place
          | none => [bytes, .empty, .empty]))
  | partitionLast, [.text mark] =>
      if mark.isEmpty then none
      else
        some (texts (match Text.findLast? mark bytes with
          | some place => cutAround mark bytes place
          | none => [.empty, .empty, bytes]))
  | method, [] =>
      match method.tests?, method.changes?, method.views? with
      | some test, _, _ => some (.bool (test bytes))
      | none, some change, _ => some (.text (change bytes))
      | none, none, some view => some (.view view bytes)
      | none, none, none => none
  | _, _ => none
where
  several : Value → List Value
    | .tuple items => items.toList
    | value => [value]
  texts (pieces : List ByteArray) : Value := .tuple (pieces.map Value.text).toArray

def pieces? (method : TextMethod) (bytes : ByteArray) (arguments : List Value) :
    Option (List ByteArray) :=
  match method, arguments with
  | splitLines, [] => some (Expression.splitLines false bytes)
  | splitLines, [.bool keep] => some (Expression.splitLines keep bytes)
  | split, arguments => cut splitWords Text.splitAtMost arguments
  | splitLast, arguments => cut splitWordsLast splitAtLast arguments
  | _, _ => none
where
  cut (words : Option Nat → ByteArray → List ByteArray)
      (marks : ByteArray → ByteArray → Option Nat → List ByteArray)
      (arguments : List Value) : Option (List ByteArray) :=
    let limit? :=
      match arguments with
      | [] | [_] => some none
      | [_, limit] => limit.long?.map limitOf
      | _ => none
    match limit?, arguments.head? with
    | some limit, none | some limit, some .none => some (words limit bytes)
    | some limit, some (.text mark) =>
        if mark.isEmpty then none else some (marks mark bytes limit)
    | _, _ => none

def joined (mark : ByteArray) (value : Value) : Action Value := do
  let pieces ← Action.forEach value (#[] : Array ByteArray) fun pieces item => do
    return .yield (pieces.push (← orFail item.text?))
  return .text (Text.joinWith mark pieces.toList)

def makeRoom : TextMethod → List Value → Action Unit
  | .splitLast, [.none, limit] =>
      if limit.long?.any ((maxRoom : Int) ≤ ·) then throw (.misuse .capacityOutOfRange) else pure ()
  | _, _ => pure ()

def call (method : TextMethod) (bytes : ByteArray) (arguments : List Value) (named : Named) :
    Action Value := do
  match method, arguments, named with
  | .format, arguments, named => (← get).format bytes arguments.toArray named
  | .join, [value], [] => joined bytes value
  | method, arguments, [] =>
      makeRoom method arguments
      match method.pieces? bytes arguments with
      | some pieces => Action.newList (pieces.map Value.text).toArray
      | none => orFail (method.value? bytes arguments)
  | _, _, _ => failure

end TextMethod
end Expression
end ReversibleMips
