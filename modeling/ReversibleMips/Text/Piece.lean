/-!
# Pieces of texts

Cutting texts at a mark, and finding texts in others.  A text is a list here, of characters
or of anything else that can be told apart.
-/

namespace ReversibleMips
namespace Text

variable {α : Type} [DecidableEq α]

/-- Cut a text at every mark, behind what has been read of the first piece, which
comes in reverse. -/
def splitBehind (mark : α) (current : List α) : List α → List (List α)
  | [] => [current.reverse]
  | item :: rest =>
      if item = mark then current.reverse :: splitBehind mark [] rest
      else splitBehind mark (item :: current) rest

/-- The pieces of a text between the marks.  There is one more of them than there
are marks. -/
def splitOn (mark : α) (text : List α) : List (List α) :=
  splitBehind mark [] text

/-- The pieces of a text that marks end.  What stands behind the last mark is a piece
too, unless it is empty. -/
def splitBefore (mark : α) (text : List α) : List (List α) :=
  let pieces := splitOn mark text
  if pieces.getLast? = some [] then pieces.dropLast else pieces

def before (mark : α) (text : List α) : List α :=
  text.takeWhile (· ≠ mark)

def hasPart (part : List α) : List α → Bool
  | [] => part.isEmpty
  | item :: rest => part.isPrefixOf (item :: rest) || hasPart part rest

def splitLast? (mark : α) (text : List α) : Option (List α × List α) :=
  let reversed := text.reverse
  match reversed.dropWhile (· ≠ mark) with
  | [] => none
  | _ :: front => some (front.reverse, (reversed.takeWhile (· ≠ mark)).reverse)

def trimBoth (goes : α → Bool) (text : List α) : List α :=
  ((text.dropWhile goes).reverse.dropWhile goes).reverse

/-- Put a carriage return in front of each line feed. -/
def withCarriageReturns (text : List Char) : List Char :=
  text.flatMap fun char => if char = '\n' then ['\r', '\n'] else [char]

/-- Make a line feed of each carriage return, and also of one with a line feed behind
it. -/
def withLineFeeds : List Char → List Char
  | '\r' :: '\n' :: rest => '\n' :: withLineFeeds rest
  | '\r' :: rest => '\n' :: withLineFeeds rest
  | char :: rest => char :: withLineFeeds rest
  | [] => []

end Text
end ReversibleMips
