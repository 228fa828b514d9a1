import ReversibleMips.Text.IntLiteral
import ReversibleMips.Text.Quoted

/-!
# Element lists

The elements of an array as they are given on the command line: integers separated by
commas, with blanks around them.  Items of nothing but blanks are skipped.
-/

namespace ReversibleMips
namespace CommandLine

/-- An item that is not an integer of thirty-two bits. -/
structure ElementError where
  item : Glyphs
  error : Text.LiteralError
deriving DecidableEq

namespace ElementError

def message (error : ElementError) : String :=
  "strconv.ParseInt: parsing " ++ Text.quoted error.item ++ ": " ++
    match error.error with
    | .malformed => "invalid syntax"
    | .outOfRange => "value out of range"

end ElementError

/-- The elements of items without blanks around them, up to the first item that is none. -/
def elementsOf : List Glyphs → List Int32 × Option ElementError
  | [] => ([], none)
  | item :: rest =>
      match Text.readInt 32 item.chars with
      | .error error => ([], some ⟨item, error⟩)
      | .ok value =>
          let (later, error) := elementsOf rest
          (Int32.ofInt value :: later, error)

def parseElements (text : Glyphs) : List Int32 × Option ElementError :=
  elementsOf
    (((Text.splitOn (.char ',') text).map Glyphs.trim).filter fun item => !item.isEmpty)

end CommandLine
end ReversibleMips
