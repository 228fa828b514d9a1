import ReversibleMips.Text.Glyph
import ReversibleMips.Text.Numeral
import ReversibleMips.Text.Printable

/-!
# Quoted texts

A text between double quotes, in which quotes, backslashes and everything that
does not show are written as escapes.
-/

namespace ReversibleMips
namespace Text

/-- A character as it is written between double quotes. -/
def quotedChar (char : Char) : List Char :=
  match char.toNat with
  | 0x07 => ['\\', 'a']
  | 0x08 => ['\\', 'b']
  | 0x09 => ['\\', 't']
  | 0x0a => ['\\', 'n']
  | 0x0b => ['\\', 'v']
  | 0x0c => ['\\', 'f']
  | 0x0d => ['\\', 'r']
  | 0x22 => ['\\', '"']
  | 0x5c => ['\\', '\\']
  | point =>
      if isPrintable char then [char]
      else if point < 0x80 then '\\' :: 'x' :: digits 16 2 point
      else if point < 0x10000 then '\\' :: 'u' :: digits 16 4 point
      else '\\' :: 'U' :: digits 16 8 point

def quotedGlyph : Glyph → List Char
  | .char value => quotedChar value
  | .stray byte => '\\' :: 'x' :: digits 16 2 byte.toNat

def quoted (text : Glyphs) : String :=
  String.ofList ('"' :: text.flatMap quotedGlyph ++ ['"'])

end Text
end ReversibleMips
