import ReversibleMips.Register
import ReversibleMips.Text.Numeral

/-!
# Cells

A cell is how one register or one word of memory is shown in a dump of the
machine.
-/

namespace ReversibleMips

/-- The rendering of a register or of a word of memory. -/
structure Cell where
  tag : String
  word : Word
  details : String
deriving DecidableEq, Inhabited

namespace Cell

def hex (cell : Cell) : String :=
  Text.hexWord cell.word.toNat

def binary (cell : Cell) : String :=
  Text.binaryWord cell.word.toNat

def text (cell : Cell) : String :=
  cell.tag ++ ": " ++ cell.details

end Cell
end ReversibleMips
