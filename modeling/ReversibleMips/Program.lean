import ReversibleMips.Emulator.Load
import ReversibleMips.Text.Glyph

/-!
# Programs

An assembled program is a listing: every word of it with the line that it came from
and its address.
-/

namespace ReversibleMips

/-- A word of a program with its origin. -/
structure Opcode where
  lineNo : Int
  pc : UInt32
  words : List Glyphs
  code : Word
  label : Option Glyphs
deriving DecidableEq, Inhabited

/-- An assembled program. -/
structure Program where
  opcodes : List Opcode
deriving DecidableEq

namespace Program

def codes (program : Program) : List (UInt32 × Word) :=
  program.opcodes.map fun opcode => (opcode.pc, opcode.code)

def image (program : Program) : List UInt8 :=
  Image.ofWords (program.opcodes.map Opcode.code)

def opcodeAt? (program : Program) (pc : UInt32) : Option Opcode :=
  program.opcodes.find? fun opcode => opcode.pc = pc

end Program
end ReversibleMips
