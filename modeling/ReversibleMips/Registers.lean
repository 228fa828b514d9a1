import ReversibleMips.Cell

/-!
# The register file

A word for each register.  Writing to the zero register changes nothing, so it
keeps reading as zero.
-/

namespace ReversibleMips

/-- The contents of the registers. -/
@[ext]
structure Registers where
  words : Vector Word 34
deriving DecidableEq

namespace Registers

def empty : Registers := ⟨Vector.replicate 34 0⟩

instance : Inhabited Registers := ⟨empty⟩

def read (registers : Registers) (register : Register) : Word :=
  registers.words[register]

/-- Put a word into a register.  A write to the zero register is discarded. -/
def write (registers : Registers) (register : Register) (value : Word) : Registers :=
  if register = Register.zero then registers
  else ⟨registers.words.set register.val value⟩

def toList (registers : Registers) : List (Register × Word) :=
  (List.finRange 34).map fun register => (register, registers.read register)

def cell (registers : Registers) (register : Register) : Cell :=
  let word := registers.read register
  let tag := register.tag
  { tag := tag
    word := word
    details := "<Register " ++ Text.padRight 4 tag ++ "> : " ++ Text.binaryWord word.toNat }

@[simp]
theorem read_empty (register : Register) : empty.read register = 0 := by
  simp [read, empty]

@[simp]
theorem write_zero (registers : Registers) (value : Word) :
    registers.write Register.zero value = registers := by
  simp [write]

theorem read_write (registers : Registers) (written register : Register) (value : Word) :
    (registers.write written value).read register =
      if register = written ∧ written ≠ Register.zero then value
      else registers.read register := by
  by_cases isZero : written = Register.zero
  · simp [isZero]
  · by_cases same : register = written
    · subst same
      simp [write, read, isZero]
    · have apart : written.val ≠ register.val := fun equal => same (Fin.ext equal.symm)
      simp [write, read, isZero, same, apart]

end Registers
end ReversibleMips
