import ReversibleMips.Misuse

/-!
# Registers and words

The processor has thirty-two general registers, of which the first always reads
as zero, and the two registers that multiplication and division write.  Every
register and every place in memory holds one thirty-two-bit word.
-/

namespace ReversibleMips

abbrev Word := UInt32

abbrev Register := Fin 34

namespace Register

def count : Nat := 34

def zero : Register := 0

def stack : Register := 30

def link : Register := 31

/-- The high word of a product, or the remainder of a division. -/
def hi : Register := 32

/-- The low word of a product, or the quotient of a division. -/
def lo : Register := 33

/-- The display name that belongs to an index.  Indices outside the register
file have one too. -/
def tagOf (index : Int) : String :=
  if index = 32 then "$HI" else if index = 33 then "$LO" else "$" ++ toString index

def tag (register : Register) : String :=
  tagOf register.val

def ofIndex (index : Int) : Except Misuse Register :=
  if inside : 0 ≤ index ∧ index < 34 then
    .ok ⟨index.toNat, by omega⟩
  else
    .error (.noSuchRegister index)

end Register
end ReversibleMips
