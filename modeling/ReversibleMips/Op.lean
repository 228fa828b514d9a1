import ReversibleMips.Misuse
import ReversibleMips.Register

/-!
# Operations

The operations of the processor, their names, and the table of their encodings.
An encoding fixes the upper six bits of a word, for register operations also the
lower eleven, and says which register fields carry operands; the other register
fields have to be zero.
-/

namespace ReversibleMips

/-- An operation.  A `word` is data that is no instruction, and `other` stands
for a number that the table of operations does not have. -/
inductive Op where
  | word
  | add
  | sub
  | slt
  | sltu
  | mult
  | multu
  | div
  | divu
  | mfhi
  | mflo
  | lis
  | lw
  | sw
  | beq
  | bne
  | jr
  | jalr
  | other (code : Int)
deriving DecidableEq, Inhabited

/-- How an operation is laid out in a word. -/
inductive Shape where
  | data
  /-- Opcode zero, a function code, and operands in the fields that are marked;
  a field without an operand is zero. -/
  | register (funct : Nat) (s t d : Bool)
  | immediate (opcode : Nat)
deriving DecidableEq

namespace Op

def table : List Op :=
  [word, add, sub, slt, sltu, mult, multu, div, divu, mfhi, mflo, lis, lw, sw,
    beq, bne, jr, jalr]

def ofCode (code : Int) : Op :=
  match code with
  | .ofNat number => (table[number]?).getD (other code)
  | .negSucc _ => other code

def code : Op → Int
  | other code => code
  | op => (table.idxOf op : Nat)

def name : Op → String
  | word => ".word"
  | add => "add"
  | sub => "sub"
  | slt => "slt"
  | sltu => "sltu"
  | mult => "mult"
  | multu => "multu"
  | div => "div"
  | divu => "divu"
  | mfhi => "mfhi"
  | mflo => "mflo"
  | lis => "lis"
  | lw => "lw"
  | sw => "sw"
  | beq => "beq"
  | bne => "bne"
  | jr => "jr"
  | jalr => "jalr"
  | other code => "Op(" ++ toString code ++ ")"

def ofName? (mnemonic : String) : Option Op :=
  table.find? fun op => op.name = mnemonic

def shape? : Op → Option Shape
  | word => some .data
  | add => some (.register 0x20 true true true)
  | sub => some (.register 0x22 true true true)
  | slt => some (.register 0x2a true true true)
  | sltu => some (.register 0x2b true true true)
  | mult => some (.register 0x18 true true false)
  | multu => some (.register 0x19 true true false)
  | div => some (.register 0x1a true true false)
  | divu => some (.register 0x1b true true false)
  | mfhi => some (.register 0x10 false false true)
  | mflo => some (.register 0x12 false false true)
  | lis => some (.register 0x14 false false true)
  | lw => some (.immediate 0x23)
  | sw => some (.immediate 0x2b)
  | beq => some (.immediate 0x04)
  | bne => some (.immediate 0x05)
  | jr => some (.register 0x08 true false false)
  | jalr => some (.register 0x09 true false false)
  | other _ => none

end Op
end ReversibleMips
