import ReversibleMips.Op

/-!
# The fields of a word

Reading a word as an instruction: its opcode, its function code, its three
register fields and its immediate.  Encoding puts the fields together again, and
`Word.likelyOp` finds the operation whose codes a word has.
-/

namespace ReversibleMips
namespace Word

def opcode (word : Word) : Nat :=
  word.toNat / 0x4000000

def funct (word : Word) : Nat :=
  word.toNat % 0x800

def regS (word : Word) : Register :=
  ⟨word.toNat / 0x200000 % 32, by omega⟩

def regT (word : Word) : Register :=
  ⟨word.toNat / 0x10000 % 32, by omega⟩

def regD (word : Word) : Register :=
  ⟨word.toNat / 0x800 % 32, by omega⟩

def immediate (word : Word) : Int16 :=
  Int16.ofNat word.toNat

/-- The moves from `hi`, `lo` and the next word by their function codes. -/
def moveOp : Nat → Op
  | 0x10 => .mfhi
  | 0x12 => .mflo
  | 0x14 => .lis
  | _ => .word

def jumpOp : Nat → Op
  | 0x08 => .jr
  | 0x09 => .jalr
  | _ => .word

def arithmeticOp : Nat → Op
  | 0x20 => .add
  | 0x22 => .sub
  | 0x2a => .slt
  | 0x2b => .sltu
  | 0x18 => .mult
  | 0x19 => .multu
  | 0x1a => .div
  | 0x1b => .divu
  | _ => .word

/-- The operation that a word is tried as.  Function codes of register operations are looked up
in three groups, of which the first two are for words whose other fields are zero. -/
def likelyOp (word : Word) : Op :=
  match opcode word with
  | 0x00 =>
      let moved :=
        if (regS word).val = 0 ∧ (regT word).val = 0 then moveOp (funct word) else .word
      let jumped :=
        if moved = .word ∧ (regT word).val = 0 ∧ (regD word).val = 0 then jumpOp (funct word)
        else moved
      if jumped = .word then arithmeticOp (funct word) else jumped
  | 0x23 => .lw
  | 0x2b => .sw
  | 0x04 => .beq
  | 0x05 => .bne
  | _ => .word

theorem toNat_ofInt (value : Int) :
    ((UInt32.ofInt value).toNat : Int) = value % 0x100000000 := by
  change (((value % 2 ^ 32).toNat % 2 ^ 32 : Nat) : Int) = _
  omega

/-- Two's complement: the upper half of the words are the negative numbers. -/
theorem toInt_toInt32 (word : Word) :
    word.toInt32.toInt =
      if word.toNat < 0x80000000 then (word.toNat : Int) else word.toNat - 0x100000000 := by
  have signed : word.toInt32.toInt = if 2 * word.toNat < 2 ^ 32 then (word.toNat : Int)
      else word.toNat - (2 ^ 32 : Nat) := BitVec.toInt_eq_toNat_cond word.toBitVec
  rw [signed]
  split
  · rw [if_pos (by omega)]
  · rw [if_neg (by omega)]
    rfl

theorem toNat_toUInt32 (value : Int32) :
    (value.toUInt32.toNat : Int) = value.toInt % 0x100000000 := by
  have signed := toInt_toInt32 value.toUInt32
  have bounded := value.toUInt32.toNat_lt
  rw [Int32.toInt32_toUInt32] at signed
  rw [signed]
  split
  · omega
  · omega

end Word

namespace Shape

/-- A register operand as it stands in its field: its lowest five bits, or zero
if the field carries no operand. -/
def field (used : Bool) (operand : Int) : Nat :=
  if used then (operand % 32).toNat else 0

/-- The word with given operands.  Operands that the encoding has no field for
are ignored. -/
def encode (shape : Shape) (s t d : Int) (immediate : Int16) : Word :=
  match shape with
  | data => 0
  | register funct usesS usesT usesD =>
      UInt32.ofNat
        (field usesS s * 0x200000 + field usesT t * 0x10000 + field usesD d * 0x800 + funct)
  | Shape.immediate opcode =>
      UInt32.ofNat
        (opcode * 0x4000000 + field true s * 0x200000 + field true t * 0x10000 +
          immediate.toUInt16.toNat)

end Shape

namespace Op

/-- The word of an operation with given operands.  Data has no operands and
encodes as zero, as does a number outside the table. -/
def encode (op : Op) (s t d : Int) (immediate : Int16) : Word :=
  match op.shape? with
  | some shape => shape.encode s t d immediate
  | none => 0

def encodeKnown (op : Op) (s t d : Int) (immediate : Int16) : Except Misuse Word :=
  match op.shape? with
  | some shape => .ok (shape.encode s t d immediate)
  | none => .error (.noSuchOp op.code)

end Op
end ReversibleMips
