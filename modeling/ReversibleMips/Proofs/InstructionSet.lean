import ReversibleMips.Proofs.Encoding

/-!
# The instruction set

Encoding goes by the table of shapes, and decoding by its own cases on opcodes and
function codes.  They are inverse to each other: a word that is encoded by a shape is laid
out by it, no word is laid out by the shapes of two operations, and the fields of a word
are the operands that it was encoded from.
-/

namespace ReversibleMips

namespace Op

/-- The operations with an operand in the first register field. -/
def withS : List Op :=
  [add, sub, slt, sltu, mult, multu, div, divu, lw, sw, beq, bne, jr, jalr]

/-- The operations with an operand in the second register field. -/
def withT : List Op :=
  [add, sub, slt, sltu, mult, multu, div, divu, lw, sw, beq, bne]

/-- The operations with an operand in the third register field. -/
def withD : List Op := [add, sub, slt, sltu, mfhi, mflo, lis]

/-- The operations with an immediate, which takes the place of the third register field. -/
def withImmediate : List Op := [lw, sw, beq, bne]

/-- What the table of shapes says of the operands of an operation. -/
inductive Layout (op : Op) : Shape → Prop
  | register {funct : Nat} (small : funct < 0x800) (noImmediate : op ∉ withImmediate) :
      Layout op (.register funct (op ∈ withS) (op ∈ withT) (op ∈ withD))
  | immediate {opcode : Nat} (small : opcode < 64) (s : op ∈ withS) (t : op ∈ withT)
      (hasImmediate : op ∈ withImmediate) : Layout op (.immediate opcode)

theorem layout_of_mem_table {op : Op} (known : op ∈ table) (instruction : op ≠ .word) :
    ∃ shape, op.shape? = some shape ∧ op.Layout shape := by
  cases op with
  | word => exact absurd rfl instruction
  | other code => simp [table] at known
  | lw | sw | beq | bne =>
      exact ⟨_, rfl, .immediate (by decide) (by decide) (by decide) (by decide)⟩
  | _ => exact ⟨_, rfl, .register (by decide) (by decide)⟩

theorem encode_of_shape? {op : Op} {shape : Shape} (shapeEq : op.shape? = some shape)
    (s t d : Int) (immediate : Int16) :
    op.encode s t d immediate = shape.encode s t d immediate := by
  rw [encode, shapeEq]

end Op

namespace Shape

theorem toNat_encode_register {funct : Nat} (small : funct < 0x800) (usesS usesT usesD : Bool)
    (s t d : Int) (immediate : Int16) :
    ((register funct usesS usesT usesD).encode s t d immediate).toNat =
      field usesS s * 0x200000 + field usesT t * 0x10000 + field usesD d * 0x800 + funct := by
  have sSmall := field_lt usesS s
  have tSmall := field_lt usesT t
  have dSmall := field_lt usesD d
  simp only [encode, UInt32.toNat_ofNat']
  omega

/-- The fields of an encoded word of the register format are what was encoded. -/
theorem fields_encode_register {funct : Nat} (small : funct < 0x800)
    (usesS usesT usesD : Bool) (s t d : Int) (immediate : Int16) :
    let word := (register funct usesS usesT usesD).encode s t d immediate
    word.opcode = 0 ∧ word.funct = funct ∧ word.regS.val = field usesS s ∧
      word.regT.val = field usesT t ∧ word.regD.val = field usesD d := by
  have whole := toNat_encode_register small usesS usesT usesD s t d immediate
  have sSmall := field_lt usesS s
  have tSmall := field_lt usesT t
  have dSmall := field_lt usesD d
  refine ⟨?_, ?_, ?_, ?_, ?_⟩
  · simp only [Word.opcode, whole]
    omega
  · simp only [Word.funct, whole]
    omega
  · simp only [Word.regS, whole]
    omega
  · simp only [Word.regT, whole]
    omega
  · simp only [Word.regD, whole]
    omega

theorem field_decide (used : Prop) [Decidable used] (operand : Int) :
    (field (decide used) operand : Int) = if used then operand % 32 else 0 := by
  by_cases uses : used
  · have nonneg : 0 ≤ operand % 32 := Int.emod_nonneg operand (by decide)
    simp only [field, uses, decide_true, if_true, Int.toNat_of_nonneg nonneg]
  · simp [field, uses]

/-- A word that is encoded by the shape of an operation is laid out by it. -/
theorem check_encode {op : Op} {shape : Shape} (layout : op.Layout shape) (s t d : Int)
    (immediate : Int16) : shape.check (shape.encode s t d immediate) = .ok () := by
  cases layout with
  | @register funct small noImmediate =>
      obtain ⟨opcodeEq, functEq, sEq, tEq, dEq⟩ :=
        fields_encode_register small (op ∈ Op.withS) (op ∈ Op.withT) (op ∈ Op.withD) s t d
          immediate
      have zero (used : Bool) (operand : Int) :
          (!used && decide (field used operand ≠ 0)) = false := by
        cases used <;> simp [field]
      rw [check, opcodeEq, functEq, sEq, tEq, dEq]
      simp only [zero]
      simp
  | @immediate opcode small _ _ _ =>
      obtain ⟨opcodeEq, -⟩ := fields_encode_immediate small s t d immediate
      rw [check, opcodeEq]
      simp

end Shape

/-- Decoding the word of an operation gives back the operation. -/
theorem Op.op_encode {op : Op} (known : op ∈ table) (instruction : op ≠ .word) (s t d : Int)
    (immediate : Int16) : (op.encode s t d immediate).op = op := by
  obtain ⟨shape, shapeEq, layout⟩ := layout_of_mem_table known instruction
  rw [encode_of_shape? shapeEq]
  exact Word.op_eq_of_check shapeEq instruction (Shape.check_encode layout s t d immediate)

namespace Instruction

/-- An instruction has an operation and its operands: a register field holds its operand
modulo the number of general registers, or zero if the operation has no operand there.
An immediate takes the place of the third register field. -/
structure Carries (instruction : Instruction) (op : Op) (s t d : Int) (immediate : Int16) :
    Prop where
  op_eq : instruction.op = op
  s_eq : (instruction.word.regS.val : Int) = if op ∈ Op.withS then s % 32 else 0
  t_eq : (instruction.word.regT.val : Int) = if op ∈ Op.withT then t % 32 else 0
  d_eq : op ∉ Op.withImmediate →
    (instruction.word.regD.val : Int) = if op ∈ Op.withD then d % 32 else 0
  immediate_eq : op ∈ Op.withImmediate → instruction.word.immediate = immediate

theorem carries_decode_encode {op : Op} (known : op ∈ Op.table) (instruction : op ≠ .word)
    (s t d : Int) (immediate : Int16) (address : Address) :
    (decode (op.encode s t d immediate) address).Carries op s t d immediate := by
  rw [decode_eq]
  have opEq := Op.op_encode known instruction s t d immediate
  obtain ⟨shape, shapeEq, layout⟩ := Op.layout_of_mem_table known instruction
  have encodeEq := Op.encode_of_shape? shapeEq s t d immediate
  cases layout with
  | @register funct small noImmediate =>
      obtain ⟨-, -, sEq, tEq, dEq⟩ :=
        Shape.fields_encode_register small (op ∈ Op.withS) (op ∈ Op.withT) (op ∈ Op.withD)
          s t d immediate
      rw [← encodeEq] at sEq tEq dEq
      constructor
      · exact opEq
      · simp only [sEq, Shape.field_decide]
      · simp only [tEq, Shape.field_decide]
      · intro _
        simp only [dEq, Shape.field_decide]
      · intro hasImmediate
        exact absurd hasImmediate noImmediate
  | @immediate opcode small usesS usesT hasImmediate =>
      obtain ⟨-, sEq, tEq, immediateEq⟩ :=
        Shape.fields_encode_immediate small s t d immediate
      rw [← encodeEq] at sEq tEq immediateEq
      have used (operand : Int) : (Shape.field true operand : Int) = operand % 32 := by
        simpa using Shape.field_decide True operand
      constructor
      · exact opEq
      · simp only [sEq, used, usesS, if_true]
      · simp only [tEq, used, usesT, if_true]
      · intro noImmediate
        exact absurd hasImmediate noImmediate
      · intro _
        exact immediateEq

end Instruction

/-- Encoding and decoding are inverse to each other.  The word of an operation decodes to
the operation with its operands, whatever the operands are; an instruction encodes as the
word that it was decoded from; and so the words that are instructions are exactly those
that operations encode as. -/
theorem encode_decode_inverse :
    (∀ op ∈ Op.table, op ≠ .word →
      ∀ (s t d : Int) (immediate : Int16) (address : Address),
        (Instruction.decode (op.encode s t d immediate) address).Carries op s t d immediate) ∧
    (∀ (word : Word) (address : Address),
      let instruction := Instruction.decode word address
      instruction.op ≠ .word →
        instruction.op.encode instruction.word.regS.val instruction.word.regT.val
          instruction.word.regD.val instruction.word.immediate = word) ∧
    (∀ (word : Word) (address : Address),
      (Instruction.decode word address).op ≠ .word ↔
        ∃ op ∈ Op.table, op ≠ .word ∧
          ∃ (s t d : Int) (immediate : Int16), op.encode s t d immediate = word) := by
  refine ⟨?_, ?_, ?_⟩
  · intro op known instruction s t d immediate address
    exact Instruction.carries_decode_encode known instruction s t d immediate address
  · intro word address
    rw [Instruction.decode_eq]
    exact Word.encode_op
  · intro word address
    rw [Instruction.op_decode]
    constructor
    · intro isInstruction
      exact ⟨word.op, word.op_mem_table, isInstruction, _, _, _, _,
        Word.encode_op isInstruction⟩
    · rintro ⟨op, known, instruction, s, t, d, immediate, rfl⟩
      have opEq := Op.op_encode known instruction s t d immediate
      exact fun isData => instruction (opEq.symm.trans isData)

/-- Operands below zero and above the last register, and a jump back from its word. -/
theorem encode_decode_inverse_wrapping :
    Op.lw.encode (-1) 37 99 (-4) = 0x8fe5fffc ∧
      (Instruction.decode (Op.lw.encode (-1) 37 99 (-4)) .zero).Carries .lw (-1) 37 99 (-4) ∧
      (Instruction.decode 0x03e00009 .zero).op = .jalr ∧
      Op.jalr.encode 31 0 0 9 = 0x03e00009 := by
  have jump : (Instruction.decode 0x03e00009 .zero).op = .jalr := by decide
  have inverse := encode_decode_inverse
  refine ⟨by decide, inverse.1 .lw (by decide) (by decide) _ _ _ _ _, jump, ?_⟩
  exact inverse.2.1 0x03e00009 .zero (by decide)

end ReversibleMips
