import ReversibleMips.Instruction

/-!
# The decoder by cases

The decoder tries a word as the operation that its codes ask for and falls back on data.  What it
finds is one match on the codes and the fields of the word.  The operation of that match is the
only one besides data whose shape the word has.
-/

namespace ReversibleMips

namespace Shape

theorem check_register {funct : Nat} {s t d : Bool} {word : Word}
    (fits : (register funct s t d).check word = .ok ()) :
    word.opcode = 0 ∧ word.funct = funct ∧ (s = false → word.regS.val = 0) ∧
      (t = false → word.regT.val = 0) ∧ (d = false → word.regD.val = 0) := by
  simp only [check] at fits
  split at fits
  · cases fits
  · rename_i same
    split at fits
    · cases fits
    · rename_i zeros
      simp only [ne_eq, not_or, Decidable.not_not] at same
      simp only [ne_eq, Bool.or_eq_true, Bool.and_eq_true, Bool.not_eq_true', decide_not,
        decide_eq_false_iff_not, not_or, not_and, Decidable.not_not] at zeros
      exact ⟨same.1, same.2, zeros.1.1, zeros.1.2, zeros.2⟩

theorem check_immediate {opcode : Nat} {word : Word}
    (fits : (Shape.immediate opcode).check word = .ok ()) : word.opcode = opcode := by
  simp only [check] at fits
  split at fits
  · cases fits
  · rename_i same
    exact Decidable.not_not.mp same

end Shape

namespace Word

/-- The operation that a word stands for.  A word that no instruction is encoded
as stands for itself. -/
def op (word : Word) : Op :=
  match opcode word with
  | 0x00 =>
      match funct word with
      | 0x08 => if (regT word).val = 0 ∧ (regD word).val = 0 then .jr else .word
      | 0x09 => if (regT word).val = 0 ∧ (regD word).val = 0 then .jalr else .word
      | 0x10 => if (regS word).val = 0 ∧ (regT word).val = 0 then .mfhi else .word
      | 0x12 => if (regS word).val = 0 ∧ (regT word).val = 0 then .mflo else .word
      | 0x14 => if (regS word).val = 0 ∧ (regT word).val = 0 then .lis else .word
      | 0x18 => if (regD word).val = 0 then .mult else .word
      | 0x19 => if (regD word).val = 0 then .multu else .word
      | 0x1a => if (regD word).val = 0 then .div else .word
      | 0x1b => if (regD word).val = 0 then .divu else .word
      | 0x20 => .add
      | 0x22 => .sub
      | 0x2a => .slt
      | 0x2b => .sltu
      | _ => .word
  | 0x04 => .beq
  | 0x05 => .bne
  | 0x23 => .lw
  | 0x2b => .sw
  | _ => .word

/-- Every word is laid out by the shape of the operation that it stands for. -/
theorem check_op (word : Word) :
    ∃ shape, word.op.shape? = some shape ∧ shape.check word = .ok () := by
  unfold op
  split
  · split <;> try split
    all_goals simp_all [Op.shape?, Shape.check]
  all_goals simp_all [Op.shape?, Shape.check]

/-- No word is laid out by the shapes of two operations. -/
theorem op_eq_of_check {op : Op} {shape : Shape} {word : Word}
    (shapeEq : op.shape? = some shape) (instruction : op ≠ .word)
    (fits : shape.check word = .ok ()) : word.op = op := by
  cases op with
  | word => exact absurd rfl instruction
  | other code => cases shapeEq
  | lw | sw | beq | bne =>
      cases shapeEq
      have opcodeEq := Shape.check_immediate fits
      simp only [Word.op, opcodeEq]
  | _ =>
      cases shapeEq
      obtain ⟨opcodeEq, functEq, sZero, tZero, dZero⟩ := Shape.check_register fits
      simp [Word.op, opcodeEq, functEq, sZero, tZero, dZero]

/-- A word is tried as the operation whose shape it has. -/
theorem likelyOp_of_check {op : Op} {shape : Shape} {word : Word}
    (shapeEq : op.shape? = some shape) (instruction : op ≠ .word)
    (fits : shape.check word = .ok ()) : word.likelyOp = op := by
  cases op with
  | word => exact absurd rfl instruction
  | other code => cases shapeEq
  | lw | sw | beq | bne =>
      cases shapeEq
      have opcodeEq := Shape.check_immediate fits
      simp only [likelyOp, opcodeEq]
  | _ =>
      cases shapeEq
      obtain ⟨opcodeEq, functEq, sZero, tZero, dZero⟩ := Shape.check_register fits
      simp [likelyOp, opcodeEq, functEq, sZero, tZero, dZero, moveOp, jumpOp, arithmeticOp]

theorem likelyOp_of_op {word : Word} (instruction : word.op ≠ .word) : word.likelyOp = word.op := by
  obtain ⟨shape, shapeEq, fits⟩ := word.check_op
  exact likelyOp_of_check shapeEq instruction fits

end Word

namespace Instruction

theorem attempt_of_check {op : Op} {shape : Shape} {word : Word}
    (shapeEq : op.shape? = some shape) (fits : shape.check word = .ok ()) (address : Address) :
    attempt op word address = (⟨op, word, address⟩, none) := by
  simp only [attempt, shapeEq, fits]

theorem attempt_eq_none {op : Op} {word : Word} {address : Address} {instruction : Instruction}
    (made : attempt op word address = (instruction, none)) :
    instruction = ⟨op, word, address⟩ ∧ (op = .word ∨ op = word.op) := by
  unfold attempt at made
  split at made
  · cases made
  · rename_i shape shapeEq
    split at made
    · cases made
    · rename_i fits
      cases made
      refine ⟨rfl, ?_⟩
      by_cases isData : op = .word
      · exact .inl isData
      · exact .inr (Word.op_eq_of_check shapeEq isData fits).symm

/-- Trying a word as what its codes ask for finds the operation that it stands for. -/
theorem decode_eq (word : Word) (address : Address) :
    decode word address = ⟨word.op, word, address⟩ := by
  by_cases isData : word.op = .word
  · rw [isData]
    unfold decode
    split
    · rename_i instruction made
      obtain ⟨rfl, likely | likely⟩ := attempt_eq_none made
      · rw [likely]
      · rw [likely, isData]
    · rfl
  · obtain ⟨shape, shapeEq, fits⟩ := word.check_op
    unfold decode
    rw [Word.likelyOp_of_op isData, attempt_of_check shapeEq fits]

@[simp]
theorem op_decode (word : Word) (address : Address) : (decode word address).op = word.op := by
  rw [decode_eq]

@[simp]
theorem word_decode (word : Word) (address : Address) : (decode word address).word = word := by
  rw [decode_eq]

@[simp]
theorem address_decode (word : Word) (address : Address) :
    (decode word address).address = address := by
  rw [decode_eq]

end Instruction
end ReversibleMips
