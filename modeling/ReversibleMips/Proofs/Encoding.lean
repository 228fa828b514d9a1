import ReversibleMips.Proofs.Decoding

/-!
# Words and their fields

A word is put together from its opcode, its register fields and its lower half.  The
operation that a word stands for has a shape that the word is laid out by, and so the
operation and the fields of a word encode as the word itself.
-/

namespace ReversibleMips

namespace Word

/-- The fields of a word of the register format. -/
theorem toNat_eq_registerFields (word : Word) :
    word.toNat = word.opcode * 0x4000000 + word.regS.val * 0x200000 +
      word.regT.val * 0x10000 + word.regD.val * 0x800 + word.funct := by
  simp only [opcode, regS, regT, regD, funct]
  have bounded := word.toNat_lt
  omega

/-- The fields of a word of the immediate format. -/
theorem toNat_eq_immediateFields (word : Word) :
    word.toNat = word.opcode * 0x4000000 + word.regS.val * 0x200000 +
      word.regT.val * 0x10000 + word.immediate.toUInt16.toNat := by
  have lower : word.immediate.toUInt16.toNat = word.toNat % 0x10000 := by
    simp [immediate]
  simp only [opcode, regS, regT, lower]
  have bounded := word.toNat_lt
  omega

theorem regS_lt (word : Word) : word.regS.val < 32 := by
  simp only [regS]
  omega

theorem regT_lt (word : Word) : word.regT.val < 32 := by
  simp only [regT]
  omega

theorem regD_lt (word : Word) : word.regD.val < 32 := by
  simp only [regD]
  omega

theorem op_mem_table (word : Word) : word.op ∈ Op.table := by
  obtain ⟨shape, shapeEq, _⟩ := word.check_op
  cases operation : word.op with
  | other code =>
      rw [operation] at shapeEq
      cases shapeEq
  | _ => decide

end Word

namespace Shape

theorem field_eq {used : Bool} {operand : Nat} (general : operand < 32)
    (unused : used = false → operand = 0) : field used operand = operand := by
  cases used with
  | false => simp [field, unused]
  | true =>
      simp only [field, if_true]
      omega

/-- A word that is laid out by a shape is what its fields encode as. -/
theorem encode_of_check {shape : Shape} {word : Word} (fits : shape.check word = .ok ())
    (instruction : shape ≠ .data) :
    shape.encode word.regS.val word.regT.val word.regD.val word.immediate = word := by
  cases shape with
  | data => exact absurd rfl instruction
  | register funct s t d =>
      obtain ⟨opcodeEq, functEq, sZero, tZero, dZero⟩ := check_register fits
      have whole := word.toNat_eq_registerFields
      rw [opcodeEq, functEq, Nat.zero_mul, Nat.zero_add] at whole
      simp only [encode, field_eq word.regS_lt sZero, field_eq word.regT_lt tZero,
        field_eq word.regD_lt dZero, ← whole, UInt32.ofNat_toNat]
  | immediate opcode =>
      have opcodeEq := check_immediate fits
      have whole := word.toNat_eq_immediateFields
      rw [opcodeEq] at whole
      have used {operand : Nat} (general : operand < 32) : field true operand = operand :=
        field_eq general (by simp)
      simp only [encode, used word.regS_lt, used word.regT_lt, ← whole, UInt32.ofNat_toNat]

theorem field_lt (used : Bool) (operand : Int) : field used operand < 32 := by
  unfold field
  split
  · omega
  · omega

theorem toNat_encode_immediate {opcode : Nat} (small : opcode < 64) (s t d : Int)
    (immediate : Int16) :
    ((Shape.immediate opcode).encode s t d immediate).toNat =
      opcode * 0x4000000 + field true s * 0x200000 + field true t * 0x10000 +
        immediate.toUInt16.toNat := by
  have sSmall := field_lt true s
  have tSmall := field_lt true t
  have lower := immediate.toUInt16.toNat_lt
  simp only [encode, UInt32.toNat_ofNat']
  omega

/-- The fields of an encoded word of the immediate format are what was encoded. -/
theorem fields_encode_immediate {opcode : Nat} (small : opcode < 64) (s t d : Int)
    (immediate : Int16) :
    let word := (Shape.immediate opcode).encode s t d immediate
    word.opcode = opcode ∧ word.regS.val = field true s ∧ word.regT.val = field true t ∧
      word.immediate = immediate := by
  have whole := toNat_encode_immediate small s t d immediate
  have sSmall := field_lt true s
  have tSmall := field_lt true t
  have lower := immediate.toUInt16.toNat_lt
  refine ⟨?_, ?_, ?_, ?_⟩
  · simp only [Word.opcode, whole]
    omega
  · simp only [Word.regS, whole]
    omega
  · simp only [Word.regT, whole]
    omega
  · have lowerHalf : UInt16.ofNat (UInt32.toNat _) = immediate.toUInt16 :=
      UInt16.toNat_inj.mp (by rw [UInt16.toNat_ofNat', whole]; omega)
    rw [Word.immediate, ← UInt16.toInt16_ofNat', lowerHalf, Int16.toInt16_toUInt16]

end Shape

/-- The operation and the fields of an instruction encode as its word. -/
theorem Word.encode_op {word : Word} (instruction : word.op ≠ .word) :
    word.op.encode word.regS.val word.regT.val word.regD.val word.immediate = word := by
  obtain ⟨shape, shapeEq, fits⟩ := word.check_op
  have isInstruction : shape ≠ .data := by
    intro isData
    apply instruction
    rw [isData] at shapeEq
    cases operation : word.op <;> simp [operation, Op.shape?] at shapeEq
    rfl
  simp only [Op.encode, shapeEq]
  exact Shape.encode_of_check fits isInstruction

end ReversibleMips
