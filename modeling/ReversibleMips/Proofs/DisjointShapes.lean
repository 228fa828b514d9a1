import ReversibleMips.Proofs.InstructionSet

/-!
# Disjoint shapes

Taking a word as an operation goes by the table of shapes, and decoding it by its own cases.
They agree on every word: besides data, the only operation that a word can be taken as is the
one that it is decoded as.  A word that has the codes of an operation is refused if a register
field without an operand is not zero, and any other word that is refused has other codes.
-/

namespace ReversibleMips

namespace Shape

/-- A word has the opcode of a shape, and its function code if the shape has one. -/
def Coded : Shape → Word → Prop
  | data, _ => True
  | register funct _ _ _, word => word.opcode = 0 ∧ word.funct = funct
  | immediate opcode, word => word.opcode = opcode

instance : (shape : Shape) → (word : Word) → Decidable (shape.Coded word)
  | data, _ => inferInstanceAs (Decidable True)
  | register funct _ _ _, word =>
      inferInstanceAs (Decidable (word.opcode = 0 ∧ word.funct = funct))
  | immediate opcode, word => inferInstanceAs (Decidable (word.opcode = opcode))

/-- The register fields of a word that carry no operand in a shape are zero. -/
def Clear : Shape → Word → Prop
  | data, _ => True
  | register _ s t d, word =>
      (s = false → word.regS.val = 0) ∧ (t = false → word.regT.val = 0) ∧
        (d = false → word.regD.val = 0)
  | immediate _, _ => True

instance : (shape : Shape) → (word : Word) → Decidable (shape.Clear word)
  | data, _ => inferInstanceAs (Decidable True)
  | register _ s t d, word =>
      inferInstanceAs (Decidable ((s = false → word.regS.val = 0) ∧
        (t = false → word.regT.val = 0) ∧ (d = false → word.regD.val = 0)))
  | immediate _, _ => inferInstanceAs (Decidable True)

/-- Codes are looked at before fields. -/
theorem check_eq (shape : Shape) (word : Word) :
    shape.check word =
      if shape.Coded word then
        if shape.Clear word then .ok () else .error .badCode
      else
        .error .mismatch := by
  cases shape with
  | data => rfl
  | immediate opcode =>
      by_cases same : word.opcode = opcode
      · simp [check, Coded, Clear, same]
      · simp [check, Coded, same]
  | register funct s t d =>
      have codes : (word.opcode ≠ 0 ∨ word.funct ≠ funct) ↔
          ¬ (register funct s t d).Coded word := by
        rw [Coded, Decidable.not_and_iff_or_not]
      have fields : ((!s && decide (word.regS.val ≠ 0)) || (!t && decide (word.regT.val ≠ 0)) ||
          (!d && decide (word.regD.val ≠ 0))) = true ↔ ¬ (register funct s t d).Clear word := by
        simp only [Clear, Bool.or_eq_true, Bool.and_eq_true, Bool.not_eq_true', decide_eq_true_iff]
        grind
      simp only [check, codes, fields, ite_not]

end Shape

namespace Op

/-- Numbers outside the table keep to themselves, so that every integer is the number of the
operation that it names. -/
theorem code_ofCode (code : Int) : (ofCode code).code = code := by
  cases code with
  | ofNat number =>
      by_cases known : number < table.length
      · have numbered : ∀ place : Fin table.length, (table.get place).code = place.val := by
          decide
        simp only [ofCode, List.getElem?_eq_getElem known, Option.getD_some]
        exact numbered ⟨number, known⟩
      · have missing : table[number]? = none := List.getElem?_eq_none (Nat.le_of_not_lt known)
        simp only [ofCode, missing, Option.getD_none]
        rfl
  | negSucc number => rfl

theorem ofCode_code {op : Op} (known : op ∈ table) : ofCode op.code = op := by
  cases op with
  | other code => simp [table] at known
  | _ => rfl

/-- A number names an operation of the table if it is the number of that operation. -/
theorem ofCode_eq_iff {code : Int} {op : Op} (known : op ∈ table) :
    ofCode code = op ↔ code = op.code := by
  constructor
  · rintro rfl
    exact (code_ofCode code).symm
  · rintro rfl
    exact ofCode_code known

/-- The table has a shape for an operation whose codes are those of a word, but the word is not
zero in a field where the shape asks for it. -/
def Spoiled (op : Op) (word : Word) : Prop :=
  ∃ shape ∈ op.shape?, shape.Coded word ∧ ¬ shape.Clear word

instance (op : Op) (word : Word) : Decidable (op.Spoiled word) :=
  inferInstanceAs (Decidable (∃ shape ∈ op.shape?, shape.Coded word ∧ ¬ shape.Clear word))

/-- The operations whose shape a word has are data and the one that the word is decoded as. -/
theorem laidOut_iff (op : Op) (word : Word) :
    (∃ shape ∈ op.shape?, shape.Coded word ∧ shape.Clear word) ↔ op = .word ∨ op = word.op := by
  constructor
  · rintro ⟨shape, found, coded, clear⟩
    by_cases isData : op = .word
    · exact .inl isData
    · have fits : shape.check word = .ok () := by
        rw [Shape.check_eq, if_pos coded, if_pos clear]
      exact .inr (Word.op_eq_of_check found isData fits).symm
  · rintro (rfl | rfl)
    · exact ⟨.data, rfl, trivial, trivial⟩
    · obtain ⟨shape, found, fits⟩ := word.check_op
      rw [Shape.check_eq] at fits
      split at fits
      · rename_i coded
        split at fits
        · rename_i clear
          exact ⟨shape, found, coded, clear⟩
        · cases fits
      · cases fits

end Op

namespace Instruction

/-- A word can be taken as data and as what it is decoded as, and as nothing else.  What is refused
is still the instruction that was asked for, if there is such an operation. -/
theorem attempt_eq (op : Op) (word : Word) (address : Address) :
    attempt op word address =
      if op = .word ∨ op = word.op then (⟨op, word, address⟩, none)
      else
        (if op.shape?.isSome then ⟨op, word, address⟩ else default,
          some ⟨if op.Spoiled word then .badCode else .mismatch, op, word⟩) := by
  cases found : op.shape? with
  | none =>
      have unlisted : ¬ (op = .word ∨ op = word.op) := by
        rw [← Op.laidOut_iff]
        simp [found]
      have unspoiled : ¬ op.Spoiled word := by simp [Op.Spoiled, found]
      simp only [attempt, found, if_neg unlisted, if_neg unspoiled]
      rfl
  | some shape =>
      have listed : (op = .word ∨ op = word.op) ↔ shape.Coded word ∧ shape.Clear word := by
        rw [← Op.laidOut_iff]
        simp [found]
      have spoiled : op.Spoiled word ↔ shape.Coded word ∧ ¬ shape.Clear word := by
        simp [Op.Spoiled, found]
      simp only [attempt, found, Shape.check_eq, listed, spoiled]
      by_cases coded : shape.Coded word
      · by_cases clear : shape.Clear word
        · simp [coded, clear]
        · simp [coded, clear]
      · simp [coded]

theorem make_eq (op : Op) (word : Word) (address : Address) :
    make op word address =
      if op = .word ∨ op = word.op then .ok ⟨op, word, address⟩
      else .error ⟨if op.Spoiled word then .badCode else .mismatch, op, word⟩ := by
  rw [make, attempt_eq]
  by_cases listed : op = .word ∨ op = word.op
  · simp only [if_pos listed]
  · simp only [if_neg listed]

/-- A word can be taken as the operation with a number. -/
def Makes (code : Int) (word : Word) (address : Address) : Prop :=
  ∃ instruction, make (Op.ofCode code) word address = .ok instruction

theorem makes_iff (code : Int) (word : Word) (address : Address) :
    Makes code word address ↔ code = Op.word.code ∨ code = word.op.code := by
  have isData : Op.ofCode code = .word ↔ code = Op.word.code := Op.ofCode_eq_iff (by decide)
  have isDecoded : Op.ofCode code = word.op ↔ code = word.op.code :=
    Op.ofCode_eq_iff word.op_mem_table
  rw [Makes, ← isData, ← isDecoded, make_eq]
  split
  · rename_i listed
    exact ⟨fun _ => listed, fun _ => ⟨_, rfl⟩⟩
  · rename_i unlisted
    constructor
    · rintro ⟨_, refused⟩
      cases refused
    · exact fun listed => absurd listed unlisted

end Instruction

/-- The table of shapes and the cases of the decoder agree, for every number of an operation.  A
word can be taken as data or as the operation that it is decoded as, so that besides data it is
at most one operation, and the decoder finds it.  Otherwise the code is bad if the word has the
codes of the operation without being zero where the operation asks for it, and else it is a
mismatch. -/
theorem decoder_agrees_with_shapes (code : Int) (word : Word) (address : Address) :
    let op := Op.ofCode code
    let decoded := Instruction.decode word address
    (decoded.word = word ∧ decoded.address = address) ∧
    (Instruction.Makes code word address ↔ code = Op.word.code ∨ code = decoded.op.code) ∧
    (∀ instruction, Instruction.make op word address = .ok instruction →
      instruction = ⟨op, word, address⟩) ∧
    (code ≠ Op.word.code → Instruction.Makes code word address →
      decoded = ⟨op, word, address⟩ ∧
        ∀ other, other ≠ Op.word.code → Instruction.Makes other word address → other = code) ∧
    (∀ error, Instruction.make op word address = .error error →
      error.op = op ∧ error.word = word ∧
        (error.cause = .badCode ↔ op.Spoiled word) ∧
        (error.cause = .mismatch ↔ ¬ op.Spoiled word)) := by
  intro op decoded
  have decodedEq : decoded = ⟨word.op, word, address⟩ := Instruction.decode_eq word address
  rw [decodedEq]
  have unique {number : Int} (instruction : number ≠ Op.word.code)
      (makes : Instruction.Makes number word address) : number = word.op.code :=
    ((Instruction.makes_iff number word address).mp makes).resolve_left instruction
  refine ⟨⟨rfl, rfl⟩, Instruction.makes_iff code word address, ?_, ?_, ?_⟩
  · intro instruction made
    rw [Instruction.make_eq] at made
    split at made
    · exact (Except.ok.inj made).symm
    · cases made
  · intro instruction makes
    have codeEq : code = word.op.code := unique instruction makes
    refine ⟨?_, fun other otherInstruction otherMakes => ?_⟩
    · have opEq : op = word.op := (Op.ofCode_eq_iff word.op_mem_table).mpr codeEq
      rw [opEq]
    · rw [codeEq, unique otherInstruction otherMakes]
  · intro error refused
    rw [Instruction.make_eq] at refused
    split at refused
    · cases refused
    · cases refused
      by_cases spoiled : op.Spoiled word
      · simp [spoiled]
      · simp [spoiled]

/-- A multiplication of `$1` and `$2`, and the same word with a third register. -/
theorem decoder_agrees_with_shapes_multiplication :
    (Instruction.Makes 5 0x00220018 .zero ∧
      Instruction.decode 0x00220018 .zero = ⟨.mult, 0x00220018, .zero⟩ ∧
      ∀ other, other ≠ Op.word.code → Instruction.Makes other 0x00220018 .zero → other = 5) ∧
    (Instruction.make .mult 0x00221818 .zero = .error ⟨.badCode, .mult, 0x00221818⟩ ∧
      Op.mult.Spoiled 0x00221818) ∧
    (Instruction.make .divu 0x00221818 .zero = .error ⟨.mismatch, .divu, 0x00221818⟩ ∧
      ¬ Op.divu.Spoiled 0x00221818) := by
  obtain ⟨-, makesIff, -, found, -⟩ := decoder_agrees_with_shapes 5 0x00220018 .zero
  obtain ⟨-, -, -, -, refusedMult⟩ := decoder_agrees_with_shapes 5 0x00221818 .zero
  obtain ⟨-, -, -, -, refusedDivu⟩ := decoder_agrees_with_shapes 8 0x00221818 .zero
  have makes : Instruction.Makes 5 0x00220018 .zero := makesIff.mpr (by decide)
  have bad : Instruction.make .mult 0x00221818 .zero =
      .error ⟨.badCode, .mult, 0x00221818⟩ := by rfl
  have other : Instruction.make .divu 0x00221818 .zero =
      .error ⟨.mismatch, .divu, 0x00221818⟩ := by rfl
  obtain ⟨-, -, isBad, -⟩ := refusedMult _ bad
  obtain ⟨-, -, -, isOther⟩ := refusedDivu _ other
  exact ⟨⟨makes, found (by decide) makes⟩, ⟨bad, isBad.mp rfl⟩, other, isOther.mp rfl⟩

end ReversibleMips
