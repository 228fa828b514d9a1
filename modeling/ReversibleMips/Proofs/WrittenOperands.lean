import ReversibleMips.Proofs.Disassembly
import ReversibleMips.Proofs.InstructionSet

/-!
# What operands name

The words of a line name registers and numbers, either by themselves or by one equate.  What
they name is said here without the functions that read them, and whatever these functions
accept has the meaning that they find.  The other half is about encoded instructions: decoded
again, they are written with the operands that they were encoded from.
-/

namespace ReversibleMips

namespace Text

theorem digitValue?_of_isDigit {digit : Char} (isDigit : digit.isDigit = true) :
    digitValue? digit = some (digit.toNat - '0'.toNat) := by
  have range : '0' ≤ digit ∧ digit ≤ '9' := by
    simpa [Char.isDigit, Char.le_def, UInt32.le_iff_toNat_le] using isDigit
  rw [digitValue?, if_pos range]
  rfl

theorem ofDigitChars_of_readDigits {max start value : Nat} {digits : List Char}
    (allDigits : digits.all Char.isDigit = true)
    (read : readDigits 10 max start digits = .ok value) :
    Nat.ofDigitChars 10 digits start = value := by
  induction digits generalizing start with
  | nil =>
      cases read
      rfl
  | cons digit digits ih =>
      obtain ⟨isDigit, others⟩ : digit.isDigit = true ∧ digits.all Char.isDigit = true := by
        simpa using allDigits
      have notMark : digit ≠ '_' := by
        rintro rfl
        cases isDigit
      rw [readDigits.eq_3 _ _ _ _ _ notMark, digitValue?_of_isDigit isDigit] at read
      simp only at read
      split at read
      · cases read
      · split at read
        · cases read
        · rw [Nat.ofDigitChars, List.foldl_cons, Nat.mul_comm]
          exact ih others read

theorem ofDigitChars_of_readDecimal? {max value : Nat} {text : List Char}
    (read : readDecimal? max text = some value) :
    text ≠ [] ∧ text.all Char.isDigit = true ∧ Nat.ofDigitChars 10 text 0 = value := by
  unfold readDecimal? at read
  split at read
  · cases read
  · rename_i digitsOnly
    simp only [Bool.or_eq_true, Bool.not_eq_true', not_or, Bool.not_eq_false,
      List.isEmpty_iff] at digitsOnly
    obtain ⟨nonempty, allDigits⟩ := digitsOnly
    refine ⟨nonempty, allDigits, ?_⟩
    cases readEq : readDigits 10 max 0 text with
    | error error =>
        rw [readEq] at read
        cases read
    | ok found =>
        rw [readEq] at read
        cases read
        exact ofDigitChars_of_readDigits allDigits readEq

/-- Cutting at the last mark takes the text apart there. -/
theorem eq_of_splitLast? {α : Type} [DecidableEq α] {mark : α} {text front rest : List α}
    (cut : splitLast? mark text = some (front, rest)) :
    text = front ++ mark :: rest ∧ mark ∉ rest := by
  unfold splitLast? at cut
  simp only at cut
  split at cut
  · cases cut
  · rename_i found reversedFront dropped
    cases cut
    have isMark : found = mark := by
      have stops := List.head?_dropWhile_not (fun item => decide (item ≠ mark)) text.reverse
      rw [dropped] at stops
      simpa using stops
    subst isMark
    have whole :=
      @List.takeWhile_append_dropWhile _ (fun item => decide (item ≠ found)) text.reverse
    rw [dropped] at whole
    refine ⟨?_, ?_⟩
    · have turned := congrArg List.reverse whole
      simpa using turned.symm
    · intro member
      have kept := List.all_eq_true.mp
        (@List.all_takeWhile _ (fun item => decide (item ≠ found)) text.reverse) found
          (List.mem_reverse.mp member)
      simp at kept

end Text

namespace Assembler
namespace Equates

/-- A word means a text: that of the equate of its name, or else itself. -/
def Means (equates : Equates) (word text : Glyphs) : Prop :=
  equates[word]? = some text ∨ equates[word]? = none ∧ text = word

/-- A word names a general register: it means a dollar sign and the decimal digits of the
register. -/
def NamesRegister (equates : Equates) (word : Glyphs) (register : Register) : Prop :=
  ∃ digits : List Char, equates.Means word (Glyphs.ofChars ('$' :: digits)) ∧ digits ≠ [] ∧
    (∀ digit ∈ digits, digit.isDigit = true) ∧
    Nat.ofDigitChars 10 digits 0 = register.val ∧ register.val < 32

/-- A word names a number: it means an integer literal. -/
def NamesNumber (equates : Equates) (word : Glyphs) (number : Int) : Prop :=
  ∃ text, equates.Means word text ∧ Text.readInt 64 text.chars = .ok number

/-- A word names a number that an immediate is congruent to. -/
def NamesImmediate (equates : Equates) (word : Glyphs) (immediate : Int16) : Prop :=
  ∃ number, equates.NamesNumber word number ∧ (immediate.toInt - number) % 0x10000 = 0

theorem NamesRegister.general {equates : Equates} {word : Glyphs} {register : Register}
    (names : equates.NamesRegister word register) : register.val < 32 := by
  obtain ⟨-, -, -, -, -, general⟩ := names
  exact general

theorem means_resolve (equates : Equates) (word : Glyphs) :
    equates.Means word (equates.resolve word) := by
  unfold Means resolve
  cases equates[word]? with
  | none => exact .inr ⟨rfl, rfl⟩
  | some text => exact .inl rfl

theorem namesRegister_of_registerOf {equates : Equates} {word : Glyphs} {register : Register}
    (read : equates.registerOf word = .ok register) : equates.NamesRegister word register := by
  have means := means_resolve equates word
  unfold registerOf at read
  simp only at read
  split at read
  · rename_i digits written
    split at read
    · rename_i index decimal
      split at read
      · rename_i general
        cases read
        obtain ⟨nonempty, allDigits, value⟩ := Text.ofDigitChars_of_readDecimal? decimal
        have eachDigit := List.all_eq_true.mp allDigits
        have plain : Glyph.replacement ∉ Glyphs.chars digits := by
          intro member
          exact absurd (eachDigit _ member) (by decide)
        rw [written, Glyphs.eq_ofChars plain] at means
        exact ⟨Glyphs.chars digits, means, nonempty, eachDigit, value,
          Nat.lt_succ_of_le general⟩
      · cases read
    · cases read
  · cases read

theorem namesNumber_of_valueOf {equates : Equates} {word : Glyphs} {value : Word}
    (read : equates.valueOf word = .ok value) :
    ∃ number, equates.NamesNumber word number ∧ value = UInt32.ofInt number := by
  unfold valueOf at read
  simp only at read
  split at read
  · rename_i number literal
    split at read
    · cases read
      exact ⟨number, ⟨equates.resolve word, means_resolve equates word, literal⟩, rfl⟩
    · cases read
  · cases read

theorem namesImmediate_of_immediateOf {equates : Equates} {word : Glyphs} {immediate : Int16}
    (read : equates.immediateOf word = .ok immediate) : equates.NamesImmediate word immediate := by
  unfold immediateOf at read
  split at read
  · cases read
  · rename_i value isValue
    obtain ⟨number, names, valueEq⟩ := namesNumber_of_valueOf isValue
    simp only at read
    split at read
    · cases read
      refine ⟨number, names, ?_⟩
      rw [Int16.toInt_ofInt, valueEq, UInt32.ofInt, UInt32.toInt32_ofNat', Int32.toInt_ofNat']
      simp only [Int.bmod_def, Int16.size, Int32.size]
      omega
    · cases read

end Equates

/-- A place is an offset and a base in parentheses. -/
theorem eq_of_indexed? {word offset base : Glyphs} (cut : indexed? word = some (offset, base)) :
    word = offset ++ .char '(' :: base ++ [.char ')'] ∧ .char '(' ∉ base := by
  unfold indexed? at cut
  split at cut
  · rename_i reversed ends
    have whole : word = reversed.reverse ++ [.char ')'] := by
      rw [← List.reverse_reverse word, ends, List.reverse_cons]
    split at cut
    · rename_i front rest split
      split at cut
      · cases cut
        obtain ⟨joined, absent⟩ := Text.eq_of_splitLast? split
        rw [whole, joined]
        exact ⟨rfl, absent⟩
      · cases cut
    · cases cut
  · cases cut

end Assembler

namespace Instruction

def operandTexts (op : Op) (s t d : Register) (immediate : Int16) : List String :=
  match op with
  | .add | .sub | .slt | .sltu => [registerText d, registerText s, registerText t]
  | .mult | .multu | .div | .divu => [registerText s, registerText t]
  | .beq | .bne => [registerText s, registerText t, toString immediate.toInt]
  | .lw | .sw => [registerText t, Assembler.placeText immediate.toInt s]
  | .mfhi | .mflo | .lis => [registerText d]
  | .jr | .jalr => [registerText s]
  | .word | .other _ => []

/-- The fields of an encoded instruction are the operands that it has. -/
theorem fields_encode {op : Op} (known : op ∈ Op.table) (isInstruction : op ≠ .word)
    {s t d : Register} (sGeneral : s.val < 32) (tGeneral : t.val < 32) (dGeneral : d.val < 32)
    (immediate : Int16) :
    let word := op.encode s.val t.val d.val immediate
    (op ∈ Op.withS → word.regS = s) ∧ (op ∈ Op.withT → word.regT = t) ∧
      (op ∉ Op.withImmediate → op ∈ Op.withD → word.regD = d) ∧
      (op ∈ Op.withImmediate → word.immediate = immediate) := by
  intro word
  have carries :=
    carries_decode_encode known isInstruction s.val t.val d.val immediate .zero
  rw [decode_eq] at carries
  have same {field : Register} {operand : Register} (general : operand.val < 32)
      (fieldEq : (field.val : Int) = operand.val % 32) : field = operand := by
    apply Fin.ext
    omega
  refine ⟨?_, ?_, ?_, carries.immediate_eq⟩
  · intro uses
    have fieldEq := carries.s_eq
    rw [if_pos uses] at fieldEq
    exact same sGeneral fieldEq
  · intro uses
    have fieldEq := carries.t_eq
    rw [if_pos uses] at fieldEq
    exact same tGeneral fieldEq
  · intro noImmediate uses
    have fieldEq := carries.d_eq noImmediate
    rw [if_pos uses] at fieldEq
    exact same dGeneral fieldEq

/-- A word is an instruction with an operation, written with some operands. -/
structure WrittenWith (word : Word) (op : Op) (operands : List String) : Prop where
  op_eq : ∀ address, (decode word address).op = op
  text_eq : ∀ address,
    (decode word address).text = op.name ++ " " ++ ", ".intercalate operands

theorem writtenWith_of_operands {word : Word} {op : Op} {operands : List String}
    (known : op ∈ Op.table) (opEq : word.op = op)
    (operandsEq : ∀ address, (Instruction.mk op word address).operands = operands) :
    WrittenWith word op operands := by
  subst opEq
  refine ⟨op_decode word, fun address => ?_⟩
  rw [← operandsEq address, decode_eq]
  exact Instruction.text_eq known

/-- Decoding what was encoded gives back what is written. -/
theorem writtenWith_encode {op : Op} (known : op ∈ Op.table) (isInstruction : op ≠ .word)
    {s t d : Register} (sGeneral : s.val < 32) (tGeneral : t.val < 32) (dGeneral : d.val < 32)
    (immediate : Int16) :
    WrittenWith (op.encode s.val t.val d.val immediate) op (operandTexts op s t d immediate) := by
  obtain ⟨sEq, tEq, dEq, immediateEq⟩ :=
    fields_encode known isInstruction sGeneral tGeneral dGeneral immediate
  apply writtenWith_of_operands known (Op.op_encode known isInstruction _ _ _ _)
  intro address
  cases op
  case word => exact absurd rfl isInstruction
  case other => simp [Op.table] at known
  case add | sub | slt | sltu =>
    simp only [operands, operandTexts, sEq (by decide), tEq (by decide),
      dEq (by decide) (by decide)]
  case mult | multu | div | divu =>
    simp only [operands, operandTexts, sEq (by decide), tEq (by decide)]
  case mfhi | mflo | lis => simp only [operands, operandTexts, dEq (by decide) (by decide)]
  case jr | jalr => simp only [operands, operandTexts, sEq (by decide)]
  case beq | bne | lw | sw =>
    simp only [operands, operandTexts, sEq (by decide), tEq (by decide), immediateEq (by decide)]

end Instruction
end ReversibleMips
