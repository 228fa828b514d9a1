import ReversibleMips.Proofs.ExpressionLines

/-!
# Expressions in words

The value of an expression is cut down to a word only in the end, and its equates come in as
signed numbers.  Nothing is lost by that: every operator of a formula gives the same lower bits
on integers without bounds as on words, so the word of the exact value is the value in words.
-/

namespace ReversibleMips

theorem Glyphs.length_le_byteLength (text : Glyphs) : text.length ≤ text.byteLength := by
  have behind (total : Nat) :
      total + text.length ≤ text.foldl (fun total glyph => total + glyph.byteLength) total := by
    induction text generalizing total with
    | nil => exact Nat.le_refl total
    | cons glyph text ih =>
        have some : 1 ≤ glyph.byteLength := by
          cases glyph with
          | char value => exact Char.utf8Size_pos value
          | stray byte => exact Nat.le_refl 1
        have rest := ih (total + glyph.byteLength)
        rw [List.foldl_cons, List.length_cons]
        omega
  simpa [byteLength] using behind 0

namespace Expression

section Bits

variable {width : Nat}

theorem ofNat_natWithout (left right : Nat) :
    BitVec.ofNat width (natWithout left right) =
      BitVec.ofNat width left &&& ~~~BitVec.ofNat width right := by
  ext place inside
  simp only [natWithout, BitVec.ofNat_xor, BitVec.ofNat_and, BitVec.getElem_xor,
    BitVec.getElem_and, BitVec.getElem_not]
  cases (BitVec.ofNat width left)[place] with
  | false => rfl
  | true => exact Bool.true_xor _

theorem ofInt_ofNat (value : Nat) :
    BitVec.ofInt width (.ofNat value) = BitVec.ofNat width value :=
  BitVec.ofInt_natCast width value

theorem ofInt_intAnd (left right : Int) :
    BitVec.ofInt width (intAnd left right) =
      BitVec.ofInt width left &&& BitVec.ofInt width right := by
  cases left <;> cases right <;>
    simp only [intAnd, ofInt_ofNat, BitVec.ofInt_negSucc_eq_not_ofNat, BitVec.ofNat_and,
      BitVec.ofNat_or, ofNat_natWithout, BitVec.not_or, BitVec.and_comm]

theorem ofInt_intOr (left right : Int) :
    BitVec.ofInt width (intOr left right) =
      BitVec.ofInt width left ||| BitVec.ofInt width right := by
  cases left <;> cases right <;>
    simp only [intOr, ofInt_ofNat, BitVec.ofInt_negSucc_eq_not_ofNat, BitVec.ofNat_and,
      BitVec.ofNat_or, ofNat_natWithout, BitVec.not_and, BitVec.not_not, BitVec.or_comm]

theorem ofInt_intXor (left right : Int) :
    BitVec.ofInt width (intXor left right) =
      BitVec.ofInt width left ^^^ BitVec.ofInt width right := by
  cases left <;> cases right <;>
    simp only [intXor, ofInt_ofNat, BitVec.ofInt_negSucc_eq_not_ofNat, BitVec.ofNat_xor,
      ← BitVec.not_xor_left, ← BitVec.not_xor_right, BitVec.not_not]

end Bits

theorem toBitVec_ofInt (value : Int) : (UInt32.ofInt value).toBitVec = BitVec.ofInt 32 value := by
  apply BitVec.eq_of_toNat_eq
  have wrapped := Word.toNat_ofInt value
  rw [BitVec.toNat_ofInt]
  change (UInt32.ofInt value).toNat = _
  omega

theorem ofInt_sub (left right : Int) :
    UInt32.ofInt (left - right) = UInt32.ofInt left - UInt32.ofInt right := by
  rw [Int.sub_eq_add_neg, UInt32.ofInt_add, UInt32.ofInt_neg, ← UInt32.sub_eq_add_neg]

theorem Sign.ofInt_exact (sign : Sign) (value : Int) :
    UInt32.ofInt (sign.exact value) = sign.wrapped (UInt32.ofInt value) := by
  cases sign with
  | positive => rfl
  | negative => exact UInt32.ofInt_neg value
  | complement =>
      rw [exact, intComplement, ofInt_sub, UInt32.ofInt_neg, UInt32.ofInt_one, wrapped,
        UInt32.not_eq_neg_sub]

theorem Operator.ofInt_exact (operator : Operator) (left right : Int) :
    UInt32.ofInt (operator.exact left right) =
      operator.wrapped (UInt32.ofInt left) (UInt32.ofInt right) := by
  cases operator with
  | add => exact UInt32.ofInt_add left right
  | sub => exact ofInt_sub left right
  | mul => exact UInt32.ofInt_mul left right
  | bitAnd =>
      apply UInt32.toBitVec_inj.mp
      rw [exact, wrapped, UInt32.toBitVec_and, toBitVec_ofInt, toBitVec_ofInt, toBitVec_ofInt,
        ofInt_intAnd]
  | bitOr =>
      apply UInt32.toBitVec_inj.mp
      rw [exact, wrapped, UInt32.toBitVec_or, toBitVec_ofInt, toBitVec_ofInt, toBitVec_ofInt,
        ofInt_intOr]
  | bitXor =>
      apply UInt32.toBitVec_inj.mp
      rw [exact, wrapped, UInt32.toBitVec_xor, toBitVec_ofInt, toBitVec_ofInt, toBitVec_ofInt,
        ofInt_intXor]

/-- The word of a formula's exact value is the formula's value in words. -/
theorem Formula.ofInt_exact {values : String → Int} {words : String → Word} (formula : Formula)
    (same : ∀ name ∈ formula.names, UInt32.ofInt (values name) = words name) :
    UInt32.ofInt (formula.exact values) = formula.wrapped words := by
  induction formula with
  | literal value =>
      apply UInt32.toBitVec_inj.mp
      rw [exact, toBitVec_ofInt, BitVec.ofInt_natCast]
      rfl
  | equate name => exact same name List.mem_cons_self
  | group body ih => exact ih same
  | signed sign operand ih => rw [exact, wrapped, sign.ofInt_exact, ih same]
  | joined operator left right leftIH rightIH =>
      rw [exact, wrapped, operator.ofInt_exact,
        leftIH fun name member => same name (List.mem_append_left _ member),
        rightIH fun name member => same name (List.mem_append_right _ member)]

end Expression

namespace Assembler

open Expression

/-- A line of data with an expression assembles to the value of the expression in words, exactly
if the line is not too long. -/
theorem expressions_wrap_to_words {predefined : Definitions} {earlier source : Glyphs}
    (assembles : (assemble predefined earlier).2 = none)
    (numberless : (assemble predefined earlier).1.equates.Numberless)
    {formula : Formula} {text : String} {words : String → Word}
    (spells : Expression.Spells formula text.toList) (proper : formula.Proper)
    (bound : ∀ name ∈ formula.names,
      ((assemble predefined earlier).1.beginLine (earlier.lines.length + 1)).equates.Binds name
        (words name))
    (fits : FitsLong (formula.exact fun name => (words name).toInt32.toInt))
    (lines : source.lines = earlier.lines ++ [expressionLine text]) :
    ((expressionLine text).byteLength < Assembly.maxLineBytes →
      (assemble predefined source).2 = none ∧
        (assemble predefined source).1.opcodes.toList.map Opcode.code =
          (assemble predefined earlier).1.opcodes.toList.map Opcode.code ++
            [formula.wrapped words]) ∧
      (Assembly.maxLineBytes ≤ (expressionLine text).byteLength →
        ∃ previous, (assemble predefined source).2 =
          some ⟨earlier.lines.length, previous, .lineTooLong⟩) := by
  constructor
  · intro short
    have begun := numberless.insert_lineNumber
      (Glyphs.ofString (toString (earlier.lines.length + 1)))
    rw [← Assembly.equates_beginLine] at begun
    have wraps : UInt32.ofInt (formula.exact fun name => (words name).toInt32.toInt) =
        formula.wrapped words :=
      formula.ofInt_exact fun name _ => ofInt_signed (words name)
    rw [← wraps]
    exact assemble_snoc_formula assembles numberless spells proper
      (fun name member => begun.number?_eq (bound name member)) lines fits short
  · exact assemble_snoc_long assembles lines

/-- A formula that multiplies the address of the input, which is negative as a signed number. -/
def inputFormula : Formula :=
  .joined .sub
    (.signed .complement (.group (.joined .mul (.equate "STDIN") (.literal 0x10001))))
    (.equate "LINENO")

def inputWords (name : String) : Word := if name = "STDIN" then 0xffff0004 else 1

theorem spells_inputFormula :
    Expression.Spells inputFormula "~(STDIN *0x10001) - LINENO".toList := by
  have blank : Token.separates ' ' = true := by decide
  have factor : Expression.Spells (.literal 0x10001) ['0', 'x', '1', '0', '0', '0', '1'] :=
    @Expression.Spells.hex 'x' ['1', '0', '0', '0', '1'] (.inl rfl) (by decide) (by decide)
  have product := Expression.Spells.joined .mul (.blankBehind blank (.equate "STDIN")) factor
  have whole := Expression.Spells.joined .sub
    (.blankBehind blank (.signed .complement (.group product)))
    (.blankBefore blank (.equate "LINENO"))
  exact whole

theorem expressions_wrap_to_words_inputAddress :
    (assemble [] (expressionLine "~(STDIN *0x10001) - LINENO")).2 = none ∧
      (assemble [] (expressionLine "~(STDIN *0x10001) - LINENO")).1.opcodes.toList.map
        Opcode.code = [0xfffcfffa] := by
  have empty : (assemble [] []).2 = none := by decide +kernel
  have lines : (expressionLine "~(STDIN *0x10001) - LINENO").lines =
      Glyphs.lines [] ++ [expressionLine "~(STDIN *0x10001) - LINENO"] := by decide +kernel
  have bound : ∀ name ∈ inputFormula.names,
      ((assemble [] []).1.beginLine 1).equates.Binds name (inputWords name) := by
    intro name member
    simp only [inputFormula, Formula.names, List.mem_append, List.mem_singleton, List.not_mem_nil,
      or_false] at member
    rcases member with rfl | rfl
    · exact ⟨Glyphs.ofString "0xffff0004", 0xffff0004, by decide +kernel, by decide +kernel,
        by decide, by decide⟩
    · exact ⟨Glyphs.ofString "1", 1, by decide +kernel, by decide +kernel, by decide, by decide⟩
  have value : (assemble [] []).1.opcodes.toList.map Opcode.code ++
      [inputFormula.wrapped inputWords] = [0xfffcfffa] := by decide +kernel
  rw [← value]
  exact (expressions_wrap_to_words empty Assembly.named_start.numberless spells_inputFormula
    (by decide) bound (by decide +kernel) lines).1 (by decide +kernel)

def zeroSum : Nat → Formula
  | 0 => .literal 0
  | count + 1 => .joined .add (zeroSum count) (.literal 0)

def zeroText : Nat → String
  | 0 => "0"
  | count + 1 => zeroText count ++ "+0"

theorem zeroSum_eq (count : Nat) :
    Expression.Spells (zeroSum count) (zeroText count).toList ∧ (zeroSum count).Proper ∧
      (zeroSum count).names = [] ∧ (∀ values, (zeroSum count).exact values = 0) ∧
      (Glyphs.ofString (zeroText count)).length = 2 * count + 1 := by
  have zero : Expression.Spells (.literal 0) ['0'] :=
    @Expression.Spells.decimal ['0'] (by decide) (by decide) (by decide)
  induction count with
  | zero => exact ⟨zero, trivial, rfl, fun _ => rfl, rfl⟩
  | succ count ih =>
      obtain ⟨spells, proper, nameless, exact, length⟩ := ih
      refine ⟨?_, ⟨?_, by decide, proper, trivial⟩, ?_, ?_, ?_⟩
      · rw [zeroText, String.toList_append]
        exact .joined .add spells zero
      · cases count with
        | zero => decide
        | succ count => exact Nat.le_refl _
      · rw [zeroSum, Formula.names, nameless]
        rfl
      · intro values
        rw [zeroSum, Formula.exact, exact]
        rfl
      · rw [zeroText, Glyphs.ofString_append, List.length_append, length]
        rfl

theorem zeroSum_rejected {count : Nat} (many : Assembly.maxLineBytes ≤ 2 * count) :
    ∃ previous, (assemble [] (expressionLine (zeroText count))).2 =
      some ⟨0, previous, .lineTooLong⟩ := by
  obtain ⟨spells, proper, -, -, length⟩ := zeroSum_eq count
  have empty : (assemble [] []).2 = none := by decide +kernel
  have lines : (expressionLine (zeroText count)).lines =
      Glyphs.lines [] ++ [expressionLine (zeroText count)] :=
    lines_expressionLine spells proper
  apply assemble_snoc_long empty lines
  have bytes := Glyphs.length_le_byteLength (expressionLine (zeroText count))
  rw [length_expressionLine, length] at bytes
  omega

/-- A sum of many zeros has a value, but its line is too long. -/
theorem long_expression_rejected :
    Expression.Spells (zeroSum 40000) (zeroText 40000).toList ∧ (zeroSum 40000).Proper ∧
      (zeroSum 40000).names = [] ∧ (∀ values, (zeroSum 40000).exact values = 0) ∧
      ∃ previous, (assemble [] (expressionLine (zeroText 40000))).2 =
        some ⟨0, previous, .lineTooLong⟩ := by
  obtain ⟨spells, proper, nameless, exact, -⟩ := zeroSum_eq 40000
  exact ⟨spells, proper, nameless, exact, zeroSum_rejected (by decide)⟩

end Assembler
end ReversibleMips
