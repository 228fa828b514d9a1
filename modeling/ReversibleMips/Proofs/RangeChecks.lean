import ReversibleMips.Proofs.ExpressionLines

/-!
# Numbers as data, plain and in expressions

A decimal number can be written as data by itself or as an expression.  By itself it has to be
a signed or an unsigned number of thirty-two bits.  In an expression it has to be a signed
number of sixty-four bits, of which only the lower half is kept.  So every number that is
accepted by itself is accepted in an expression too, with the same word, but not the other way.
-/

namespace ReversibleMips

namespace Decimal

open Expression

def formula (numeral : Decimal) : Formula :=
  if numeral.negative then .signed .negative (.literal numeral.magnitude)
  else .literal numeral.magnitude

theorem proper_formula (numeral : Decimal) : numeral.formula.Proper := by
  rw [formula]
  split
  · exact ⟨(by decide : Sign.negative.op.level < 12), trivial⟩
  · exact trivial

theorem names_formula (numeral : Decimal) : numeral.formula.names = [] := by
  rw [formula]
  split
  · rfl
  · rfl

theorem exact_formula (numeral : Decimal) (values : String → Int) :
    numeral.formula.exact values = numeral.value := by
  rw [formula, value]
  split
  · rfl
  · rfl

theorem spells_formula (numeral : Decimal) : Spells numeral.formula numeral.text.toList := by
  have digits : Spells (.literal numeral.magnitude) (Nat.toDigits 10 numeral.magnitude) := by
    have spelled := @Spells.decimal (Nat.toDigits 10 numeral.magnitude) Nat.toDigits_ne_nil
      (List.all_eq_true.mpr fun char member =>
        Nat.isDigit_of_mem_toDigits (by omega) (by omega) member) ?_
    · rw [Text.positional_toDigits _ (by decide) (by decide)] at spelled
      exact spelled
    · intro zero
      by_cases positive : 0 < numeral.magnitude
      · exact absurd zero (Text.head?_toDigits_ne_zero positive)
      · rw [Nat.eq_zero_of_not_pos positive, Nat.toDigits_zero]
        rfl
  rw [toList_text, formula]
  split
  · exact .signed .negative digits
  · exact digits

/-- The number of glyphs of a number of sixty-four bits. -/
theorem length_text {numeral : Decimal} (fits : Assembler.FitsLong numeral.value) :
    (Glyphs.ofString numeral.text).length ≤ 20 := by
  have small : numeral.magnitude < 10 ^ 19 := by
    rw [Assembler.FitsLong, value] at fits
    split at fits <;> omega
  have digits : (Nat.toDigits 10 numeral.magnitude).length ≤ 19 :=
    (Nat.length_toDigits_le_iff (by omega) (by omega)).mpr small
  rw [Glyphs.ofString, Glyphs.ofChars, List.length_map, toList_text, List.length_append]
  split <;> simp only [List.length_cons, List.length_nil] <;> omega

end Decimal

namespace Assembler

def numberLine (numeral : Decimal) : Glyphs := Glyphs.ofString (".word " ++ numeral.text)

theorem numberLine_eq (numeral : Decimal) :
    numberLine numeral = bareLine datumMnemonic [Glyphs.ofString numeral.text] := by
  rw [numberLine, Glyphs.ofString_append, bareLine, List.intercalate_singleton]
  rfl

theorem readLine_number {assembly : Assembly} (numberless : assembly.equates.Numberless)
    (lineNo : Nat) (numeral : Decimal) :
    assembly.readLine lineNo (statementText (numberLine numeral).dropCarriageReturn) =
      if FitsWord numeral.value then (assembly.withDatum lineNo numeral, none)
      else (assembly.beginLine lineNo, some (.notNumber numeral.text)) := by
  have written := bareWords_numeral numeral
  rw [numberLine_eq, dropCarriageReturn_bareLine _ (List.cons_ne_nil _ _) written,
    statementText_bareLine bareWord_datumMnemonic (List.cons_ne_nil _ _) written]
  exact Assembly.readLine_numeral numberless (wordsOf_bareLine _ bareWord_datumMnemonic written)

section Short

variable {numeral : Decimal} (fits : FitsLong numeral.value)
include fits

theorem byteLength_numberLine : (numberLine numeral).byteLength < Assembly.maxLineBytes := by
  have bytes := Glyphs.byteLength_le (numberLine numeral)
  have digits := numeral.length_text fits
  have front : (Glyphs.ofString ".word ").length = 6 := by decide
  have length : (numberLine numeral).length = 6 + (Glyphs.ofString numeral.text).length := by
    rw [numberLine, Glyphs.ofString_append, List.length_append, front]
  unfold Assembly.maxLineBytes
  omega

theorem byteLength_expressionLine :
    (expressionLine numeral.text).byteLength < Assembly.maxLineBytes := by
  have bytes := Glyphs.byteLength_le (expressionLine numeral.text)
  have digits := numeral.length_text fits
  rw [length_expressionLine] at bytes
  unfold Assembly.maxLineBytes
  omega

end Short

theorem fitsLong_of_fitsWord {number : Int} (fits : FitsWord number) : FitsLong number := by
  obtain ⟨least, greatest⟩ := fits
  constructor <;> omega

section OneMore

variable {predefined : Definitions} {earlier : Glyphs}
    (assembles : (assemble predefined earlier).2 = none)
    (numberless : (assemble predefined earlier).1.equates.Numberless) {numeral : Decimal}
include assembles numberless

theorem assemble_snoc_number {plain : Glyphs}
    (lines : plain.lines = earlier.lines ++ [numberLine numeral]) :
    ((assemble predefined plain).2 = none ↔ FitsWord numeral.value) ∧
      (FitsWord numeral.value →
        (assemble predefined plain).1.opcodes.toList.map Opcode.code =
          (assemble predefined earlier).1.opcodes.toList.map Opcode.code ++
            [UInt32.ofInt numeral.value]) := by
  rw [equates_assemble assembles] at numberless
  have read := readLine_number numberless (earlier.lines.length + 1) numeral
  by_cases fits : FitsWord numeral.value
  · rw [if_pos fits] at read
    have short := byteLength_numberLine (fitsLong_of_fitsWord fits)
    obtain ⟨sound, codes⟩ := assemble_snoc_datum assembles lines short read
    exact ⟨iff_of_true sound fits, fun _ => codes⟩
  · rw [if_neg fits] at read
    have wrong := assemble_snoc_fault assembles lines fun _ => by
      rw [read]
      exact Option.some_ne_none _
    exact ⟨iff_of_false wrong fits, fun fits' => absurd fits' fits⟩

theorem assemble_snoc_computed {computed : Glyphs}
    (lines : computed.lines = earlier.lines ++ [expressionLine numeral.text]) :
    ((assemble predefined computed).2 = none ↔ FitsLong numeral.value) ∧
      (FitsLong numeral.value →
        (assemble predefined computed).1.opcodes.toList.map Opcode.code =
          (assemble predefined earlier).1.opcodes.toList.map Opcode.code ++
            [UInt32.ofInt numeral.value]) := by
  have nameless : ∀ name ∈ numeral.formula.names,
      ((assemble predefined earlier).1.beginLine (earlier.lines.length + 1)).equates.number? name =
        some 0 := by
    rw [numeral.names_formula]
    exact fun _ member => nomatch member
  have value := numeral.exact_formula fun _ => 0
  by_cases fits : FitsLong numeral.value
  · have assembled := assemble_snoc_formula assembles numberless numeral.spells_formula
      numeral.proper_formula nameless lines (by rwa [value]) (byteLength_expressionLine fits)
    rw [value] at assembled
    exact ⟨iff_of_true assembled.1 fits, fun _ => assembled.2⟩
  · have wrong := assemble_snoc_formula_fault assembles numberless numeral.spells_formula
      numeral.proper_formula nameless lines (by rwa [value])
    exact ⟨iff_of_false wrong fits, fun fits' => absurd fits' fits⟩

end OneMore

/-- By itself, a number is accepted exactly if it has thirty-two bits, signed or unsigned, and in
an expression exactly if it has sixty-four bits.  Either way its word is the same. -/
theorem number_ranges {predefined : Definitions} {earlier plain computed : Glyphs}
    (assembles : (assemble predefined earlier).2 = none)
    (numberless : (assemble predefined earlier).1.equates.Numberless) {numeral : Decimal}
    (plainLines : plain.lines = earlier.lines ++ [numberLine numeral])
    (computedLines : computed.lines = earlier.lines ++ [expressionLine numeral.text]) :
    ((assemble predefined plain).2 = none ↔ FitsWord numeral.value) ∧
      ((assemble predefined computed).2 = none ↔ FitsLong numeral.value) ∧
      ((assemble predefined plain).2 = none →
        (assemble predefined computed).2 = none ∧
          (assemble predefined plain).1.opcodes.toList.map Opcode.code =
            (assemble predefined computed).1.opcodes.toList.map Opcode.code) ∧
      ((assemble predefined computed).2 = none →
        (assemble predefined computed).1.opcodes.toList.map Opcode.code =
          (assemble predefined earlier).1.opcodes.toList.map Opcode.code ++
            [UInt32.ofInt numeral.value]) := by
  obtain ⟨plainFits, plainCodes⟩ := assemble_snoc_number assembles numberless plainLines
  obtain ⟨computedFits, computedCodes⟩ := assemble_snoc_computed assembles numberless computedLines
  refine ⟨plainFits, computedFits, ?_, fun sound => computedCodes (computedFits.mp sound)⟩
  intro sound
  have fits := plainFits.mp sound
  have long := fitsLong_of_fitsWord fits
  exact ⟨computedFits.mpr long, (plainCodes fits).trans (computedCodes long).symm⟩

def leastNumber : Decimal := ⟨true, 0x80000000⟩

theorem number_ranges_leastNumber :
    (assemble [] (numberLine leastNumber)).2 = none ∧
      (assemble [] (numberLine leastNumber)).1.opcodes.toList.map Opcode.code =
        (assemble [] (expressionLine leastNumber.text)).1.opcodes.toList.map Opcode.code := by
  have empty : (assemble [] []).2 = none := by decide +kernel
  have plainLines : (numberLine leastNumber).lines =
      Glyphs.lines [] ++ [numberLine leastNumber] := by decide +kernel
  have computedLines : (expressionLine leastNumber.text).lines =
      Glyphs.lines [] ++ [expressionLine leastNumber.text] := by decide +kernel
  have ranges := number_ranges empty Assembly.named_start.numberless plainLines computedLines
  have sound := ranges.1.mpr (by decide)
  exact ⟨sound, (ranges.2.2.1 sound).2⟩

/-- A number of more than thirty-two bits is accepted in an expression only. -/
theorem wide_number_accepted :
    (assemble [] (numberLine ⟨false, 0x100000000⟩)).2 ≠ none ∧
      (assemble [] (expressionLine (Decimal.mk false 0x100000000).text)).2 = none := by
  decide +kernel

end Assembler
end ReversibleMips
