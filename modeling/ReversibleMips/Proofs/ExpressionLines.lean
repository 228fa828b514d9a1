import ReversibleMips.Proofs.DataLines
import ReversibleMips.Proofs.FormulaTrees

/-!
# Expressions as data

A line of data whose number is a formula.  The formula is evaluated in integers without bounds,
its value is cut down to a word, the word is written as a signed decimal number in place of the
expression, and the line is read on as if that number had been written.  Only a value that is
no integer of sixty-four bits makes the line wrong.
-/

namespace ReversibleMips
namespace Assembler

open Expression

/-- An integer of sixty-four bits, signed. -/
def FitsLong (number : Int) : Prop := -0x8000000000000000 ≤ number ∧ number < 0x8000000000000000

instance (number : Int) : Decidable (FitsLong number) := inferInstanceAs (Decidable (_ ∧ _))

/-- A name is an equate for an integer literal that stands for a word. -/
def Equates.Binds (equates : Equates) (name : String) (word : Word) : Prop :=
  ∃ text value, equates[Glyphs.ofString name]? = some text ∧
    Text.readInt 64 (Glyphs.chars text) = .ok value ∧ FitsWord value ∧ word = UInt32.ofInt value

/-- Formulas see the words of equates as signed numbers. -/
theorem Equates.Numberless.number?_eq {equates : Equates} (numberless : equates.Numberless)
    {name : String} {word : Word} (binds : equates.Binds name word) :
    equates.number? name = some word.toInt32.toInt := by
  obtain ⟨text, value, found, read, fits, rfl⟩ := binds
  have known : equates.valueOf text = .ok (UInt32.ofInt value) := by
    rw [Equates.valueOf, numberless.resolve_eq (.inr ⟨value, read⟩)]
    simp only [read]
    exact if_pos fits
  simp only [Equates.number?, found, known]

theorem Equates.evaluate_of_int {equates : Equates} {text : Glyphs} {value : Int}
    (assigned : assignedValue equates.number? text.chars = .ok (some (.int value))) :
    equates.evaluate text =
      if FitsLong value then .ok (UInt32.ofInt value) else .error (.notInteger text.shown) := by
  unfold evaluate
  rw [assigned]
  exact if_congr Iff.rfl rfl rfl

theorem Equates.evaluate_formula {equates : Equates} {formula : Formula} {text : String}
    {values : String → Int} (spells : Expression.Spells formula text.toList)
    (proper : formula.Proper)
    (bound : ∀ name ∈ formula.names, equates.number? name = some (values name)) :
    equates.evaluate (Glyphs.ofString text) =
      if FitsLong (formula.exact values) then .ok (UInt32.ofInt (formula.exact values))
      else .error (.notInteger text) := by
  have assigned := spells.assignedValue_eq proper bound
  rw [← Glyphs.chars_ofString text] at assigned
  rw [evaluate_of_int assigned, Glyphs.shown_ofString]

def expressionLine (text : String) : Glyphs := Glyphs.ofString (".word $(" ++ text ++ ")")

theorem expressionLine_eq (text : String) :
    expressionLine text = datumMnemonic ++ [.char ' '] ++
      .char '$' :: .char '(' :: (Glyphs.ofString text ++ [.char ')']) := by
  simp only [expressionLine, Glyphs.ofString_append, List.append_assoc]
  rfl

theorem length_expressionLine (text : String) :
    (expressionLine text).length = (Glyphs.ofString text).length + 9 := by
  have front : (Glyphs.ofString ".word $(").length = 8 := by decide
  have back : (Glyphs.ofString ")").length = 1 := by decide
  rw [expressionLine, Glyphs.ofString_append, Glyphs.ofString_append, List.length_append,
    List.length_append, front, back]
  omega

theorem getLast?_expressionLine (text : String) :
    (expressionLine text).getLast? = some (.char ')') := by
  rw [expressionLine, Glyphs.ofString_append, List.getLast?_append]
  rfl

theorem dropCarriageReturn_expressionLine (text : String) :
    (expressionLine text).dropCarriageReturn = expressionLine text := by
  rw [Glyphs.dropCarriageReturn, getLast?_expressionLine, if_neg (by decide)]

section Formula

variable {formula : Formula} {text : String} (spells : Expression.Spells formula text.toList)
    (proper : formula.Proper)
include spells proper

theorem notMem_ofString_formula {char : Char} (symbol : isSymbol char = true)
    (other : char ∉ "+-*&|^~() \t".toList) : .char char ∉ Glyphs.ofString text := by
  intro member
  obtain ⟨written, inside, same⟩ := List.mem_map.mp member
  cases same
  exact spells.notMem proper symbol other inside

theorem notMem_expressionLine {char : Char} (symbol : isSymbol char = true)
    (other : char ∉ "+-*&|^~() \t".toList) (apart : .char char ∉ expressionLine "") :
    .char char ∉ expressionLine text := by
  have absent := notMem_ofString_formula spells proper symbol other
  simp only [expressionLine, Glyphs.ofString_append, List.mem_append, not_or] at apart ⊢
  exact ⟨⟨apart.1.1, absent⟩, apart.2⟩

theorem statementText_expressionLine :
    statementText (expressionLine text).dropCarriageReturn = expressionLine text := by
  have noSemicolon : .char ';' ∉ expressionLine text :=
    notMem_expressionLine spells proper (by decide) (by decide) (by decide)
  have noHash : .char '#' ∉ expressionLine text :=
    notMem_expressionLine spells proper (by decide) (by decide) (by decide)
  rw [dropCarriageReturn_expressionLine, statementText, Text.before_of_notMem noSemicolon,
    Text.before_of_notMem noHash]
  apply Text.trimBoth_eq_self
  · intro glyph starts
    rw [expressionLine_eq] at starts
    cases starts
    decide
  · intro glyph ends
    obtain rfl := Option.some.inj ((getLast?_expressionLine text).symm.trans ends)
    decide

theorem lines_expressionLine : (expressionLine text).lines = [expressionLine text] := by
  have noNewline : .char '\n' ∉ expressionLine text :=
    notMem_expressionLine spells proper (by decide) (by decide) (by decide)
  have nonempty : expressionLine text ≠ [] := by
    rw [expressionLine_eq]
    exact List.append_ne_nil_of_right_ne_nil _ (List.cons_ne_nil _ _)
  have single : Text.splitBefore (.char '\n') ([.char '\n'].intercalate [expressionLine text]) =
      [expressionLine text] :=
    Text.splitBefore_intercalate (by simpa using noNewline) (by simpa using nonempty)
  rw [List.intercalate_singleton] at single
  exact single

/-- The expression of a line is all that the line's words depend on. -/
theorem wordsOf_expressionLine (equates : Equates) :
    equates.wordsOf (expressionLine text) =
      (equates.evaluate (Glyphs.ofString text)).map fun word =>
        [datumMnemonic, Glyphs.ofString (Decimal.ofInt word.toInt32.toInt).text] := by
  have noQuote : quote ∉ expressionLine text :=
    notMem_expressionLine spells proper (by decide) (by decide) (by decide)
  have noDollar : .char '$' ∉ .char '(' :: (Glyphs.ofString text ++ [Glyph.char ')']) := by
    have inside : .char '$' ∉ Glyphs.ofString text :=
      notMem_ofString_formula spells proper (by decide) (by decide)
    simp [inside]
  have split : Text.splitOn (.char '$') (expressionLine text) =
      [datumMnemonic ++ [.char ' '], .char '(' :: (Glyphs.ofString text ++ [.char ')'])] := by
    rw [expressionLine_eq, Text.splitOn_append_mark (by decide), Text.splitOn_of_notMem noDollar]
  have inside : expressionIn? (.char '(' :: (Glyphs.ofString text ++ [.char ')'])) =
      some (Glyphs.ofString text, []) :=
    Text.splitLast?_append_mark _ List.not_mem_nil
  rw [Equates.wordsOf, expandCharacters_eq_self noQuote, Equates.expandExpressions, split]
  simp only [List.map_cons, List.map_nil, Equates.expandPiece, inside]
  cases equates.evaluate (Glyphs.ofString text) with
  | error fault =>
      simp only [Except.map, joinPieces]
      cases fault.isFinal <;> rfl
  | ok word =>
      have written := Decimal.bareWord_text (Decimal.ofInt word.toInt32.toInt)
      have words : lineWords (datumMnemonic ++ [.char ' '] ++ numberText word.toInt32.toInt) =
          [datumMnemonic, Glyphs.ofString (Decimal.ofInt word.toInt32.toInt).text] := by
        rw [numberText, ← Decimal.text_ofInt, List.append_assoc, List.singleton_append,
          bareWord_datumMnemonic.lineWords_append (.inl rfl), written.lineWords_eq]
      simp only [Except.map, joinPieces, List.append_nil, words]

end Formula

theorem fitsWord_signed (word : Word) : FitsWord word.toInt32.toInt := by
  have bounded := word.toNat_lt
  rw [FitsWord, Word.toInt_toInt32]
  split <;> omega

theorem ofInt_signed (word : Word) : UInt32.ofInt word.toInt32.toInt = word := by
  have bounded := word.toNat_lt
  have wrapped := Word.toNat_ofInt word.toInt32.toInt
  have signed := Word.toInt_toInt32 word
  rw [← UInt32.toNat_inj]
  split at signed <;> omega

namespace Assembly

/-- A line with a formula is read as the signed number of its word. -/
theorem readLine_formula {assembly : Assembly} (numberless : assembly.equates.Numberless)
    {formula : Formula} {text : String} {values : String → Int} {lineNo : Nat}
    (spells : Expression.Spells formula text.toList) (proper : formula.Proper)
    (bound : ∀ name ∈ formula.names,
      (assembly.beginLine lineNo).equates.number? name = some (values name)) :
    assembly.readLine lineNo (statementText (expressionLine text).dropCarriageReturn) =
      if FitsLong (formula.exact values) then
        (assembly.withDatum lineNo
          (Decimal.ofInt (UInt32.ofInt (formula.exact values)).toInt32.toInt), none)
      else (assembly.beginLine lineNo, some (.notInteger text)) := by
  have words := wordsOf_expressionLine spells proper (assembly.beginLine lineNo).equates
  rw [Equates.evaluate_formula spells proper bound] at words
  rw [statementText_expressionLine spells proper]
  by_cases fits : FitsLong (formula.exact values)
  · rw [if_pos fits] at words ⊢
    rw [readLine_numeral numberless words, if_pos]
    rw [Decimal.value_ofInt]
    exact fitsWord_signed _
  · rw [if_neg fits] at words ⊢
    simp only [readLine, words, Except.map]

end Assembly

section OneMore

variable {predefined : Definitions} {earlier source : Glyphs}
    (assembles : (assemble predefined earlier).2 = none)
    (numberless : (assemble predefined earlier).1.equates.Numberless)
    {formula : Formula} {text : String} {values : String → Int}
    (spells : Expression.Spells formula text.toList) (proper : formula.Proper)
    (bound : ∀ name ∈ formula.names,
      ((assemble predefined earlier).1.beginLine (earlier.lines.length + 1)).equates.number? name =
        some (values name))
include assembles numberless spells proper bound

theorem readLine_snoc_formula :
    (firstPass predefined earlier).1.readLine (earlier.lines.length + 1)
        (statementText (expressionLine text).dropCarriageReturn) =
      if FitsLong (formula.exact values) then
        ((firstPass predefined earlier).1.withDatum (earlier.lines.length + 1)
          (Decimal.ofInt (UInt32.ofInt (formula.exact values)).toInt32.toInt), none)
      else
        ((firstPass predefined earlier).1.beginLine (earlier.lines.length + 1),
          some (.notInteger text)) := by
  rw [Assembly.equates_beginLine, equates_assemble assembles, ← Assembly.equates_beginLine] at bound
  rw [equates_assemble assembles] at numberless
  exact Assembly.readLine_formula numberless spells proper bound

/-- One more line with a formula comes behind the words of a source as the word of its value. -/
theorem assemble_snoc_formula (lines : source.lines = earlier.lines ++ [expressionLine text])
    (fits : FitsLong (formula.exact values))
    (short : (expressionLine text).byteLength < Assembly.maxLineBytes) :
    (assemble predefined source).2 = none ∧
      (assemble predefined source).1.opcodes.toList.map Opcode.code =
        (assemble predefined earlier).1.opcodes.toList.map Opcode.code ++
          [UInt32.ofInt (formula.exact values)] := by
  have read := readLine_snoc_formula assembles numberless spells proper bound
  rw [if_pos fits] at read
  have assembled := assemble_snoc_datum assembles lines short read
  rw [Decimal.value_ofInt, ofInt_signed] at assembled
  exact assembled

theorem assemble_snoc_formula_fault
    (lines : source.lines = earlier.lines ++ [expressionLine text])
    (large : ¬ FitsLong (formula.exact values)) : (assemble predefined source).2 ≠ none := by
  have read := readLine_snoc_formula assembles numberless spells proper bound
  rw [if_neg large] at read
  apply assemble_snoc_fault assembles lines
  intro _
  rw [read]
  exact Option.some_ne_none _

end OneMore

end Assembler
end ReversibleMips
