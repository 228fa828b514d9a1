import ReversibleMips.Proofs.DataLines
import ReversibleMips.Proofs.ReplacedOperands

/-!
# Texts in character literals

A text is written as data with one character literal on each line.  The numbers of its
characters come back, unless one of them starts a comment: a line is cut there before its
literals are looked at, and a lone quote is left, which is no number.
-/

namespace ReversibleMips
namespace Assembler

/-- A printable character of ASCII that stands for itself in a literal. -/
def IsSpelled (char : Char) : Prop :=
  0x20 ≤ char.toNat ∧ char.toNat ≤ 0x7e ∧ char ≠ '\'' ∧ char ≠ '\\'

instance (char : Char) : Decidable (IsSpelled char) := inferInstanceAs (Decidable (_ ∧ _))

def StartsComment (char : Char) : Prop := char = ';' ∨ char = '#'

instance (char : Char) : Decidable (StartsComment char) := inferInstanceAs (Decidable (_ ∨ _))

def literalLine (char : Char) : String := ".word '" ++ char.toString ++ "'"

def literalSource (chars : List Char) : Glyphs :=
  Glyphs.ofString ("\n".intercalate (chars.map literalLine))

theorem ofString_literalLine (char : Char) :
    Glyphs.ofString (literalLine char) =
      datumMnemonic ++ [.char ' ', quote, .char char, quote] := by
  simp only [literalLine, Glyphs.ofString_append, List.append_assoc]
  simp [Glyphs.ofString, Glyphs.ofChars, datumMnemonic, quote]

theorem notMem_literalLine {char : Char} {glyph : Glyph} (bare : isBareGlyph glyph = false)
    (noBlank : glyph ≠ .char ' ') (noQuote : glyph ≠ quote) (other : glyph ≠ .char char) :
    glyph ∉ Glyphs.ofString (literalLine char) := by
  rw [ofString_literalLine, List.mem_append, not_or]
  exact ⟨bareWord_datumMnemonic.notMem bare, by simp [noBlank, noQuote, other]⟩

section Literal

variable {char : Char} (spelled : IsSpelled char)
include spelled

theorem IsSpelled.plainLiteral_eq :
    plainLiteral (.char char) = Glyphs.ofString (Decimal.ofInt char.toNat).text := by
  obtain ⟨-, greatest, -, noBackslash⟩ := spelled
  have single : byteCode? (.char char) = some char.toNat := if_pos (by omega)
  have other : Glyph.char char ≠ backslash := by simpa [backslash] using noBackslash
  simp only [plainLiteral, single, other, if_false, numberText, Decimal.text_ofInt]

/-- A literal in a line of data stands for the number of its character. -/
theorem IsSpelled.expandCharacters_eq :
    expandCharacters (Glyphs.ofString (literalLine char)) =
      bareLine datumMnemonic [Glyphs.ofString (Decimal.ofInt char.toNat).text] := by
  have noQuote : Glyph.char char ≠ quote := by simpa [quote] using spelled.2.2.1
  have front : quote ∉ datumMnemonic ++ [Glyph.char ' '] := by decide
  have literal : expandCharacters [quote, .char char, quote] = plainLiteral (.char char) := by
    rw [quote, expandCharacters.eq_2]
    exact if_pos noQuote
  rw [ofString_literalLine, ← List.singleton_append, ← List.append_assoc,
    expandCharacters_append_of_notMem front, literal, spelled.plainLiteral_eq]
  simp [bareLine]

theorem IsSpelled.wordsOf_eq (equates : Equates) :
    equates.wordsOf (Glyphs.ofString (literalLine char)) =
      .ok [datumMnemonic, Glyphs.ofString (Decimal.ofInt char.toNat).text] := by
  have written := bareWords_numeral (Decimal.ofInt char.toNat)
  have noQuote := notMem_bareLine bareWord_datumMnemonic written
    (by decide : isBareGlyph quote = false) (by decide) (by decide)
  have words := wordsOf_bareLine equates bareWord_datumMnemonic written
  rw [Equates.wordsOf, expandCharacters_eq_self noQuote] at words
  rw [Equates.wordsOf, spelled.expandCharacters_eq, words]

theorem IsSpelled.newline_notMem : .char '\n' ∉ Glyphs.ofString (literalLine char) := by
  refine notMem_literalLine (by decide) (by decide) (by decide) ?_
  rintro ⟨⟩
  exact absurd spelled.1 (by decide)

theorem IsSpelled.fitsWord : FitsWord (Decimal.ofInt char.toNat).value := by
  have greatest := spelled.2.1
  rw [Decimal.value_ofInt]
  constructor <;> omega

end Literal

/-- The word of a character's number is the character's value. -/
theorem ofInt_charNumber (char : Char) :
    UInt32.ofInt (Decimal.ofInt char.toNat).value = char.val := by
  have bounded := char.val.toNat_lt
  have wrapped := Word.toNat_ofInt (char.val.toNat : Int)
  rw [Decimal.value_ofInt, ← UInt32.toNat_inj]
  change (UInt32.ofInt (char.val.toNat : Int)).toNat = char.val.toNat
  omega

theorem byteLength_literalLine (char : Char) :
    Glyphs.byteLength (Glyphs.ofString (literalLine char)) < Assembly.maxLineBytes := by
  have bytes := Glyphs.byteLength_le (Glyphs.ofString (literalLine char))
  have length : (Glyphs.ofString (literalLine char)).length = 9 := by
    rw [ofString_literalLine]
    rfl
  unfold Assembly.maxLineBytes
  omega

theorem dropCarriageReturn_literalLine (char : Char) :
    Glyphs.dropCarriageReturn (Glyphs.ofString (literalLine char)) =
      Glyphs.ofString (literalLine char) := by
  rw [Glyphs.dropCarriageReturn, if_neg]
  rw [ofString_literalLine]
  simp [quote]

/-- A line whose character starts no comment is kept whole. -/
theorem statementText_literalLine {char : Char} (kept : ¬ StartsComment char) :
    statementText (Glyphs.dropCarriageReturn (Glyphs.ofString (literalLine char))) =
      Glyphs.ofString (literalLine char) := by
  rw [StartsComment, not_or] at kept
  have noSemicolon : .char ';' ∉ Glyphs.ofString (literalLine char) :=
    notMem_literalLine (by decide) (by decide) (by decide) (by simpa using Ne.symm kept.1)
  have noHash : .char '#' ∉ Glyphs.ofString (literalLine char) :=
    notMem_literalLine (by decide) (by decide) (by decide) (by simpa using Ne.symm kept.2)
  rw [dropCarriageReturn_literalLine, statementText, Text.before_of_notMem noSemicolon,
    Text.before_of_notMem noHash]
  apply Text.trimBoth_eq_self
  · intro glyph starts
    rw [ofString_literalLine] at starts
    cases starts
    decide
  · intro glyph ends
    rw [ofString_literalLine] at ends
    simp only [List.getLast?_append, List.getLast?_cons_cons, List.getLast?_singleton,
      Option.some_or, Option.some.injEq] at ends
    subst ends
    decide

/-- A line whose character starts a comment ends with a lone quote. -/
theorem statementText_literalLine_cut {char : Char} (cut : StartsComment char) :
    statementText (Glyphs.dropCarriageReturn (Glyphs.ofString (literalLine char))) =
      datumMnemonic ++ [.char ' ', quote] := by
  rcases cut with rfl | rfl
  · decide
  · decide

/-- Neither a numeral nor a lone quote is an equate, so that data means what it says. -/
structure Equates.Literal (equates : Equates) : Prop where
  numberless : equates.Numberless
  quoteless : equates[[quote]]? = none

namespace Assembly

variable {assembly : Assembly}

theorem literal_beginLine (literal : assembly.equates.Literal) (lineNo : Nat) :
    (assembly.beginLine lineNo).equates.Literal where
  numberless := literal.numberless.insert_lineNumber _
  quoteless := by
    rw [equates_beginLine, getElem?_insert_of_ne (by decide)]
    exact literal.quoteless

theorem readLine_literal (literal : assembly.equates.Literal) {char : Char}
    (spelled : IsSpelled char) (kept : ¬ StartsComment char) (lineNo : Nat) :
    assembly.readLine lineNo
        (statementText (Glyphs.dropCarriageReturn (Glyphs.ofString (literalLine char)))) =
      (assembly.withDatum lineNo (Decimal.ofInt char.toNat), none) := by
  rw [statementText_literalLine kept, readLine_numeral literal.numberless (spelled.wordsOf_eq _),
    if_pos spelled.fitsWord]

theorem readLine_literal_cut (literal : assembly.equates.Literal) {char : Char}
    (cut : StartsComment char) (lineNo : Nat) :
    (assembly.readLine lineNo
      (statementText (Glyphs.dropCarriageReturn (Glyphs.ofString (literalLine char))))).2 ≠
        none := by
  have begun := literal_beginLine literal lineNo
  have words : (assembly.beginLine lineNo).equates.wordsOf (datumMnemonic ++ [.char ' ', quote]) =
      .ok [datumMnemonic, [quote]] := by
    have kept : expandCharacters (datumMnemonic ++ [.char ' ', quote]) =
        datumMnemonic ++ [.char ' ', quote] := by decide
    have noExpression : ¬ expressionMark <:+: datumMnemonic ++ [Glyph.char ' ', quote] := by decide
    rw [Equates.wordsOf, kept, Equates.expandExpressions_eq_self _ noExpression]
    rfl
  have wrong : encode (assembly.beginLine lineNo).equates .word [[quote]] =
      .error (.notNumber "'") := by
    have noLabel := (assembly.beginLine lineNo).equates.isLabel_eq_false
      (by decide : startsName [quote] = false)
    rw [encode, encodeDatum, noLabel, if_neg Bool.false_ne_true, Equates.valueOf, Equates.resolve,
      begun.quoteless]
    rfl
  rw [statementText_literalLine_cut cut, readLine_datum_fault words wrong]
  exact Option.some_ne_none _

/-- Reading the lines of a text emits the numbers of its characters, in their order. -/
theorem readLines_literals {chars : List Char} (spelled : ∀ char ∈ chars, IsSpelled char)
    (kept : ∀ char ∈ chars, ¬ StartsComment char) (literal : assembly.equates.Literal)
    (lineNo : Nat) (previous : Glyphs) :
    ∃ final added,
      assembly.readLines lineNo previous (chars.map (Glyphs.ofString ∘ literalLine)) =
          (final, none) ∧
        final.opcodes.toList = assembly.opcodes.toList ++ added ∧
        added.map Opcode.code = chars.map Char.val ∧
        ∀ opcode ∈ added, opcode.label = none := by
  induction chars generalizing assembly lineNo previous with
  | nil => exact ⟨assembly, [], rfl, by simp, rfl, by simp⟩
  | cons char chars ih =>
      have read := readLine_literal literal (spelled char List.mem_cons_self)
        (kept char List.mem_cons_self) (lineNo + 1)
      let datum : Opcode :=
        ⟨(lineNo + 1 : Nat), assembly.nextPc,
          [datumMnemonic, Glyphs.ofString (Decimal.ofInt char.toNat).text],
          UInt32.ofInt (Decimal.ofInt char.toNat).value, none⟩
      have next : (assembly.withDatum (lineNo + 1) (Decimal.ofInt char.toNat)).equates.Literal :=
        literal_beginLine literal (lineNo + 1)
      obtain ⟨final, added, later, listed, codes, unlabelled⟩ :=
        ih (fun char member => spelled char (List.mem_cons_of_mem _ member))
          (fun char member => kept char (List.mem_cons_of_mem _ member)) next (lineNo + 1)
          (statementText (Glyphs.dropCarriageReturn (Glyphs.ofString (literalLine char))))
      refine ⟨final, datum :: added, ?_, ?_, ?_, ?_⟩
      · rw [List.map_cons, Function.comp_apply, readLines_cons (byteLength_literalLine char) read]
        exact later
      · rw [listed, withDatum, Array.toList_push, List.append_assoc, List.singleton_append]
      · rw [List.map_cons, codes, List.map_cons, ← ofInt_charNumber char]
      · rintro opcode (_ | ⟨_, member⟩)
        · rfl
        · exact unlabelled opcode member

/-- Reading the lines of a text stops at a character that starts a comment. -/
theorem readLines_literals_cut {chars : List Char} (spelled : ∀ char ∈ chars, IsSpelled char)
    (cut : ∃ char ∈ chars, StartsComment char) (literal : assembly.equates.Literal)
    (lineNo : Nat) (previous : Glyphs) :
    (assembly.readLines lineNo previous (chars.map (Glyphs.ofString ∘ literalLine))).2 ≠
      none := by
  induction chars generalizing assembly lineNo previous with
  | nil =>
      obtain ⟨char, member, -⟩ := cut
      cases member
  | cons char chars ih =>
      intro sound
      obtain ⟨next, -, read, later⟩ := readLines_cons_ok (Prod.ext rfl sound)
      by_cases here : StartsComment char
      · exact readLine_literal_cut literal here (lineNo + 1) (congrArg Prod.snd read)
      · have whole := readLine_literal literal (spelled char List.mem_cons_self) here (lineNo + 1)
        obtain ⟨rfl, -⟩ := Prod.mk.inj (whole.symm.trans read)
        have begun : (assembly.withDatum (lineNo + 1)
            (Decimal.ofInt char.toNat)).equates.Literal := literal_beginLine literal (lineNo + 1)
        obtain ⟨other, member, starts⟩ := cut
        rcases List.mem_cons.mp member with rfl | behind
        · exact here starts
        · exact ih (fun char member => spelled char (List.mem_cons_of_mem _ member))
            ⟨other, behind, starts⟩ begun (lineNo + 1) _ (congrArg Prod.snd later)

end Assembly

theorem lines_literalSource {chars : List Char} (spelled : ∀ char ∈ chars, IsSpelled char) :
    (literalSource chars).lines = chars.map (Glyphs.ofString ∘ literalLine) := by
  rw [literalSource, Glyphs.ofString_intercalate, List.map_map]
  apply Text.splitBefore_intercalate
  · intro line member
    obtain ⟨char, inside, rfl⟩ := List.mem_map.mp member
    exact (spelled char inside).newline_notMem
  · intro line member
    obtain ⟨char, inside, rfl⟩ := List.mem_map.mp member
    rw [Function.comp_apply, ofString_literalLine]
    simp

/-- A text in character literals assembles to the numbers of its characters exactly if none of
them starts a comment. -/
theorem character_literals_spell_text {predefined : Definitions}
    (literal : (Assembly.start predefined).equates.Literal) {chars : List Char}
    (spelled : ∀ char ∈ chars, IsSpelled char) :
    ((∀ char ∈ chars, ¬ StartsComment char) →
      (assemble predefined (literalSource chars)).2 = none ∧
        (assemble predefined (literalSource chars)).1.opcodes.toList.map Opcode.code =
          chars.map Char.val) ∧
      ((∃ char ∈ chars, StartsComment char) →
        (assemble predefined (literalSource chars)).2 ≠ none) := by
  have lines := lines_literalSource spelled
  constructor
  · intro kept
    obtain ⟨final, added, read, listed, codes, unlabelled⟩ :=
      Assembly.readLines_literals spelled kept literal 0 []
    have opcodes : final.opcodes.toList = added := by simpa [Assembly.start] using listed
    have linked : Assembly.linkOpcodes final.labels final.opcodes.toList = (added, none) := by
      rw [opcodes]
      exact Assembly.linkOpcodes_eq_self final.labels unlabelled
    rw [← lines] at read
    simp only [assemble, read, Assembly.link, linked]
    exact ⟨trivial, codes⟩
  · intro cut sound
    have stops := Assembly.readLines_literals_cut spelled cut literal 0 []
    rw [← lines] at stops
    exact stops (passes_of_assemble sound)

theorem literal_start : (Assembly.start []).equates.Literal where
  numberless := Assembly.named_start.numberless
  quoteless := by decide +kernel

theorem character_literals_spell_text_greeting :
    (∀ char ∈ "Hi, $(you)!".toList, IsSpelled char) ∧
      (assemble [] (literalSource "Hi, $(you)!".toList)).2 = none ∧
      (assemble [] (literalSource "Hi, $(you)!".toList)).1.opcodes.toList.map Opcode.code =
        [0x48, 0x69, 0x2c, 0x20, 0x24, 0x28, 0x79, 0x6f, 0x75, 0x29, 0x21] := by
  have each : "Hi, $(you)!".toList.all
      (fun char => decide (IsSpelled char ∧ ¬ StartsComment char)) = true := by decide
  have both : ∀ char ∈ "Hi, $(you)!".toList, IsSpelled char ∧ ¬ StartsComment char :=
    fun char member => of_decide_eq_true (List.all_eq_true.mp each char member)
  have spelled : ∀ char ∈ "Hi, $(you)!".toList, IsSpelled char :=
    fun char member => (both char member).1
  exact ⟨spelled, (character_literals_spell_text literal_start spelled).1
    fun char member => (both char member).2⟩

/-- A semicolon in a literal is taken for the start of a comment. -/
theorem semicolon_literal_rejected :
    IsSpelled ';' ∧ (assemble [] (literalSource [';'])).2 ≠ none := by
  decide +kernel

end Assembler
end ReversibleMips
