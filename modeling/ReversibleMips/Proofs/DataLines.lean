import ReversibleMips.Proofs.ParallelReading
import ReversibleMips.Proofs.WrittenOperands

/-!
# Lines of data

A word of data is written as a decimal numeral behind its mnemonic, or as something that
becomes such a numeral before the line is taken apart.  The line emits the number as a word
if it is a signed or an unsigned number of thirty-two bits, and is wrong otherwise.  A source
that assembles goes on with what one more line does.
-/

namespace ReversibleMips

/-- A decimal number, with a minus sign or without one. -/
structure Decimal where
  negative : Bool
  magnitude : Nat

namespace Decimal

def text (numeral : Decimal) : String :=
  (if numeral.negative then "-" else "") ++ toString numeral.magnitude

def value (numeral : Decimal) : Int :=
  if numeral.negative then -numeral.magnitude else numeral.magnitude

def ofInt (number : Int) : Decimal := ⟨number < 0, number.natAbs⟩

theorem value_ofInt (number : Int) : (ofInt number).value = number := by
  simp only [value, ofInt, decide_eq_true_eq]
  split <;> omega

theorem text_ofInt (number : Int) : (ofInt number).text = toString number := by
  cases number with
  | ofNat number =>
      have positive : ¬ Int.ofNat number < 0 := Int.not_lt.mpr (Int.natCast_nonneg number)
      simp only [text, ofInt, positive, decide_false, Bool.false_eq_true, if_false]
      exact String.empty_append
  | negSucc number =>
      have negative : Int.negSucc number < 0 := Int.negSucc_lt_zero number
      simp only [text, ofInt, negative, decide_true, if_true]
      rfl

theorem toList_text (numeral : Decimal) :
    numeral.text.toList =
      (if numeral.negative then ['-'] else []) ++ Nat.toDigits 10 numeral.magnitude := by
  rw [text, String.toList_append, Nat.toString_eq_repr, Nat.toList_repr]
  split
  · rfl
  · rfl

theorem isPlainChar_text (numeral : Decimal) :
    numeral.text.toList.all Assembler.isPlainChar = true := by
  have digits : ∀ char ∈ Nat.toDigits 10 numeral.magnitude, Assembler.isPlainChar char = true := by
    intro char member
    have alphanumeric := Text.isAlphanum_of_mem_toDigits (by omega : 1 < 10) (by omega) member
    simp [Assembler.isPlainChar, alphanumeric]
  rw [toList_text, List.all_append, Bool.and_eq_true]
  refine ⟨?_, List.all_eq_true.mpr digits⟩
  cases numeral.negative with
  | false => rfl
  | true => decide

theorem bareWord_text (numeral : Decimal) : Assembler.BareWord (Glyphs.ofString numeral.text) := by
  refine Assembler.bareWord_ofString ?_ numeral.isPlainChar_text
  rw [toList_text]
  exact List.append_ne_nil_of_right_ne_nil _ Nat.toDigits_ne_nil

theorem startsName_text (numeral : Decimal) :
    Assembler.startsName (Glyphs.ofString numeral.text) = false := by
  cases sign : numeral.negative with
  | false =>
      have same : numeral.text = toString (Int.ofNat numeral.magnitude) := by
        rw [text, sign, if_neg Bool.false_ne_true]
        exact String.empty_append
      rw [same]
      exact Assembler.startsName_toString _
  | true =>
      rw [Glyphs.ofString, toList_text, sign]
      rfl

end Decimal

namespace Text

/-- No decimal numeral is read as another number. -/
theorem eq_of_readUnsigned_toDigits {max number value : Nat}
    (read : readUnsigned max (Nat.toDigits 10 number) = .ok value) : value = number := by
  by_cases zero : number = 0
  · subst zero
    rw [Nat.toDigits_zero] at read
    exact (Except.ok.inj read).symm
  · have marked := head?_toDigits_ne_zero (Nat.pos_of_ne_zero zero)
    have digitsOnly : (Nat.toDigits 10 number).all Char.isDigit = true := by
      rw [List.all_eq_true]
      intro char member
      exact Nat.isDigit_of_mem_toDigits (by omega) (by omega) member
    rw [readUnsigned] at read
    · simp only [literalBase_of_head_ne marked, hasBaseLetter_of_head_ne marked,
        Bool.false_eq_true, if_false] at read
      split at read
      · cases read
      · rename_i found digits
        have same := ofDigitChars_of_readDigits digitsOnly digits
        rw [Nat.ofDigitChars_toDigits (by omega) (by omega)] at same
        split at read
        · exact (Except.ok.inj read).symm.trans same.symm
        · cases read
    · exact Nat.toDigits_ne_nil

theorem head?_toDigits_ne {number : Nat} {char : Char} (other : char.isAlphanum = false)
    (rest : List Char) : Nat.toDigits 10 number ≠ char :: rest := by
  intro written
  have member : char ∈ Nat.toDigits 10 number := by
    rw [written]
    exact List.mem_cons_self
  rw [isAlphanum_of_mem_toDigits (by omega : 1 < 10) (by omega) member] at other
  cases other

/-- A decimal numeral is read as its number, up to the size of the integers. -/
theorem readInt_decimal {numeral : Decimal} (least : -0x8000000000000000 ≤ numeral.value)
    (greatest : numeral.value < 0x8000000000000000) :
    readInt 64 numeral.text.toList = .ok numeral.value := by
  obtain ⟨negative, magnitude⟩ := numeral
  rw [Decimal.toList_text]
  cases negative with
  | false =>
      have inside : magnitude < 0x8000000000000000 := by
        simp only [Decimal.value, Bool.false_eq_true, if_false] at greatest
        omega
      have read := @readUnsigned_toDigits 0xffffffffffffffff magnitude (by omega)
      refine readInt_of_readUnsigned ?_ read inside
      intro char first
      exact isAlphanum_of_mem_toDigits (by omega : 1 < 10) (by omega) (List.mem_of_head? first)
  | true =>
      have inside : ¬ 0x8000000000000000 < magnitude := by
        simp only [Decimal.value, if_true] at least
        omega
      have read := @readUnsigned_toDigits 0xffffffffffffffff magnitude (by omega)
      simp only [if_true, List.singleton_append, readInt, Nat.reduceSub, Nat.reduceShiftLeft, read,
        inside, if_false, Decimal.value]

theorem eq_of_readInt_decimal {numeral : Decimal} {value : Int}
    (read : readInt 64 numeral.text.toList = .ok value) : value = numeral.value := by
  obtain ⟨negative, magnitude⟩ := numeral
  rw [Decimal.toList_text] at read
  have noMinus := @head?_toDigits_ne magnitude '-' (by decide)
  have noPlus := @head?_toDigits_ne magnitude '+' (by decide)
  cases negative with
  | false =>
      simp only [Bool.false_eq_true, if_false, List.nil_append, readInt] at read
      split at read
      · cases read
      · rename_i unsigned
        split at read
        · cases read
        · rw [eq_of_readUnsigned_toDigits unsigned] at read
          exact (Except.ok.inj read).symm
  | true =>
      simp only [if_true, List.singleton_append, readInt] at read
      split at read
      · cases read
      · rename_i unsigned
        split at read
        · cases read
        · rw [eq_of_readUnsigned_toDigits unsigned] at read
          exact (Except.ok.inj read).symm

end Text

namespace Assembler

/-- A word is a decimal number of any size, or an integer literal that can be read. -/
def IsNumber (word : Glyphs) : Prop :=
  (∃ numeral : Decimal, word = Glyphs.ofString numeral.text) ∨
    ∃ value, Text.readInt 64 word.chars = .ok value

theorem isNumber_decimal (numeral : Decimal) : IsNumber (Glyphs.ofString numeral.text) :=
  .inl ⟨numeral, rfl⟩

/-- What starts as a name does is no number. -/
theorem startsName_of_isNumber {word : Glyphs} (number : IsNumber word) :
    startsName word = false := by
  rcases number with ⟨numeral, rfl⟩ | ⟨value, read⟩
  · exact numeral.startsName_text
  · rw [Bool.eq_false_iff]
    intro starts
    cases word with
    | nil => cases starts
    | cons glyph rest =>
        cases glyph with
        | stray byte => cases starts
        | char first =>
            simp only [startsName, Bool.or_eq_true, decide_eq_true_eq] at starts
            have noDigit : first.isDigit = false := by
              rcases starts with rfl | letter
              · rfl
              · exact Text.isDigit_of_isAlpha letter
            have noMinus : first ≠ '-' := by
              rintro rfl
              exact absurd starts (by decide)
            have noPlus : first ≠ '+' := by
              rintro rfl
              exact absurd starts (by decide)
            obtain ⟨error, fails⟩ :=
              Text.readInt_of_head noDigit noMinus noPlus 64 (rest.map Glyph.shown)
            have both : Except.error error = Except.ok value := fails.symm.trans read
            cases both

/-- No equate is named by a number. -/
def Equates.Numberless (equates : Equates) : Prop := ∀ word, IsNumber word → equates[word]? = none

/-- A number that a word stands for, signed or unsigned. -/
def FitsWord (number : Int) : Prop := -0x80000000 ≤ number ∧ number ≤ 0xffffffff

instance (number : Int) : Decidable (FitsWord number) := inferInstanceAs (Decidable (_ ∧ _))

theorem Equates.Named.numberless {equates : Equates} (named : equates.Named) :
    equates.Numberless := by
  intro word number
  cases found : equates[word]? with
  | none => rfl
  | some text =>
      have defined : equates.contains word = true := by
        rw [Std.TreeMap.contains_eq_isSome_getElem?, found]
        rfl
      exact nomatch (startsName_of_isNumber number).symm.trans (named word defined)

section Numberless

variable {equates : Equates} (numberless : equates.Numberless)
include numberless

theorem Equates.Numberless.insert_lineNumber (text : Glyphs) :
    Equates.Numberless (equates.insert lineNumberName text) := by
  intro word number
  have other : word ≠ lineNumberName := by
    rintro rfl
    exact absurd (startsName_of_isNumber number) (by decide)
  rw [Assembly.getElem?_insert_of_ne other, numberless word number]

theorem Equates.Numberless.resolve_eq {word : Glyphs} (number : IsNumber word) :
    equates.resolve word = word := by
  rw [Equates.resolve, numberless word number]
  rfl

theorem Equates.Numberless.valueOf_eq (numeral : Decimal) :
    equates.valueOf (Glyphs.ofString numeral.text) =
      if FitsWord numeral.value then .ok (UInt32.ofInt numeral.value)
      else .error (.notNumber numeral.text) := by
  rw [Equates.valueOf, numberless.resolve_eq (isNumber_decimal numeral)]
  simp only [Glyphs.chars_ofString, Glyphs.shown_ofString]
  cases read : Text.readInt 64 numeral.text.toList with
  | ok value =>
      obtain rfl := Text.eq_of_readInt_decimal read
      rfl
  | error error =>
      rw [if_neg]
      rintro ⟨least, greatest⟩
      rw [Text.readInt_decimal (by omega) (by omega)] at read
      cases read

theorem Equates.Numberless.encode_eq (numeral : Decimal) :
    encode equates .word [Glyphs.ofString numeral.text] =
      if FitsWord numeral.value then .ok ⟨UInt32.ofInt numeral.value, none⟩
      else .error (.notNumber numeral.text) := by
  rw [encode, encodeDatum, equates.isLabel_eq_false numeral.startsName_text,
    if_neg Bool.false_ne_true, numberless.valueOf_eq]
  split
  · rfl
  · rfl

end Numberless

def datumMnemonic : Glyphs := Glyphs.ofString ".word"

theorem bareWord_datumMnemonic : BareWord datumMnemonic :=
  bareWord_ofString (by decide) (by decide)

theorem bareWords_numeral (numeral : Decimal) :
    ∀ operand ∈ [Glyphs.ofString numeral.text], BareWord operand := by
  intro operand member
  rw [List.mem_singleton.mp member]
  exact numeral.bareWord_text

namespace Assembly

def withDatum (assembly : Assembly) (lineNo : Nat) (numeral : Decimal) : Assembly :=
  { assembly.beginLine lineNo with
    opcodes := assembly.opcodes.push
      ⟨lineNo, assembly.nextPc, [datumMnemonic, Glyphs.ofString numeral.text],
        UInt32.ofInt numeral.value, none⟩ }

theorem defineLabels_datum (assembly : Assembly) (arguments : List Glyphs) :
    assembly.defineLabels (datumMnemonic :: arguments) =
      (assembly, .ok (datumMnemonic :: arguments)) := by
  have noLabel := labelOf?_eq_none (bareWord_datumMnemonic.notMem (by decide : _ = false))
  rw [defineLabels, noLabel]

section Datum

variable {assembly : Assembly} {lineNo : Nat} {line : Glyphs}

theorem readLine_datum {arguments : List Glyphs} {encoded : Encoded}
    (words : (assembly.beginLine lineNo).equates.wordsOf line = .ok (datumMnemonic :: arguments))
    (read : encode (assembly.beginLine lineNo).equates .word arguments = .ok encoded) :
    assembly.readLine lineNo line =
      ({ assembly.beginLine lineNo with
        opcodes := assembly.opcodes.push
          ⟨lineNo, assembly.nextPc, datumMnemonic :: arguments, encoded.code, encoded.label⟩ },
        none) := by
  have noEquate : (datumMnemonic :: arguments).head? ≠ some (Glyphs.ofString ".equ") := by
    rw [List.head?_cons]
    decide
  exact readLine_of_emit words noEquate (defineLabels_datum _ _)
    (emit_of_encode (by decide) read lineNo)

/-- Data that cannot be encoded makes a line wrong. -/
theorem readLine_datum_fault {arguments : List Glyphs} {fault : Fault}
    (words : (assembly.beginLine lineNo).equates.wordsOf line = .ok (datumMnemonic :: arguments))
    (wrong : encode (assembly.beginLine lineNo).equates .word arguments = .error fault) :
    assembly.readLine lineNo line = (assembly.beginLine lineNo, some fault) := by
  have noEquate : datumMnemonic ≠ Glyphs.ofString ".equ" := by decide
  have operation : Op.ofName? (Glyphs.shown datumMnemonic) = some .word := by decide
  simp only [readLine, words, noEquate, if_false, defineLabels_datum, emit, operation, wrong]

theorem readLine_numeral (numberless : assembly.equates.Numberless) {numeral : Decimal}
    (words : (assembly.beginLine lineNo).equates.wordsOf line =
      .ok [datumMnemonic, Glyphs.ofString numeral.text]) :
    assembly.readLine lineNo line =
      if FitsWord numeral.value then (assembly.withDatum lineNo numeral, none)
      else (assembly.beginLine lineNo, some (.notNumber numeral.text)) := by
  have begun := numberless.insert_lineNumber (Glyphs.ofString (toString lineNo))
  rw [← equates_beginLine] at begun
  have encoded := begun.encode_eq numeral
  by_cases fits : FitsWord numeral.value
  · rw [if_pos fits] at encoded ⊢
    exact readLine_datum words encoded
  · rw [if_neg fits] at encoded ⊢
    exact readLine_datum_fault words encoded

end Datum

end Assembly

section OneMore

variable {predefined : Definitions} {earlier source line : Glyphs}

/-- What a source has assembled to is where reading goes on with one more line. -/
theorem firstPass_snoc (assembles : (assemble predefined earlier).2 = none)
    (lines : source.lines = earlier.lines ++ [line]) :
    ∃ previous, firstPass predefined source =
      (firstPass predefined earlier).1.readLines earlier.lines.length previous [line] := by
  have read := readLines_firstPass (passes_of_assemble assembles)
  obtain ⟨previous, behind⟩ := Assembly.readLines_append read [line]
  refine ⟨previous, ?_⟩
  rw [firstPass, lines, behind, Nat.zero_add]

/-- One more line that is wrong makes the source wrong. -/
theorem assemble_snoc_fault (assembles : (assemble predefined earlier).2 = none)
    (lines : source.lines = earlier.lines ++ [line])
    (wrong : line.byteLength < Assembly.maxLineBytes →
      ((firstPass predefined earlier).1.readLine (earlier.lines.length + 1)
        (statementText line.dropCarriageReturn)).2 ≠ none) :
    (assemble predefined source).2 ≠ none := by
  intro sound
  obtain ⟨previous, read⟩ := firstPass_snoc assembles lines
  have passes := passes_of_assemble sound
  rw [read] at passes
  obtain ⟨next, fits, first, -⟩ := Assembly.readLines_cons_ok (Prod.ext rfl passes)
  exact wrong fits (congrArg Prod.snd first)

/-- One more line that is too long is reported behind the line before it. -/
theorem assemble_snoc_long (assembles : (assemble predefined earlier).2 = none)
    (lines : source.lines = earlier.lines ++ [line])
    (long : Assembly.maxLineBytes ≤ line.byteLength) :
    ∃ previous, (assemble predefined source).2 =
      some ⟨earlier.lines.length, previous, .lineTooLong⟩ := by
  obtain ⟨previous, read⟩ := firstPass_snoc assembles lines
  rw [Assembly.readLines, if_pos long] at read
  refine ⟨previous.shown, ?_⟩
  unfold assemble
  rw [← firstPass, read]

theorem linkOpcodes_snoc {labels : Labels} {opcodes linked : List Opcode} {opcode : Opcode}
    (links : Assembly.linkOpcodes labels opcodes = (linked, none)) (alone : opcode.label = none) :
    Assembly.linkOpcodes labels (opcodes ++ [opcode]) = (linked ++ [opcode], none) := by
  induction opcodes generalizing linked with
  | nil =>
      cases links
      simp [Assembly.linkOpcodes, Assembly.linkOpcode, alone]
  | cons first opcodes ih =>
      rw [Assembly.linkOpcodes] at links
      split at links
      · cases links
      · rename_i firstLinked firstLinks
        obtain ⟨rfl, sound⟩ := Prod.mk.inj links
        simp only [List.cons_append, Assembly.linkOpcodes, firstLinks, ih (Prod.ext rfl sound)]

/-- One more word of data comes behind the words of a source. -/
theorem assemble_snoc_datum (assembles : (assemble predefined earlier).2 = none)
    (lines : source.lines = earlier.lines ++ [line])
    (fits : line.byteLength < Assembly.maxLineBytes) {numeral : Decimal}
    (read : (firstPass predefined earlier).1.readLine (earlier.lines.length + 1)
      (statementText line.dropCarriageReturn) =
        ((firstPass predefined earlier).1.withDatum (earlier.lines.length + 1) numeral, none)) :
    (assemble predefined source).2 = none ∧
      (assemble predefined source).1.opcodes.toList.map Opcode.code =
        (assemble predefined earlier).1.opcodes.toList.map Opcode.code ++
          [UInt32.ofInt numeral.value] := by
  obtain ⟨previous, behind⟩ := firstPass_snoc assembles lines
  rw [Assembly.readLines_cons fits read, Assembly.readLines] at behind
  have passes : (firstPass predefined source).2 = none := by rw [behind]
  have links := (links_of_assemble assembles).2
  have assembled := assemble_of_firstPass passes
  let datum : Opcode :=
    ⟨(earlier.lines.length + 1 : Nat), (firstPass predefined earlier).1.nextPc,
      [datumMnemonic, Glyphs.ofString numeral.text], UInt32.ofInt numeral.value, none⟩
  have linked := @linkOpcodes_snoc _ _ _ datum links rfl
  rw [behind, Assembly.link, Assembly.withDatum, Array.toList_push] at assembled
  simp only [Assembly.beginLine] at assembled
  rw [assembled, linked]
  simp [datum]

end OneMore

end Assembler
end ReversibleMips
