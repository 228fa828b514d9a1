import ReversibleMips.Proofs.ReplacedOperands

/-!
# Introducing a name for a register

An equate for a register whose name is new does not disturb the other lines: they do not use
the name, and expressions do not see it, because a register is no number.  In a line that does
use it, it is encoded like the register that it stands for.
-/

namespace ReversibleMips
namespace Assembler

/-- The words whose equates differ when a name is introduced: the name, and the number of the
line. -/
def Concealed (name word : Glyphs) : Prop := word = lineNumberName ∨ word = name

def startsOther : Glyphs → Bool
  | .char first :: _ => !first.isDigit && first != '-' && first != '+'
  | _ => false

theorem IsName.startsOther {name : Glyphs} (isName : IsName name) :
    Assembler.startsOther name = true := by
  have starts := isName.starts
  unfold startsName at starts
  split at starts
  · rename_i first rest
    rw [Bool.or_eq_true, decide_eq_true_eq] at starts
    simp only [Assembler.startsOther, Bool.and_eq_true, Bool.not_eq_true', bne_iff_ne]
    rcases starts with rfl | letter
    · decide
    · refine ⟨⟨Text.isDigit_of_isAlpha letter, ?_⟩, ?_⟩
      · rintro rfl
        exact absurd letter (by decide)
      · rintro rfl
        exact absurd letter (by decide)
  · cases starts

theorem Equates.valueOf_eq_error {equates : Equates} {word meant : Glyphs}
    (means : equates.resolve word = meant) (other : startsOther meant = true) :
    ∃ fault, equates.valueOf word = .error fault := by
  cases meant with
  | nil => cases other
  | cons glyph rest =>
      cases glyph with
      | stray byte => cases other
      | char first =>
          simp only [startsOther, Bool.and_eq_true, Bool.not_eq_true', bne_iff_ne] at other
          obtain ⟨error, read⟩ := Text.readInt_of_head other.1.1 other.1.2 other.2 64
            (Glyphs.chars rest)
          have readWord : Text.readInt 64 (Glyphs.chars (.char first :: rest)) =
            .error error := read
          refine ⟨.notNumber (Glyphs.shown (.char first :: rest)), ?_⟩
          simp only [valueOf, means, readWord]

/-- A name for a register is among the first equates, and the second have nothing to do with
it. -/
structure Introduces (name digits : Glyphs) (base bound : Equates) : Prop where
  isName : IsName name
  notNumber : name ≠ lineNumberName
  undefined : bound[name]? = none
  plain : bound[Glyph.char '$' :: digits]? = none
  defined : base[name]? = some (.char '$' :: digits)
  texts : ∀ word, word ≠ lineNumberName → bound[word]? ≠ some lineNumberName

theorem not_concealed_register {name digits : Glyphs} (isName : IsName name) :
    ¬ Concealed name (.char '$' :: digits) := by
  rintro (number | rfl)
  · have dollar : Glyph.char '$' ∈ lineNumberName := number ▸ List.mem_cons_self
    exact absurd dollar (by decide)
  · exact isName.noDollar List.mem_cons_self

section Introduces

variable {name digits : Glyphs} {base bound left right : Equates}
    (introduces : Introduces name digits base bound)
    (within : left.Within bound) (behind : base.Within right)
    (agree : left.AgreeOff (Concealed name) right)
include introduces

include within in
theorem Introduces.resolve_left : left.resolve (.char '$' :: digits) = .char '$' :: digits := by
  have none : left[Glyph.char '$' :: digits]? = none := by
    cases found : left[Glyph.char '$' :: digits]? with
    | none => rfl
    | some text =>
        have other : Glyph.char '$' :: digits ≠ lineNumberName :=
          fun same => not_concealed_register introduces.isName (.inl same)
        have inBound := within _ text other found
        rw [introduces.plain] at inBound
        cases inBound
  rw [Equates.resolve, none]
  rfl

include within in
theorem Introduces.undefined_left : left[name]? = none := by
  cases found : left[name]? with
  | none => rfl
  | some text =>
      have inBound := within name text introduces.notNumber found
      rw [introduces.undefined] at inBound
      cases inBound

include behind in
theorem Introduces.resolve_right : right.resolve name = .char '$' :: digits := by
  rw [Equates.resolve, behind name _ introduces.notNumber introduces.defined]
  rfl

include within behind agree

/-- Expressions do not see the name. -/
theorem Introduces.number?_eq {word : String} (other : word ≠ "LINENO") :
    right.number? word = left.number? word := by
  have visible : ¬ Concealed name (.char '$' :: digits) := not_concealed_register introduces.isName
  have otherWord : Glyphs.ofString word ≠ lineNumberName :=
    fun same => other (Glyphs.ofString_injective same)
  unfold Equates.number?
  by_cases isNew : Glyphs.ofString word = name
  · -- The name is an equate on one side only, and a register is no number.
    obtain ⟨fault, noNumber⟩ := Equates.valueOf_eq_error
      ((agree.resolve_eq visible).trans (introduces.resolve_left within)) rfl
    rw [isNew, introduces.undefined_left within,
      behind name _ introduces.notNumber introduces.defined]
    simp only [noNumber]
  · have visibleWord : ¬ Concealed name (Glyphs.ofString word) := by
      rintro (number | same)
      · exact otherWord number
      · exact isNew same
    rw [agree _ visibleWord]
    cases found : left[Glyphs.ofString word]? with
    | none => rfl
    | some text =>
        by_cases textIsNew : text = name
        · -- Neither the name nor the register that it stands for is a number.
          subst textIsNew
          have leftMeans : left.resolve text = text := by
            rw [Equates.resolve, introduces.undefined_left within]
            rfl
          obtain ⟨fault, noNumber⟩ :=
            Equates.valueOf_eq_error leftMeans introduces.isName.startsOther
          obtain ⟨otherFault, noOtherNumber⟩ :=
            Equates.valueOf_eq_error (introduces.resolve_right behind) rfl
          simp only [noNumber, noOtherNumber]
        · have visibleText : ¬ Concealed name text := by
            rintro (rfl | same)
            · exact introduces.texts _ otherWord (within _ _ otherWord found)
            · exact textIsNew same
          simp only [Equates.valueOf_congr (agree.resolve_eq visibleText)]

/-- A line that does not mention the line number has the same words. -/
theorem Introduces.wordsOf_eq {line : Glyphs} (absent : ¬ lineNumberName <:+: line) :
    right.wordsOf line = left.wordsOf line := by
  have absentExpanded : ¬ lineNumberName <:+: expandCharacters line := by
    intro inside
    exact absent ((filled_expandCharacters line).infix_of_made plain_lineNumberName inside)
  rw [Equates.wordsOf, Equates.wordsOf, Equates.expandExpressions_congr
    (fun word other => introduces.number?_eq within behind agree other) absentExpanded]

end Introduces

theorem Introduces.steady {name digits : Glyphs} {base bound : Assembly}
    (introduces : Introduces name digits base.equates bound.equates) {line : Glyphs}
    (absent : ¬ lineNumberName <:+: line) :
    Assembly.Steady (Concealed name) base bound line :=
  fun _ _ within behind agree => introduces.wordsOf_eq within behind agree absent

/-- The word at which a line is changed is an argument of its mnemonic. -/
theorem cut_words {before after arguments : List Glyphs} {word mnemonic : Glyphs}
    (noLabel : endsLabel word = false) (differs : word ≠ mnemonic)
    (behind : (before ++ word :: after).dropWhile endsLabel = mnemonic :: arguments) :
    ∃ inner, arguments = inner ++ word :: after ∧ ∀ other,
      (before ++ other :: after).takeWhile endsLabel =
        (before ++ word :: after).takeWhile endsLabel ∧
      (before ++ other :: after).dropWhile endsLabel = mnemonic :: (inner ++ other :: after) := by
  induction before with
  | nil =>
      rw [List.nil_append, List.dropWhile_cons_of_neg (by simp [noLabel])] at behind
      exact absurd (List.cons.inj behind).1 differs
  | cons first before ih =>
      simp only [List.cons_append] at behind ⊢
      by_cases isLabel : endsLabel first = true
      · rw [List.dropWhile_cons_of_pos isLabel] at behind
        obtain ⟨inner, split, replaced⟩ := ih behind
        refine ⟨inner, split, fun other => ?_⟩
        rw [List.takeWhile_cons_of_pos isLabel, List.takeWhile_cons_of_pos isLabel,
          List.dropWhile_cons_of_pos isLabel, (replaced other).1]
        exact ⟨rfl, (replaced other).2⟩
      · rw [List.dropWhile_cons_of_neg isLabel] at behind
        obtain ⟨rfl, rfl⟩ := List.cons.inj behind
        refine ⟨before, rfl, fun other => ?_⟩
        rw [List.takeWhile_cons_of_neg isLabel, List.takeWhile_cons_of_neg isLabel,
          List.dropWhile_cons_of_neg isLabel]
        exact ⟨rfl, rfl⟩

theorem indexed?_append (offset : Glyphs) {base : Glyphs} (written : OperandWord base)
    (isBase : isBaseName base = true) :
    indexed? (offset ++ .char '(' :: (base ++ [.char ')'])) = some (offset, base) := by
  have reversed : (offset ++ Glyph.char '(' :: (base ++ [.char ')'])).reverse =
      Glyph.char ')' :: (offset ++ .char '(' :: base).reverse := by
    simp
  have absent : .char '(' ∉ base := written.notMem (by decide) (by decide)
  rw [indexed?, reversed]
  simp only [List.reverse_reverse, Text.splitLast?_append_mark offset absent, isBase, if_true]

theorem IsDigits.isBaseName {digits : Glyphs} (number : IsDigits digits) :
    Assembler.isBaseName (.char '$' :: digits) = true := by
  rw [Assembler.isBaseName, Bool.and_eq_true, List.all_eq_true]
  refine ⟨by simpa using number.nonempty, fun glyph member => ?_⟩
  rcases number.operandWord.plain glyph (List.mem_cons_of_mem _ member) with dollar | plain
  · exact absurd (dollar ▸ member) (number.notMem (by decide))
  · exact plain

theorem IsName.isBaseName {name : Glyphs} (isName : IsName name) :
    Assembler.isBaseName name = true := by
  have all : (!name.isEmpty && name.all isNameGlyph) = true := by
    rw [Bool.and_eq_true, List.all_eq_true]
    exact ⟨by simpa using isName.operandWord.nonempty, isName.plain⟩
  unfold Assembler.isBaseName
  split
  · exact absurd List.mem_cons_self isName.noDollar
  · exact all

section Encode

variable {name digits : Glyphs} {base bound left right : Equates}
    (introduces : Introduces name digits base bound) (number : IsDigits digits)
    (within : left.Within bound) (behind : base.Within right)
    (agree : left.AgreeOff (Concealed name) right)
include introduces number within behind agree

/-- The name is encoded like the register where the register is an argument. -/
theorem encode_alone {op : Op} {inner after : List Glyphs} {encoded : Encoded}
    (unused : ∀ word ∈ inner ++ after, ¬ Uses (Concealed name) word)
    (read : encode left op (inner ++ (.char '$' :: digits) :: after) = .ok encoded) :
    encode right op (inner ++ name :: after) = .ok encoded := by
  have unusedInner (word : Glyphs) (member : word ∈ inner) :=
    unused word (List.mem_append_left _ member)
  have unusedAfter (word : Glyphs) (member : word ∈ after) :=
    unused word (List.mem_append_right _ member)
  have alike : left.Alike right (.char '$' :: digits) name := by
    have noLabel : left.isLabel (.char '$' :: digits) = false := left.isLabel_eq_false rfl
    refine ⟨?_, ?_, fun isLabel => ?_⟩
    · rw [introduces.resolve_right behind, introduces.resolve_left within]
    · have defined : right.contains name = true := by
        rw [Std.TreeMap.contains_eq_isSome_getElem?,
          behind name _ introduces.notNumber introduces.defined]
        rfl
      rw [noLabel]
      exact Bool.and_eq_false_iff.mpr (.inl (by rw [defined]; rfl))
    · rw [noLabel] at isLabel
      cases isLabel
  have places : left.AlikePlaces right (.char '$' :: digits) name := by
    intro offset base cut
    have closing : .char ')' ∈ (Glyph.char '$' :: digits) := by
      rw [(eq_of_indexed? cut).1]
      simp
    exact absurd closing (number.operandWord.notMem (by decide) (by decide))
  refine encode_congr (List.rel_append ?_ (.cons alike ?_)) (List.rel_append ?_ (.cons places ?_))
    read
  · exact List.forall₂_same.mpr fun word member =>
      agree.alike fun isHidden => unusedInner word member (.inl isHidden)
  · exact List.forall₂_same.mpr fun word member =>
      agree.alike fun isHidden => unusedAfter word member (.inl isHidden)
  · exact List.forall₂_same.mpr fun word member => agree.alikePlaces (unusedInner word member)
  · exact List.forall₂_same.mpr fun word member => agree.alikePlaces (unusedAfter word member)

/-- The name is encoded like the register where the register is the base of a place. -/
theorem encode_base {op : Op} {inner : List Glyphs} {offset : Glyphs} {encoded : Encoded}
    (memory : op = .lw ∨ op = .sw) (unused : ∀ word ∈ inner, ¬ Concealed name word)
    (visible : ¬ Concealed name offset)
    (read : encode left op
      (inner ++ [offset ++ .char '(' :: (.char '$' :: digits ++ [.char ')'])]) = .ok encoded) :
    encode right op (inner ++ [offset ++ .char '(' :: (name ++ [.char ')'])]) = .ok encoded := by
  have indexed (equates : Equates) (arguments : List Glyphs) :
      encode equates op arguments = encodeIndexed equates op arguments := by
    rcases memory with rfl | rfl
    · rfl
    · rfl
  rw [indexed] at read ⊢
  obtain ⟨register, rfl⟩ : ∃ register, inner = [register] := by
    rcases inner with _ | ⟨register, _ | ⟨second, inner⟩⟩
    · cases read
    · exact ⟨register, rfl⟩
    · cases inner with
      | nil => cases read
      | cons third inner => cases read
  have same := agree.resolve_eq (unused register List.mem_cons_self)
  refine encodeIndexed_congr same ?_ read
  intro otherOffset otherBase cut
  rw [indexed?_append offset number.operandWord number.isBaseName] at cut
  cases cut
  refine ⟨agree.resolve_eq visible, name, ?_, ?_⟩
  · exact indexed?_append offset introduces.isName.operandWord introduces.isName.isBaseName
  · rw [introduces.resolve_right behind, introduces.resolve_left within]

end Encode

def equateLine (name digits : Glyphs) : Glyphs :=
  Glyphs.ofString ".equ " ++ (name ++ .char ' ' :: .char '$' :: digits)

def Assembly.withRegister (assembly : Assembly) (lineNo : Nat) (name digits : Glyphs) : Assembly :=
  { assembly.beginLine lineNo with
    equates := (assembly.beginLine lineNo).equates.insert name (.char '$' :: digits) }

theorem Assembly.follows_withRegister (assembly : Assembly) (lineNo : Nat) (name digits : Glyphs) :
    Follows (Concealed name) [] assembly (assembly.withRegister lineNo name digits) := by
  have agree : assembly.equates.AgreeOff (Concealed name) assembly.equates := fun _ _ => rfl
  have begun := agree.insert_hidden (.inl rfl) (Glyphs.ofString (toString lineNo))
  exact .of_agreeOff (begun.insert_hidden (.inr rfl) (.char '$' :: digits)) rfl rfl

section EquateLine

variable {name digits : Glyphs} (isName : IsName name) (number : IsDigits digits)
include isName number

theorem notMem_equateLine {glyph : Glyph} (others : glyph ∉ Glyphs.ofString ".equ ")
    (noDollar : glyph ≠ .char '$') (plain : isNameGlyph glyph = false) :
    glyph ∉ equateLine name digits := by
  have blank : glyph ≠ .char ' ' := fun same => others (by rw [same]; decide)
  have inName := isName.operandWord.notMem noDollar plain
  have inRegister := number.operandWord.notMem noDollar plain
  simp only [equateLine, List.mem_append, List.mem_cons, not_or] at inRegister ⊢
  exact ⟨others, inName, blank, inRegister⟩

omit isName in
theorem isBlank_of_getLast?_equateLine {glyph : Glyph}
    (ends : (equateLine name digits).getLast? = some glyph) : glyph.isBlank = false := by
  have whole : equateLine name digits =
      Glyphs.ofString ".equ " ++ name ++ [.char ' '] ++ .char '$' :: digits := by
    simp [equateLine]
  rw [whole, List.getLast?_append_of_ne_nil _ (List.cons_ne_nil _ _)] at ends
  exact number.operandWord.solid.dense glyph (List.mem_of_getLast? ends)

theorem statementText_equateLine :
    statementText (equateLine name digits).dropCarriageReturn = equateLine name digits := by
  have noReturn : (equateLine name digits).getLast? ≠ some (.char '\r') := by
    intro ends
    exact absurd (isBlank_of_getLast?_equateLine number ends) (by decide)
  rw [Glyphs.dropCarriageReturn, if_neg noReturn, statementText,
    Text.before_of_notMem (notMem_equateLine isName number (by decide) (by decide) (by decide)),
    Text.before_of_notMem (notMem_equateLine isName number (by decide) (by decide) (by decide))]
  apply Text.trimBoth_eq_self
  · rintro glyph ⟨⟩
    decide
  · exact fun glyph ends => isBlank_of_getLast?_equateLine number ends

theorem wordsOf_equateLine (equates : Equates) :
    equates.wordsOf (equateLine name digits) =
      .ok [Glyphs.ofString ".equ", name, .char '$' :: digits] := by
  have noQuote : quote ∉ equateLine name digits :=
    notMem_equateLine isName number (by decide) (by decide) (by decide)
  have noExpression : ¬ expressionMark <:+: equateLine name digits := by
    intro inside
    have opening : .char '(' ∈ equateLine name digits := inside.subset (by decide)
    exact notMem_equateLine isName number (by decide) (by decide) (by decide) opening
  have words : lineWords (equateLine name digits) =
      [Glyphs.ofString ".equ", name, .char '$' :: digits] := by
    have first : equateLine name digits =
        Glyphs.ofString ".equ" ++ .char ' ' :: (name ++ .char ' ' :: .char '$' :: digits) := rfl
    rw [first, lineWords_append_separator (.inl rfl), lineWords_append_separator (.inl rfl),
      lineWords_unbroken isName.operandWord.nonempty isName.operandWord.unbroken,
      lineWords_unbroken number.operandWord.nonempty number.operandWord.unbroken]
    rfl
  rw [Equates.wordsOf, expandCharacters_eq_self noQuote,
    equates.expandExpressions_eq_self noExpression, Except.map, words]

/-- The line adds the equate to the others. -/
theorem readLine_equateLine {assembly : Assembly} (notNumber : name ≠ lineNumberName)
    (undefined : assembly.equates[name]? = none) (lineNo : Nat) :
    assembly.readLine lineNo (statementText (equateLine name digits).dropCarriageReturn) =
      (assembly.withRegister lineNo name digits, none) := by
  have fresh : (assembly.beginLine lineNo).equates.contains name = false := by
    rw [Std.TreeMap.contains_eq_isSome_getElem?, Assembly.equates_beginLine,
      Assembly.getElem?_insert_of_ne notNumber, undefined]
    rfl
  rw [statementText_equateLine isName number]
  simp only [Assembly.readLine, wordsOf_equateLine isName number, if_true, Assembly.defineEquate,
    fresh, Bool.false_eq_true, if_false, Assembly.withRegister]

end EquateLine

namespace Assembly

/-- The text of an equate was there before, or is a word of the line. -/
theorem text_of_readLine {assembly next : Assembly} {lineNo : Nat} {line word text : Glyphs}
    (read : assembly.readLine lineNo line = (next, none)) (other : word ≠ lineNumberName)
    (found : next.equates[word]? = some text) :
    assembly.equates[word]? = some text ∨
      ∃ (equates : Equates) (words : List Glyphs), equates.wordsOf line = .ok words ∧
        text ∈ words := by
  have begun (found : (assembly.beginLine lineNo).equates[word]? = some text) :
      assembly.equates[word]? = some text := by
    rw [equates_beginLine, getElem?_insert_of_ne other] at found
    exact found
  obtain ⟨words, written, ⟨-, rfl⟩ | ⟨rest, rfl, defined⟩ | ⟨labelled, -, -, defined, emitted⟩⟩ :=
    readLine_eq read
  · exact .inl (begun found)
  · obtain ⟨name, meaning, rfl, -, rfl⟩ := defineEquate_eq defined
    by_cases same : word = name
    · subst same
      have isText : some meaning = some text :=
        Std.TreeMap.getElem?_insert_self.symm.trans found
      cases isText
      exact .inr ⟨_, _, written, by simp⟩
    · have earlier : (assembly.beginLine lineNo).equates[word]? = some text :=
        (getElem?_insert_of_ne same meaning).symm.trans found
      exact .inl (begun earlier)
  · have sameEquates : next.equates = (assembly.beginLine lineNo).equates := by
      have labelledEquates : labelled.equates = (assembly.beginLine lineNo).equates := by
        rw [(defineLabels_ok defined).1]
      obtain ⟨-, rfl⟩ | ⟨mnemonic, arguments, op, encoded, -, -, -, rfl⟩ := emit_eq emitted
      · exact labelledEquates
      · exact labelledEquates
    rw [sameEquates] at found
    exact .inl (begun found)

theorem text_of_readLines {assembly final : Assembly} {lineNo : Nat} {previous word text : Glyphs}
    {lines : List Glyphs} (read : assembly.readLines lineNo previous lines = (final, none))
    (other : word ≠ lineNumberName) (found : final.equates[word]? = some text) :
    assembly.equates[word]? = some text ∨
      ∃ raw ∈ lines, ∃ (equates : Equates) (words : List Glyphs),
        equates.wordsOf (statementText raw.dropCarriageReturn) = .ok words ∧ text ∈ words := by
  induction lines generalizing assembly lineNo previous with
  | nil =>
      cases read
      exact .inl found
  | cons raw lines ih =>
      obtain ⟨next, -, first, later⟩ := readLines_cons_ok read
      rcases ih later with earlier | ⟨line, member, inLine⟩
      · rcases text_of_readLine first other earlier with before | inLine
        · exact .inl before
        · exact .inr ⟨raw, List.mem_cons_self, inLine⟩
      · exact .inr ⟨line, List.mem_cons_of_mem _ member, inLine⟩

theorem text_of_start {predefined : Definitions} {word text : Glyphs}
    (found : (start predefined).equates[word]? = some text) :
    ∃ entry ∈ systemEquates ++ predefined, text = entry.2 := by
  unfold start at found
  generalize systemEquates ++ predefined = entries at found ⊢
  revert found
  refine List.foldlRecOn (motive := fun equates : Equates => equates[word]? = some text →
    ∃ entry ∈ entries, text = entry.2) _ _ ?_ ?_
  · intro none
    rw [Std.TreeMap.getElem?_emptyc] at none
    cases none
  · rintro equates earlier ⟨name, meaning⟩ member found
    change (equates.insert name meaning)[word]? = some text at found
    by_cases same : word = name
    · rw [same, Std.TreeMap.getElem?_insert_self] at found
      exact ⟨(name, meaning), member, (Option.some.inj found).symm⟩
    · rw [getElem?_insert_of_ne same] at found
      exact earlier found

end Assembly

/-- No equate stands for the number of the line if the source does not mention it. -/
theorem text_ne_lineNumberName {predefined : Definitions} {source : Glyphs}
    (absent : ¬ lineNumberName <:+: source) (otherTexts : ∀ entry ∈ predefined, entry.2 ≠ lineNumberName)
    (passes : (firstPass predefined source).2 = none) {word : Glyphs}
    (other : word ≠ lineNumberName) :
    (firstPass predefined source).1.equates[word]? ≠ some lineNumberName := by
  intro found
  rcases Assembly.text_of_readLines (readLines_firstPass passes) other found with
    first | ⟨raw, member, equates, words, written, inside⟩
  · obtain ⟨entry, listed, same⟩ := Assembly.text_of_start first
    rcases List.mem_append.mp listed with system | given
    · have none : ∀ entry ∈ Assembly.systemEquates, entry.2 ≠ lineNumberName := by decide
      exact none entry system same.symm
    · exact otherTexts entry given same.symm
  · have mentions := infix_of_mem_wordsOf plain_lineNumberName written inside List.infix_rfl
    exact absent (mentions.trans (infix_of_statement member))

end Assembler
end ReversibleMips
