import ReversibleMips.Proofs.ParallelReading
import ReversibleMips.Proofs.WrittenInstructions

/-!
# What a source does not mention

Reading a line puts numbers in the place of literals and expressions, and blanks in the place
of commas and tabs.  All else of the words of a line was in the line before.  A name that a
source does not mention is therefore not among the words of its lines and not in its
expressions, and the value of the equate of this name does not matter.
-/

namespace ReversibleMips

namespace Text

variable {α : Type}

/-- What has nothing in common with the front of a text is behind it. -/
theorem infix_of_infix_append {part front rest : List α} (apart : ∀ item ∈ front, item ∉ part)
    (inside : part <:+: front ++ rest) : part <:+: rest := by
  induction front with
  | nil => exact inside
  | cons item front ih =>
      have later := ih fun item member => apart item (List.mem_cons_of_mem _ member)
      rw [List.cons_append, List.infix_cons_iff] at inside
      rcases inside with here | inside
      · cases part with
        | nil => exact List.nil_infix
        | cons first part =>
            have same : first = item := (List.cons_prefix_cons.mp here).1
            exact absurd (same ▸ List.mem_cons_self) (apart item List.mem_cons_self)
      · exact later inside

theorem infix_front_of_append {part rest back : List α} (apart : ∀ item ∈ back, item ∉ part)
    (inside : part <:+: rest ++ back) : part <:+: rest := by
  rw [← List.reverse_infix, List.reverse_append] at inside
  rw [← List.reverse_infix]
  apply infix_of_infix_append _ inside
  intro item member
  rw [List.mem_reverse] at member ⊢
  exact apart item member

theorem infix_of_mem_splitOn [DecidableEq α] {mark : α} {text piece : List α}
    (member : piece ∈ splitOn mark text) : piece <:+: text := by
  obtain ⟨first, pieces, split, whole⟩ := splitOn_eq_cons mark text
  rw [split, List.mem_cons] at member
  rw [whole]
  rcases member with rfl | later
  · exact (List.prefix_append _ _).isInfix
  · exact (List.suffix_cons mark piece).isInfix.trans (infix_of_mem_pieces later)

theorem hasPart_iff [DecidableEq α] {part text : List α} :
    hasPart part text = true ↔ part <:+: text := by
  induction text with
  | nil => rw [hasPart, List.isEmpty_iff, List.infix_nil]
  | cons item text ih =>
      rw [hasPart, Bool.or_eq_true, List.isPrefixOf_iff_prefix, ih, List.infix_cons_iff]

end Text

namespace Expression

theorem mentioned_congr {defined others : String → Option Int} {text : List Char}
    (same : ∀ name : String, name.toList <:+: text → others name = defined name) :
    mentioned text others = mentioned text defined := by
  funext name
  unfold mentioned
  by_cases inside : name.toList <:+: text
  · rw [same name inside]
  · have outside : Text.hasPart name.toList text = false := by
      rw [Bool.eq_false_iff]
      exact fun found => inside (Text.hasPart_iff.mp found)
    have nothing (found : Option Int) :
        found.filter (fun _ => Text.hasPart name.toList text) = none := by
      rw [outside]
      cases found with
      | none => rfl
      | some value => rfl
    rw [nothing, nothing]

/-- The value of a text depends only on the names that it has in it. -/
theorem assignedValue_congr {defined others : String → Option Int} {text : List Char}
    (same : ∀ name : String, name.toList <:+: resultName.toList ++ '=' :: text ++ ['\n'] →
      others name = defined name) :
    assignedValue others text = assignedValue defined text := by
  have sameExecution : Execution.ofText others text = Execution.ofText defined text := by
    unfold Execution.ofText
    simp only [mentioned_congr same]
  exact congrArg Execution.value sameExecution

end Expression

namespace Assembler

theorem infix_of_infix_chars {text : Glyphs} {part : List Char}
    (plain : Glyph.replacement ∉ part) (inside : part <:+: text.chars) :
    Glyphs.ofChars part <:+: text := by
  obtain ⟨glyphs, within, rfl⟩ := List.infix_map_iff.mp inside
  have same : glyphs = Glyphs.ofChars (Glyphs.chars glyphs) := Glyphs.eq_ofChars plain
  change Glyphs.ofChars (Glyphs.chars glyphs) <:+: text
  rw [← same]
  exact within

namespace Equates

section Numbers

variable {left right : Equates}
    (sameNumbers : ∀ name : String, name ≠ "LINENO" → right.number? name = left.number? name)
include sameNumbers

/-- An expression that does not mention the line number does not depend on it. -/
theorem evaluate_congr {expression : Glyphs} (absent : ¬ lineNumberName <:+: expression) :
    right.evaluate expression = left.evaluate expression := by
  have sameValue : Expression.assignedValue right.number? expression.chars =
      Expression.assignedValue left.number? expression.chars := by
    apply Expression.assignedValue_congr
    intro name inside
    apply sameNumbers
    rintro rfl
    have apart {chars : List Char}
        (others : chars.all (fun char => !"LINENO".toList.contains char) = true) :
        ∀ char ∈ chars, char ∉ "LINENO".toList := by
      intro char member inside
      have other := List.all_eq_true.mp others char member
      rw [List.contains_iff_mem.mpr inside] at other
      cases other
    have front : ∀ char ∈ Expression.resultName.toList ++ ['='], char ∉ "LINENO".toList :=
      apart (by decide)
    have behind : "LINENO".toList <:+: expression.chars ++ ['\n'] := by
      apply Text.infix_of_infix_append front
      rwa [List.append_assoc, List.singleton_append, ← List.cons_append, ← List.append_assoc]
    have back : ∀ char ∈ ['\n'], char ∉ "LINENO".toList := apart (by decide)
    exact absent (infix_of_infix_chars (by decide) (Text.infix_front_of_append back behind))
  unfold evaluate
  rw [sameValue]

theorem expandPiece_congr {piece : Glyphs} (absent : ¬ lineNumberName <:+: piece) :
    right.expandPiece piece = left.expandPiece piece := by
  unfold expandPiece
  split
  · rfl
  · rename_i expression rest isExpression
    have inside : expression <:+: piece := by
      unfold expressionIn? at isExpression
      split at isExpression
      · rename_i behind
        obtain ⟨rfl, -⟩ := Text.eq_of_splitLast? isExpression
        exact ⟨[.char '('], .char ')' :: rest, by simp⟩
      · cases isExpression
    rw [evaluate_congr sameNumbers fun mentions => absent (mentions.trans inside)]

theorem expandExpressions_congr {text : Glyphs} (absent : ¬ lineNumberName <:+: text) :
    right.expandExpressions text = left.expandExpressions text := by
  unfold expandExpressions
  split
  · rfl
  · rename_i first pieces split
    have same : pieces.map right.expandPiece = pieces.map left.expandPiece := by
      apply List.map_congr_left
      intro piece member
      have inside : piece <:+: text :=
        Text.infix_of_mem_splitOn (split ▸ List.mem_cons_of_mem first member)
      exact expandPiece_congr sameNumbers fun mentions => absent (mentions.trans inside)
    rw [same]

end Numbers

end Equates

def isFiller : Glyph → Bool
  | .char char => char.isDigit || char = '-' || char = ' '
  | .stray _ => false

/-- A text is made of another by putting fillers in the place of pieces. -/
inductive Filled : Glyphs → Glyphs → Prop
  | nil : Filled [] []
  | keep (glyph : Glyph) {text made : Glyphs} (rest : Filled text made) :
      Filled (glyph :: text) (glyph :: made)
  | fill (piece : Glyphs) {filler : Glyphs} (nonempty : filler ≠ [])
      (fills : ∀ glyph ∈ filler, isFiller glyph = true) {text made : Glyphs}
      (rest : Filled text made) : Filled (piece ++ text) (filler ++ made)

namespace Filled

theorem refl (text : Glyphs) : Filled text text := by
  induction text with
  | nil => exact .nil
  | cons glyph text ih => exact .keep glyph ih

theorem append {text made otherText otherMade : Glyphs} (first : Filled text made)
    (second : Filled otherText otherMade) :
    Filled (text ++ otherText) (made ++ otherMade) := by
  induction first with
  | nil => exact second
  | keep glyph rest ih => exact .keep glyph ih
  | fill piece nonempty fills rest ih =>
      rw [List.append_assoc, List.append_assoc]
      exact .fill piece nonempty fills ih

section Part

variable {part : Glyphs}

theorem prefix_of_made (plain : ∀ glyph ∈ part, isFiller glyph = false) {text made : Glyphs}
    (filled : Filled text made) (starts : part <+: made) : part <+: text := by
  induction filled generalizing part with
  | nil => exact starts
  | keep glyph rest ih =>
      cases part with
      | nil => exact List.nil_prefix
      | cons first part =>
          obtain ⟨rfl, behind⟩ := List.cons_prefix_cons.mp starts
          exact List.cons_prefix_cons.mpr
            ⟨rfl, ih (fun glyph member => plain glyph (List.mem_cons_of_mem _ member)) behind⟩
  | fill piece nonempty fills rest ih =>
      obtain ⟨filler, fillers, rfl⟩ := List.exists_cons_of_ne_nil nonempty
      cases part with
      | nil => exact List.nil_prefix
      | cons first part =>
          rw [List.cons_append] at starts
          have same : first = filler := (List.cons_prefix_cons.mp starts).1
          have fills := fills filler List.mem_cons_self
          rw [← same, plain first List.mem_cons_self] at fills
          cases fills

/-- What has no filler in it was there before. -/
theorem infix_of_made (plain : ∀ glyph ∈ part, isFiller glyph = false) {text made : Glyphs}
    (filled : Filled text made) (inside : part <:+: made) : part <:+: text := by
  induction filled with
  | nil => exact inside
  | @keep glyph text made rest ih =>
      rw [List.infix_cons_iff] at inside
      rcases inside with here | inside
      · exact (prefix_of_made plain (.keep glyph rest) here).isInfix
      · exact (ih inside).trans (List.suffix_cons glyph text).isInfix
  | @fill piece filler nonempty fills text made rest ih =>
      have apart : ∀ glyph ∈ filler, glyph ∉ part := by
        intro glyph member inPart
        have fills := fills glyph member
        rw [plain glyph inPart] at fills
        cases fills
      have behind := ih (Text.infix_of_infix_append apart inside)
      exact behind.trans (List.suffix_append piece text).isInfix

end Part
end Filled

theorem isFiller_of_mem_numberText {number : Int} {glyph : Glyph}
    (member : glyph ∈ numberText number) : isFiller glyph = true := by
  obtain ⟨char, inside, rfl⟩ := Glyphs.mem_ofString.mp member
  have digits {char : Char} {number : Nat} (inside : char ∈ Nat.toDigits 10 number) :
      char.isDigit = true := by
    obtain ⟨digit, small, rfl⟩ := Text.exists_digit_of_mem_toDigits (by omega : 1 < 10) inside
    have all : ∀ digit < 10, (Nat.digitChar digit).isDigit = true := by decide
    exact all digit small
  cases number with
  | ofNat number =>
      rw [Text.toList_toString_ofNat] at inside
      simp [isFiller, digits inside]
  | negSucc number =>
      rw [Text.toList_toString_negSucc] at inside
      rcases List.mem_cons.mp inside with rfl | inside
      · rfl
      · simp [isFiller, digits inside]

theorem Filled.number (piece : Glyphs) (number : Int) {text made : Glyphs}
    (rest : Filled text made) : Filled (piece ++ text) (numberText number ++ made) :=
  .fill piece (Glyphs.ofString_ne_nil (Text.toList_toString_ne_nil number))
    (fun _ member => isFiller_of_mem_numberText member) rest

theorem filled_expandCharacters (text : Glyphs) : Filled text (expandCharacters text) := by
  fun_induction expandCharacters text with
  | case1 first second third rest escape ih =>
      obtain ⟨rfl, -, rfl⟩ := escape
      unfold escapedLiteral
      split
      · exact .number [quote, backslash, second, quote] _ ih
      · exact (Filled.refl [quote, backslash, second, quote]).append ih
  | case2 first second third rest noEscape plain ih =>
      obtain ⟨-, rfl⟩ := plain
      unfold plainLiteral
      split
      · split
        · exact (Filled.refl [quote, first, quote]).append ih
        · exact .number [quote, first, quote] _ ih
      · exact (Filled.refl [quote, first, quote]).append ih
  | case3 first second third rest noEscape noLiteral ih => exact .keep quote ih
  | case4 first other =>
      unfold plainLiteral
      split
      · split
        · exact .refl _
        · rw [← List.append_nil (numberText _)]
          exact .number [quote, first, quote] _ .nil
      · exact .refl _
  | case5 first same => exact .refl _
  | case6 glyph rest noLiteral noShortLiteral ih => exact .keep glyph ih
  | case7 => exact .nil

theorem splitLast?_eq_none_iff {mark : Glyph} {text : Glyphs} :
    Text.splitLast? mark text = none ↔ mark ∉ text := by
  constructor
  · intro cut member
    obtain ⟨back, front, reversed, absent⟩ :=
      List.eq_append_cons_of_mem (List.mem_reverse.mpr member)
    have whole : text = front.reverse ++ mark :: back.reverse := by
      rw [← List.reverse_reverse text, reversed]
      simp
    rw [whole, Text.splitLast?_append_mark _ (by simpa using absent)] at cut
    cases cut
  · intro absent
    cases cut : Text.splitLast? mark text with
    | none => rfl
    | some parts =>
        obtain ⟨whole, -⟩ := Text.eq_of_splitLast? cut
        rw [whole] at absent
        simp at absent

/-- What becomes of a piece: nothing, or an expression gives way to its value. -/
theorem Equates.expandPiece_eq_ok {equates : Equates} {piece made : Glyphs}
    (expanded : equates.expandPiece piece = .ok made) :
    made = .char '$' :: piece ∧
        (piece.head? = some (.char '(') → .char ')' ∉ piece) ∨
      ∃ expression value rest, piece = .char '(' :: expression ++ .char ')' :: rest ∧
        .char ')' ∉ rest ∧ equates.evaluate expression = .ok value ∧
        made = numberText value.toInt32.toInt ++ rest := by
  unfold expandPiece at expanded
  split at expanded
  · rename_i noExpression
    cases expanded
    refine .inl ⟨rfl, fun opens => ?_⟩
    obtain ⟨behind, rfl⟩ := List.head?_eq_some_iff.mp opens
    have absent := splitLast?_eq_none_iff.mp noExpression
    simpa using absent
  · rename_i expression rest isExpression
    unfold expressionIn? at isExpression
    split at isExpression
    · obtain ⟨rfl, absent⟩ := Text.eq_of_splitLast? isExpression
      cases evaluated : equates.evaluate expression with
      | error fault =>
          rw [evaluated] at expanded
          cases expanded
      | ok value =>
          rw [evaluated] at expanded
          cases expanded
          exact .inr ⟨expression, value, rest, rfl, absent, evaluated, rfl⟩
    · cases isExpression

theorem filled_expandPiece {equates : Equates} {piece made : Glyphs}
    (expanded : equates.expandPiece piece = .ok made) : Filled (.char '$' :: piece) made := by
  obtain ⟨rfl, -⟩ | ⟨expression, value, rest, rfl, -, -, rfl⟩ :=
    Equates.expandPiece_eq_ok expanded
  · exact .refl _
  · have filled := Filled.number (expressionMark ++ expression ++ [.char ')'])
      value.toInt32.toInt (.refl rest)
    simpa [expressionMark] using filled

theorem joinPieces_eq_ok {pieces : List (Except Fault Glyphs)} {made : Glyphs}
    (joined : joinPieces pieces = .ok made) :
    ∃ texts : List Glyphs, pieces = texts.map .ok ∧ made = texts.flatten := by
  induction pieces generalizing made with
  | nil =>
      cases joined
      exact ⟨[], rfl, rfl⟩
  | cons piece rest ih =>
      cases piece with
      | error fault =>
          rw [joinPieces] at joined
          split at joined
          · cases joined
          · split at joined
            · cases joined
            · cases joined
      | ok piece =>
          rw [joinPieces] at joined
          cases later : joinPieces rest with
          | error fault =>
              rw [later] at joined
              cases joined
          | ok made =>
              rw [later] at joined
              cases joined
              obtain ⟨texts, rfl, rfl⟩ := ih later
              exact ⟨piece :: texts, rfl, rfl⟩

/-- Expressions are expanded piece by piece. -/
theorem Equates.expandExpressions_eq_ok_iff {equates : Equates} {text made first : Glyphs}
    {pieces : List Glyphs} (split : Text.splitOn (.char '$') text = first :: pieces) :
    equates.expandExpressions text = .ok made ↔
      ∃ texts : List Glyphs, pieces.map equates.expandPiece = texts.map .ok ∧
        made = first ++ texts.flatten := by
  simp only [expandExpressions, split]
  constructor
  · intro expanded
    cases joined : joinPieces (pieces.map equates.expandPiece) with
    | error fault =>
        rw [joined] at expanded
        cases expanded
    | ok later =>
        rw [joined] at expanded
        cases expanded
        obtain ⟨texts, same, rfl⟩ := joinPieces_eq_ok joined
        exact ⟨texts, same, rfl⟩
  · rintro ⟨texts, same, rfl⟩
    rw [same, joinPieces_map_ok]
    rfl

theorem filled_expandExpressions {equates : Equates} {text made : Glyphs}
    (expanded : equates.expandExpressions text = .ok made) : Filled text made := by
  obtain ⟨first, pieces, split, whole⟩ := Text.splitOn_eq_cons (.char '$') text
  obtain ⟨texts, expandedTexts, rfl⟩ :=
    (Equates.expandExpressions_eq_ok_iff split).mp expanded
  rw [whole]
  refine (Filled.refl first).append ?_
  clear split whole expanded
  induction pieces generalizing texts with
  | nil =>
      obtain rfl : texts = [] := by simpa using expandedTexts.symm
      exact .nil
  | cons piece pieces ih =>
      cases texts with
      | nil => cases expandedTexts
      | cons made texts =>
          obtain ⟨first, later⟩ := List.cons.inj expandedTexts
          exact (filled_expandPiece first).append (ih texts later)

theorem filled_separators (text : Glyphs) :
    Filled text (text.map fun glyph =>
      if glyph = .char ',' ∨ glyph = .char '\t' then .char ' ' else glyph) := by
  induction text with
  | nil => exact .nil
  | cons glyph text ih =>
      rw [List.map_cons]
      split
      · exact .fill [glyph] (List.cons_ne_nil _ []) (by simp [isFiller]) ih
      · exact .keep glyph ih

theorem Equates.wordsOf_eq_ok_iff {equates : Equates} {text : Glyphs} {words : List Glyphs} :
    equates.wordsOf text = .ok words ↔
      ∃ made, equates.expandExpressions (expandCharacters text) = .ok made ∧
        lineWords made = words := by
  unfold wordsOf
  cases equates.expandExpressions (expandCharacters text) with
  | error fault => simp [Except.map]
  | ok made => simp [Except.map]

/-- What the words of a line have in them is in the line, apart from fillers. -/
theorem infix_of_mem_wordsOf {equates : Equates} {text word part : Glyphs} {words : List Glyphs}
    (plain : ∀ glyph ∈ part, isFiller glyph = false)
    (written : equates.wordsOf text = .ok words) (member : word ∈ words)
    (inside : part <:+: word) : part <:+: text := by
  obtain ⟨made, expanded, rfl⟩ := Equates.wordsOf_eq_ok_iff.mp written
  have inLine := inside.trans (Text.infix_of_mem_splitOn (List.mem_of_mem_filter member))
  have inMade := (filled_separators made).infix_of_made plain inLine
  have inExpanded := (filled_expandExpressions expanded).infix_of_made plain inMade
  exact (filled_expandCharacters text).infix_of_made plain inExpanded

theorem plain_lineNumberName : ∀ glyph ∈ lineNumberName, isFiller glyph = false := by
  decide

theorem infix_of_uses {hidden word : Glyphs} (uses : Uses (· = hidden) word) :
    hidden <:+: word := by
  rcases uses with rfl | ⟨offset, base, cut, rfl | rfl⟩
  · exact List.infix_rfl
  · rw [(eq_of_indexed? cut).1]
    exact ⟨[], .char '(' :: base ++ [.char ')'], by simp⟩
  · rw [(eq_of_indexed? cut).1]
    exact ⟨offset ++ [.char '('], [.char ')'], by simp⟩

theorem infix_of_statementText (raw : Glyphs) :
    statementText raw.dropCarriageReturn <:+: raw := by
  have trimmed (text : Glyphs) : text.trim <:+: text := by
    have ends := List.dropWhile_suffix Glyph.isBlank (l := (text.dropWhile Glyph.isBlank).reverse)
    rw [← List.reverse_prefix, List.reverse_reverse] at ends
    exact ends.isInfix.trans (List.dropWhile_suffix _).isInfix
  have uncommented (mark : Glyph) (text : Glyphs) : Text.before mark text <:+: text :=
    (List.takeWhile_prefix _).isInfix
  have unreturned : raw.dropCarriageReturn <:+: raw := by
    unfold Glyphs.dropCarriageReturn
    split
    · exact (List.dropLast_prefix raw).isInfix
    · exact List.infix_rfl
  exact (trimmed _).trans ((uncommented _ _).trans ((uncommented _ _).trans unreturned))

theorem infix_of_mem_lines {source raw : Glyphs} (member : raw ∈ source.lines) :
    raw <:+: source := by
  unfold Glyphs.lines Text.splitBefore at member
  simp only at member
  split at member
  · exact Text.infix_of_mem_splitOn (List.dropLast_subset _ member)
  · exact Text.infix_of_mem_splitOn member

theorem infix_of_statement {source raw : Glyphs} (member : raw ∈ source.lines) :
    statementText raw.dropCarriageReturn <:+: source :=
  (infix_of_statementText raw).trans (infix_of_mem_lines member)

section Source

variable {predefined : Definitions} {source : Glyphs}
    (absent : ¬ lineNumberName <:+: source)
    (passes : (firstPass predefined source).2 = none)
include absent passes

/-- A source that does not mention the line number has no opcodes that use it. -/
theorem not_uses_lineNumberName {opcode : Opcode}
    (member : opcode ∈ (firstPass predefined source).1.opcodes.toList) {word : Glyphs}
    (inside : word ∈ opcode.words) : ¬ Uses (· = lineNumberName) word := by
  intro uses
  rcases Assembly.emitsFor_of_readLines (readLines_firstPass passes) (Array.mem_def.mpr member)
    with none | ⟨before, raw, after, middle, words, op, arguments, cut, -, written, emits⟩
  · simp [Assembly.start] at none
  · rw [emits.words_eq] at inside
    have inWords : word ∈ words := (List.dropWhile_suffix endsLabel).subset inside
    have isLine : raw ∈ source.lines := by simp [cut]
    have mentions := infix_of_mem_wordsOf plain_lineNumberName written inWords (infix_of_uses uses)
    exact absent (mentions.trans (infix_of_statement isLine))

end Source

end Assembler
end ReversibleMips
