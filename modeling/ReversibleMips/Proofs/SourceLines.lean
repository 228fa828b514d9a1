import ReversibleMips.Assembler.Line

/-!
# Lines that are read as they stand

A text that was joined from pieces without the mark is cut into the same pieces again.
On lines of a source this says which of them reach the encoder word by word: those
without comments, character literals and expressions.
-/

namespace ReversibleMips
namespace Text

variable {α : Type} [DecidableEq α] {mark : α}

theorem splitBehind_append_of_notMem {piece : List α} (absent : mark ∉ piece)
    (current rest : List α) :
    splitBehind mark current (piece ++ rest) =
      splitBehind mark (piece.reverse ++ current) rest := by
  induction piece generalizing current with
  | nil => rfl
  | cons item piece ih =>
      simp only [List.mem_cons, not_or] at absent
      simp only [List.cons_append, splitBehind, Ne.symm absent.1, if_false, ih absent.2,
        List.reverse_cons, List.append_assoc, List.nil_append]

/-- The first piece ends at the first mark. -/
theorem splitOn_append_mark {piece : List α} (absent : mark ∉ piece) (rest : List α) :
    splitOn mark (piece ++ mark :: rest) = piece :: splitOn mark rest := by
  simp [splitOn, splitBehind_append_of_notMem absent, splitBehind]

theorem splitOn_of_notMem {piece : List α} (absent : mark ∉ piece) :
    splitOn mark piece = [piece] := by
  have split := splitBehind_append_of_notMem absent [] []
  simpa [splitOn, splitBehind] using split

theorem splitOn_intercalate {piece : List α} {pieces : List (List α)}
    (absent : ∀ item ∈ piece :: pieces, mark ∉ item) :
    splitOn mark ([mark].intercalate (piece :: pieces)) = piece :: pieces := by
  induction pieces generalizing piece with
  | nil => simpa using splitOn_of_notMem (absent piece (by simp))
  | cons next pieces ih =>
      rw [List.intercalate_cons_cons, List.append_assoc, List.singleton_append,
        splitOn_append_mark (absent piece (by simp)),
        ih (fun item member => absent item (List.mem_cons_of_mem _ member))]

/-- Pieces that are not empty come back from their marks. -/
theorem splitBefore_intercalate {pieces : List (List α)}
    (absent : ∀ piece ∈ pieces, mark ∉ piece) (nonempty : ∀ piece ∈ pieces, piece ≠ []) :
    splitBefore mark ([mark].intercalate pieces) = pieces := by
  cases pieces with
  | nil => rfl
  | cons piece pieces =>
      have last : (piece :: pieces).getLast? ≠ some [] := by
        intro empty
        exact nonempty [] (List.mem_of_getLast? empty) rfl
      simp only [splitBefore, splitOn_intercalate absent, last, if_false]

theorem splitBehind_eq_cons (current text : List α) :
    ∃ first pieces, splitBehind mark current text = first :: pieces ∧
      current.reverse ++ text = first ++ pieces.flatMap (mark :: ·) := by
  induction text generalizing current with
  | nil => exact ⟨current.reverse, [], rfl, by simp⟩
  | cons item text ih =>
      by_cases marked : item = mark
      · obtain ⟨first, pieces, split, whole⟩ := ih []
        refine ⟨current.reverse, first :: pieces, ?_, ?_⟩
        · simp [splitBehind, marked, split]
        · simp only [List.reverse_nil, List.nil_append] at whole
          simp [marked, whole]
      · obtain ⟨first, pieces, split, whole⟩ := ih (item :: current)
        refine ⟨first, pieces, ?_, ?_⟩
        · simp [splitBehind, marked, split]
        · simpa using whole

/-- The pieces of a text make up the text. -/
theorem splitOn_eq_cons (mark : α) (text : List α) :
    ∃ first pieces, splitOn mark text = first :: pieces ∧
      text = first ++ pieces.flatMap (mark :: ·) := by
  obtain ⟨first, pieces, split, whole⟩ := @splitBehind_eq_cons α _ mark [] text
  exact ⟨first, pieces, split, by simpa using whole⟩

theorem splitBehind_eq {current text first : List α} {pieces : List (List α)}
    (split : splitOn mark text = first :: pieces) :
    splitBehind mark current text = (current.reverse ++ first) :: pieces := by
  induction text generalizing current first pieces with
  | nil =>
      cases split
      simp [splitBehind]
  | cons item text ih =>
      obtain ⟨start, later, startSplit, -⟩ := splitOn_eq_cons mark text
      rw [splitOn, splitBehind] at split
      rw [splitBehind]
      split at split
      · rename_i marked
        rw [if_pos marked]
        cases split
        simp
      · rename_i unmarked
        rw [if_neg unmarked]
        rw [ih startSplit] at split ⊢
        cases split
        simp

theorem splitBehind_append {current left right last first : List α} {front pieces : List (List α)}
    (leftSplit : splitBehind mark current left = front ++ [last])
    (rightSplit : splitOn mark right = first :: pieces) :
    splitBehind mark current (left ++ right) = front ++ (last ++ first) :: pieces := by
  induction left generalizing current front with
  | nil =>
      obtain ⟨rfl, rfl⟩ : front = [] ∧ last = current.reverse := by
        rw [splitBehind] at leftSplit
        cases front with
        | nil => simpa using leftSplit.symm
        | cons piece front => simp at leftSplit
      exact splitBehind_eq rightSplit
  | cons item left ih =>
      rw [splitBehind] at leftSplit
      rw [List.cons_append, splitBehind]
      split at leftSplit
      · rename_i marked
        rw [if_pos marked]
        cases front with
        | nil =>
            obtain ⟨start, later, startSplit, -⟩ := splitOn_eq_cons mark left
            rw [← splitOn, startSplit] at leftSplit
            cases leftSplit
        | cons piece front =>
            obtain ⟨rfl, later⟩ := List.cons.inj leftSplit
            rw [ih later]
            rfl
      · rename_i unmarked
        rw [if_neg unmarked]
        exact ih leftSplit

/-- The last piece of a text goes on with the first piece of what is behind it. -/
theorem splitOn_append {left right last first : List α} {front pieces : List (List α)}
    (leftSplit : splitOn mark left = front ++ [last])
    (rightSplit : splitOn mark right = first :: pieces) :
    splitOn mark (left ++ right) = front ++ (last ++ first) :: pieces :=
  splitBehind_append leftSplit rightSplit

theorem exists_splitOn_eq_concat (mark : α) (text : List α) :
    ∃ front last, splitOn mark text = front ++ [last] := by
  obtain ⟨first, pieces, split, -⟩ := splitOn_eq_cons mark text
  rw [split]
  exact ⟨_, _, (List.dropLast_concat_getLast (List.cons_ne_nil first pieces)).symm⟩

/-- A mark takes a text apart. -/
theorem splitOn_append_cons (left right : List α) :
    splitOn mark (left ++ mark :: right) = splitOn mark left ++ splitOn mark right := by
  obtain ⟨front, last, leftSplit⟩ := exists_splitOn_eq_concat mark left
  have rightSplit : splitOn mark (mark :: right) = [] :: splitOn mark right :=
    splitOn_append_mark List.not_mem_nil right
  rw [splitOn_append leftSplit rightSplit, leftSplit]
  simp

theorem splitOn_last_of_ne {text last : List α} {front : List (List α)}
    (split : splitOn mark text = front ++ [last]) (more : front ≠ [])
    {item : α} (ends : text.getLast? = some item) (unmarked : item ≠ mark) :
    last.getLast? = some item := by
  obtain ⟨first, pieces, otherSplit, whole⟩ := splitOn_eq_cons mark text
  obtain ⟨piece, front, rfl⟩ := List.exists_cons_of_ne_nil more
  rw [split, List.cons_append, List.cons.injEq] at otherSplit
  obtain ⟨rfl, rfl⟩ := otherSplit
  rw [whole, List.flatMap_append, List.flatMap_singleton, ← List.append_assoc,
    List.getLast?_append] at ends
  cases last with
  | nil =>
      have same : mark = item := by simpa using ends
      exact absurd same.symm unmarked
  | cons start last => simpa using ends

theorem notMem_of_mem_splitBehind {current text piece : List α} (absent : mark ∉ current)
    (member : piece ∈ splitBehind mark current text) : mark ∉ piece := by
  induction text generalizing current with
  | nil =>
      rw [splitBehind, List.mem_singleton] at member
      simpa [member] using absent
  | cons item text ih =>
      rw [splitBehind] at member
      split at member
      · rcases List.mem_cons.mp member with rfl | later
        · simpa using absent
        · exact ih List.not_mem_nil later
      · rename_i unmarked
        exact ih (by simp [absent, Ne.symm unmarked]) member

theorem notMem_of_mem_splitOn {text piece : List α} (member : piece ∈ splitOn mark text) :
    mark ∉ piece :=
  notMem_of_mem_splitBehind List.not_mem_nil member

omit [DecidableEq α] in
theorem infix_of_mem_pieces {first piece : List α} {pieces : List (List α)}
    (member : piece ∈ pieces) :
    mark :: piece <:+: first ++ pieces.flatMap (mark :: ·) := by
  obtain ⟨front, back, rfl⟩ := List.append_of_mem member
  exact ⟨first ++ front.flatMap (mark :: ·), back.flatMap (mark :: ·), by simp⟩

theorem before_of_notMem {text : List α} (absent : mark ∉ text) : before mark text = text := by
  induction text with
  | nil => rfl
  | cons item text ih =>
      simp only [List.mem_cons, not_or] at absent
      rw [before] at ih ⊢
      rw [List.takeWhile_cons_of_pos (by simpa using Ne.symm absent.1), ih absent.2]

/-- A text is cut at the last mark. -/
theorem splitLast?_append_mark {rest : List α} (front : List α) (absent : mark ∉ rest) :
    splitLast? mark (front ++ mark :: rest) = some (front, rest) := by
  have skip : ∀ item ∈ rest.reverse, decide (item ≠ mark) = true := by
    intro item member
    have inside : item ∈ rest := by simpa using member
    exact decide_eq_true fun same => absent (same ▸ inside)
  simp only [splitLast?, List.reverse_append, List.reverse_cons, List.append_assoc,
    List.singleton_append, List.takeWhile_append_of_pos skip, List.dropWhile_append_of_pos skip]
  simp

omit [DecidableEq α] in
/-- A text stays as it is if neither of its ends is to go. -/
theorem trimBoth_eq_self {goes : α → Bool} {text : List α}
    (first : ∀ item, text.head? = some item → goes item = false)
    (last : ∀ item, text.getLast? = some item → goes item = false) :
    trimBoth goes text = text := by
  have keep {items : List α} (stays : ∀ item, items.head? = some item → goes item = false) :
      items.dropWhile goes = items := by
    cases items with
    | nil => rfl
    | cons item items => simp [stays item rfl]
  rw [trimBoth, keep first, keep (by simpa using last), List.reverse_reverse]

theorem isBlank_of_isAlphanum {char : Char} (alphanumeric : char.isAlphanum = true) :
    isBlank char = false := by
  change ((decide ('A'.val ≤ char.val ∧ char.val ≤ 'Z'.val) ||
    (decide ('a'.val ≤ char.val) && decide (char.val ≤ 'z'.val))) ||
      (decide ('0'.val ≤ char.val) && decide (char.val ≤ '9'.val))) = true at alphanumeric
  simp only [Bool.or_eq_true, Bool.and_eq_true, decide_eq_true_eq, UInt32.le_iff_toNat_le]
    at alphanumeric
  change (0x41 ≤ char.toNat ∧ char.toNat ≤ 0x5a ∨ 0x61 ≤ char.toNat ∧ char.toNat ≤ 0x7a) ∨
    0x30 ≤ char.toNat ∧ char.toNat ≤ 0x39 at alphanumeric
  simp only [isBlank, Bool.or_eq_false_iff, Bool.and_eq_false_iff, decide_eq_false_iff_not]
  omega

end Text

namespace Glyphs

theorem ofString_append (left right : String) :
    ofString (left ++ right) = ofString left ++ ofString right := by
  simp [ofString, ofChars]

theorem chars_ofString (text : String) : chars (ofString text) = text.toList := by
  simp [chars, ofString, ofChars, Glyph.shown, Function.comp_def]

theorem mem_ofString {glyph : Glyph} {text : String} :
    glyph ∈ ofString text ↔ ∃ char ∈ text.toList, .char char = glyph := by
  simp [ofString, ofChars]

theorem length_ofString (text : String) : (ofString text).length = text.toList.length := by
  simp [ofString, ofChars]

theorem ofString_ne_nil {text : String} (nonempty : text.toList ≠ []) : ofString text ≠ [] := by
  simpa [ofString, ofChars] using nonempty

theorem ofString_intercalate (mark : String) (texts : List String) :
    ofString (mark.intercalate texts) = (ofString mark).intercalate (texts.map ofString) := by
  induction texts with
  | nil => rfl
  | cons text texts ih =>
      cases texts with
      | nil => simp
      | cons next texts =>
          rw [String.intercalate_cons_cons, ofString_append, ofString_append, ih]
          simp [List.intercalate_cons_cons]

/-- A glyph has at most four bytes. -/
theorem byteLength_le (text : Glyphs) : text.byteLength ≤ 4 * text.length := by
  have behind (total : Nat) :
      text.foldl (fun total glyph => total + glyph.byteLength) total ≤
        total + 4 * text.length := by
    induction text generalizing total with
    | nil => simp
    | cons glyph text ih =>
        have small : glyph.byteLength ≤ 4 := by
          cases glyph with
          | char value => exact value.utf8Size_le_four
          | stray byte => simp [Glyph.byteLength]
        have rest := ih (total + glyph.byteLength)
        simp only [List.foldl_cons, List.length_cons]
        omega
  simpa [byteLength] using behind 0

theorem words_of_notMem {word : Glyphs} (nonempty : word ≠ []) (absent : .char ' ' ∉ word) :
    words word = [word] := by
  simp [words, Text.splitOn_of_notMem absent, nonempty]

end Glyphs

namespace Assembler

theorem expandCharacters_eq_self {text : Glyphs} (absent : quote ∉ text) :
    expandCharacters text = text := by
  fun_induction expandCharacters text with
  | case1 first second third rest escape ih => simp [quote] at absent
  | case2 first second third rest noEscape plain ih => simp [quote] at absent
  | case3 first second third rest noEscape noLiteral ih => simp [quote] at absent
  | case4 first other => simp [quote] at absent
  | case5 first same => simp [quote] at absent
  | case6 glyph rest noLiteral noShortLiteral ih =>
      rw [ih (fun member => absent (List.mem_cons_of_mem _ member))]
  | case7 => rfl

def expressionMark : Glyphs := [.char '$', .char '(']

theorem joinPieces_map_ok (pieces : List Glyphs) :
    joinPieces (pieces.map .ok) = .ok pieces.flatten := by
  induction pieces with
  | nil => rfl
  | cons piece pieces ih => simp [joinPieces, ih, Except.map]

theorem expressionIn?_eq_none {text piece : Glyphs} (absent : ¬ expressionMark <:+: text)
    (inside : .char '$' :: piece <:+: text) : expressionIn? piece = none := by
  unfold expressionIn?
  split
  · rename_i rest
    have marked : expressionMark <+: .char '$' :: .char '(' :: rest := ⟨rest, rfl⟩
    exact absurd (marked.isInfix.trans inside) absent
  · rfl

theorem Equates.expandExpressions_eq_self (equates : Equates) {text : Glyphs}
    (absent : ¬ expressionMark <:+: text) : equates.expandExpressions text = .ok text := by
  obtain ⟨first, pieces, split, whole⟩ := Text.splitOn_eq_cons (.char '$') text
  have kept : pieces.map (fun piece => equates.expandPiece piece) =
      (pieces.map (.char '$' :: ·)).map .ok := by
    rw [List.map_map]
    apply List.map_congr_left
    intro piece member
    have inside : .char '$' :: piece <:+: text := by
      rw [whole]
      exact Text.infix_of_mem_pieces member
    simp only [expandPiece, expressionIn?_eq_none absent inside, Function.comp_apply]
  simp only [expandExpressions, split, kept, joinPieces_map_ok, Except.map]
  rw [whole, List.flatMap_def]

/-- A glyph that stands between words. -/
def IsSeparator (glyph : Glyph) : Prop :=
  glyph = .char ' ' ∨ glyph = .char ',' ∨ glyph = .char '\t'

instance (glyph : Glyph) : Decidable (IsSeparator glyph) := inferInstanceAs (Decidable (_ ∨ _))

def Unbroken (word : Glyphs) : Prop := ∀ glyph ∈ word, ¬ IsSeparator glyph

theorem Unbroken.map_separators {word : Glyphs} (unbroken : Unbroken word) :
    (word.map fun glyph => if glyph = .char ',' ∨ glyph = .char '\t' then .char ' ' else glyph) =
      word := by
  have same : ∀ glyph ∈ word,
      (if glyph = .char ',' ∨ glyph = .char '\t' then .char ' ' else glyph) = glyph := by
    intro glyph member
    exact if_neg fun separates => unbroken glyph member (.inr separates)
  exact (List.map_congr_left same).trans (List.map_id' word)

theorem Unbroken.noBlank {word : Glyphs} (unbroken : Unbroken word) : .char ' ' ∉ word :=
  fun member => unbroken _ member (.inl rfl)

/-- A separator takes a line apart. -/
theorem lineWords_append_separator {glyph : Glyph} (separates : IsSeparator glyph)
    (left right : Glyphs) :
    lineWords (left ++ glyph :: right) = lineWords left ++ lineWords right := by
  have blank : (if glyph = .char ',' ∨ glyph = .char '\t' then .char ' ' else glyph) =
      .char ' ' := by
    rcases separates with rfl | rfl | rfl
    · rfl
    · rfl
    · rfl
  rw [lineWords, lineWords, lineWords, List.map_append, List.map_cons, blank, Glyphs.words,
    Text.splitOn_append_cons, List.filter_append, Glyphs.words, Glyphs.words]

theorem lineWords_cons_separator {glyph : Glyph} (separates : IsSeparator glyph)
    (rest : Glyphs) : lineWords (glyph :: rest) = lineWords rest :=
  lineWords_append_separator separates [] rest

theorem lineWords_separators {text : Glyphs} (separate : ∀ glyph ∈ text, IsSeparator glyph)
    (left : Glyphs) : lineWords (left ++ text) = lineWords left := by
  induction text generalizing left with
  | nil => rw [List.append_nil]
  | cons glyph text ih =>
      have later := ih fun glyph member => separate glyph (List.mem_cons_of_mem _ member)
      have none : lineWords text = [] := later []
      rw [lineWords_append_separator (separate glyph List.mem_cons_self), none, List.append_nil]

/-- A word at the end of a line goes on from what is in front of it. -/
theorem lineWords_append_unbroken (text : Glyphs) :
    ∃ front start, ∀ word, word ≠ [] → Unbroken word →
      lineWords (text ++ word) = front ++ [start ++ word] := by
  obtain ⟨pieces, start, split⟩ := Text.exists_splitOn_eq_concat (Glyph.char ' ')
    (text.map fun glyph =>
      if glyph = .char ',' ∨ glyph = .char '\t' then Glyph.char ' ' else glyph)
  refine ⟨pieces.filter fun word => !word.isEmpty, start, fun word nonempty unbroken => ?_⟩
  have wordSplit := Text.splitOn_of_notMem unbroken.noBlank
  rw [lineWords, List.map_append, unbroken.map_separators, Glyphs.words,
    Text.splitOn_append split wordSplit, List.filter_append]
  simp [nonempty]

theorem lineWords_unbroken {word : Glyphs} (nonempty : word ≠ []) (unbroken : Unbroken word) :
    lineWords word = [word] := by
  rw [lineWords, unbroken.map_separators, Glyphs.words_of_notMem nonempty unbroken.noBlank]

/-- A glyph that separates no words and starts no comment or literal. -/
def isBareGlyph : Glyph → Bool
  | .char char => char.isAlphanum || "-.$()".toList.contains char
  | .stray _ => false

/-- A word that reading leaves as it is, whatever comes after it. -/
structure BareWord (word : Glyphs) : Prop where
  nonempty : word ≠ []
  bare : ∀ glyph ∈ word, isBareGlyph glyph = true
  inert : ∀ rest, expressionMark <:+: word ++ rest → expressionMark <:+: rest

def bareLine (mnemonic : Glyphs) (operands : List Glyphs) : Glyphs :=
  mnemonic ++ .char ' ' :: [.char ',', .char ' '].intercalate operands

/-- A word without dollar signs starts no expression. -/
theorem inert_of_notMem {word : Glyphs} (absent : .char '$' ∉ word) (rest : Glyphs)
    (inside : expressionMark <:+: word ++ rest) : expressionMark <:+: rest := by
  induction word with
  | nil => exact inside
  | cons glyph word ih =>
      simp only [List.mem_cons, not_or] at absent
      rw [List.cons_append, List.infix_cons_iff] at inside
      rcases inside with here | later
      · exact absurd (List.cons_prefix_cons.mp here).1 absent.1
      · exact ih absent.2 later

theorem BareWord.append {front back : Glyphs} (first : BareWord front) (second : BareWord back) :
    BareWord (front ++ back) where
  nonempty := by simp [first.nonempty]
  bare := by
    intro glyph member
    rcases List.mem_append.mp member with inFront | inBack
    · exact first.bare glyph inFront
    · exact second.bare glyph inBack
  inert := by
    intro rest inside
    rw [List.append_assoc] at inside
    exact second.inert rest (first.inert _ inside)

theorem BareWord.notMem {word : Glyphs} {glyph : Glyph} (written : BareWord word)
    (other : isBareGlyph glyph = false) : glyph ∉ word := by
  intro member
  rw [written.bare glyph member] at other
  cases other

theorem BareWord.unbroken {word : Glyphs} (written : BareWord word) : Unbroken word := by
  rintro glyph member (rfl | rfl | rfl)
  · exact written.notMem (by decide) member
  · exact written.notMem (by decide) member
  · exact written.notMem (by decide) member

theorem BareWord.lineWords_eq {word : Glyphs} (written : BareWord word) :
    lineWords word = [word] :=
  lineWords_unbroken written.nonempty written.unbroken

theorem BareWord.lineWords_append {glyph : Glyph} {word : Glyphs} (written : BareWord word)
    (separates : IsSeparator glyph) (rest : Glyphs) :
    lineWords (word ++ glyph :: rest) = word :: lineWords rest := by
  rw [lineWords_append_separator separates, written.lineWords_eq, List.singleton_append]

section BareLine

variable {mnemonic : Glyphs} {operands : List Glyphs}

theorem inert_operands (written : ∀ operand ∈ operands, BareWord operand) :
    ¬ expressionMark <:+: [Glyph.char ',', .char ' '].intercalate operands := by
  induction operands with
  | nil => simp [expressionMark]
  | cons operand operands ih =>
      have first := written operand (by simp)
      have others := ih fun operand member => written operand (List.mem_cons_of_mem _ member)
      intro inside
      cases operands with
      | nil =>
          have none := first.inert [] (by simpa using inside)
          simp [expressionMark] at none
      | cons next operands =>
          rw [List.intercalate_cons_cons, List.append_assoc] at inside
          exact others (inert_of_notMem (by simp) _ (first.inert _ inside))

theorem lineWords_operands (written : ∀ operand ∈ operands, BareWord operand) :
    lineWords ([Glyph.char ',', .char ' '].intercalate operands) = operands := by
  induction operands with
  | nil => rfl
  | cons operand operands ih =>
      have first := written operand (by simp)
      have others := ih fun operand member => written operand (List.mem_cons_of_mem _ member)
      cases operands with
      | nil => simpa using first.lineWords_eq
      | cons next operands =>
          rw [List.intercalate_cons_cons, List.append_assoc, List.cons_append,
            first.lineWords_append (.inr (.inl rfl)), List.singleton_append,
            lineWords_cons_separator (.inl rfl), others]

theorem mem_operands {glyph : Glyph} (written : ∀ operand ∈ operands, BareWord operand)
    (member : glyph ∈ [Glyph.char ',', .char ' '].intercalate operands) :
    isBareGlyph glyph = true ∨ glyph = .char ',' ∨ glyph = .char ' ' := by
  induction operands with
  | nil => cases member
  | cons operand operands ih =>
      have first := (written operand (by simp)).bare glyph
      have others := ih fun operand member => written operand (List.mem_cons_of_mem _ member)
      cases operands with
      | nil => exact .inl (first (by simpa using member))
      | cons next operands =>
          rw [List.intercalate_cons_cons] at member
          simp only [List.mem_append, List.mem_cons, List.not_mem_nil, or_false] at member
          rcases member with (inFirst | separator) | later
          · exact .inl (first inFirst)
          · exact .inr separator
          · exact others later

theorem mem_bareLine {glyph : Glyph} (first : BareWord mnemonic)
    (written : ∀ operand ∈ operands, BareWord operand)
    (member : glyph ∈ bareLine mnemonic operands) :
    isBareGlyph glyph = true ∨ glyph = .char ',' ∨ glyph = .char ' ' := by
  rcases List.mem_append.mp member with inMnemonic | behind
  · exact .inl (first.bare glyph inMnemonic)
  · rcases List.mem_cons.mp behind with blank | inOperands
    · exact .inr (.inr blank)
    · exact mem_operands written inOperands

/-- No other glyph stands in a bare line. -/
theorem notMem_bareLine {glyph : Glyph} (first : BareWord mnemonic)
    (written : ∀ operand ∈ operands, BareWord operand) (other : isBareGlyph glyph = false)
    (noComma : glyph ≠ .char ',') (noBlank : glyph ≠ .char ' ') :
    glyph ∉ bareLine mnemonic operands := by
  intro member
  rcases mem_bareLine first written member with bare | comma | blank
  · rw [bare] at other
    cases other
  · exact noComma comma
  · exact noBlank blank

/-- The words of a bare line are its mnemonic and its operands. -/
theorem wordsOf_bareLine (equates : Equates) (first : BareWord mnemonic)
    (written : ∀ operand ∈ operands, BareWord operand) :
    equates.wordsOf (bareLine mnemonic operands) = .ok (mnemonic :: operands) := by
  have noQuote : quote ∉ bareLine mnemonic operands :=
    notMem_bareLine first written (by decide) (by decide) (by decide)
  have noExpression : ¬ expressionMark <:+: bareLine mnemonic operands := by
    intro inside
    have behind := first.inert _ inside
    exact inert_operands written (inert_of_notMem (by simp) _ (List.singleton_append ▸ behind))
  rw [Equates.wordsOf, expandCharacters_eq_self noQuote,
    equates.expandExpressions_eq_self noExpression]
  simp only [Except.map, bareLine, first.lineWords_append (.inl rfl), lineWords_operands written]

theorem operands_eq_append (some : operands ≠ []) :
    ∃ front, ∃ operand ∈ operands,
      [Glyph.char ',', .char ' '].intercalate operands = front ++ operand := by
  induction operands with
  | nil => exact absurd rfl some
  | cons operand operands ih =>
      cases operands with
      | nil => exact ⟨[], operand, by simp, by simp⟩
      | cons next operands =>
          obtain ⟨front, last, member, whole⟩ := ih (by simp)
          refine ⟨operand ++ [.char ',', .char ' '] ++ front, last, ?_, ?_⟩
          · exact List.mem_cons_of_mem _ member
          · rw [List.intercalate_cons_cons, whole, ← List.append_assoc]

/-- A bare line with operands ends with a bare glyph. -/
theorem getLast?_bareLine (mnemonic : Glyphs) (nonempty : operands ≠ [])
    (written : ∀ operand ∈ operands, BareWord operand) {glyph : Glyph}
    (last : (bareLine mnemonic operands).getLast? = some glyph) : isBareGlyph glyph = true := by
  obtain ⟨front, operand, member, whole⟩ := operands_eq_append nonempty
  have final := written operand member
  rw [bareLine, whole, ← List.cons_append, ← List.append_assoc, List.getLast?_append,
    List.getLast?_eq_some_getLast final.nonempty, Option.some_or] at last
  exact final.bare glyph (Option.some.inj last ▸ List.getLast_mem _)

theorem isBlank_of_isBareGlyph {glyph : Glyph} (bare : isBareGlyph glyph = true) :
    glyph.isBlank = false := by
  cases glyph with
  | stray byte => rfl
  | char char =>
      simp only [isBareGlyph, Bool.or_eq_true] at bare
      rcases bare with alphanumeric | listed
      · exact Text.isBlank_of_isAlphanum alphanumeric
      · have all : "-.$()".toList.all (fun char => !Text.isBlank char) = true := by decide
        have stays := List.all_eq_true.mp all char (List.contains_iff_mem.mp listed)
        simpa [Glyph.isBlank] using stays

/-- A bare line has no comment and no blanks around it. -/
theorem statementText_bareLine (first : BareWord mnemonic) (nonempty : operands ≠ [])
    (written : ∀ operand ∈ operands, BareWord operand) :
    statementText (bareLine mnemonic operands) = bareLine mnemonic operands := by
  have noSemicolon : .char ';' ∉ bareLine mnemonic operands :=
    notMem_bareLine first written (by decide) (by decide) (by decide)
  have noHash : .char '#' ∉ bareLine mnemonic operands :=
    notMem_bareLine first written (by decide) (by decide) (by decide)
  rw [statementText, Text.before_of_notMem noSemicolon, Text.before_of_notMem noHash]
  apply Text.trimBoth_eq_self
  · intro glyph starts
    apply isBlank_of_isBareGlyph
    obtain ⟨letter, mnemonicRest, rfl⟩ := List.exists_cons_of_ne_nil first.nonempty
    exact first.bare glyph (by simp_all [bareLine])
  · intro glyph ends
    exact isBlank_of_isBareGlyph (getLast?_bareLine mnemonic nonempty written ends)

theorem dropCarriageReturn_bareLine (mnemonic : Glyphs) (nonempty : operands ≠ [])
    (written : ∀ operand ∈ operands, BareWord operand) :
    (bareLine mnemonic operands).dropCarriageReturn = bareLine mnemonic operands := by
  rw [Glyphs.dropCarriageReturn, if_neg]
  intro ends
  exact absurd (getLast?_bareLine mnemonic nonempty written ends) (by decide)

theorem length_operands_le {bound : Nat} (short : ∀ operand ∈ operands, operand.length ≤ bound) :
    ([Glyph.char ',', .char ' '].intercalate operands).length ≤
      operands.length * (bound + 2) := by
  induction operands with
  | nil => simp
  | cons operand operands ih =>
      have first := short operand (by simp)
      have others := ih fun operand member => short operand (List.mem_cons_of_mem _ member)
      cases operands with
      | nil =>
          simp only [List.intercalate_singleton, List.length_cons, List.length_nil]
          omega
      | cons next operands =>
          rw [List.intercalate_cons_cons]
          simp only [List.length_append, List.length_cons, List.length_nil, Nat.succ_mul]
            at others ⊢
          omega

end BareLine

end Assembler
end ReversibleMips
