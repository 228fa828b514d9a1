import ReversibleMips.Proofs.MentionedWords

/-!
# Replacing an operand of a line

A line is read from its text, and an operand that is replaced there changes the text on both
sides of a place.  What is in front and what is behind is read as before, if the operand is
set off from both.  There is one exception: an expression reaches to the last parenthesis in
front of the next dollar sign, so the dollar sign of a register is what ends it.
-/

namespace ReversibleMips

namespace Assembler

/-- What a line has behind a place, without the comment and the blanks at the end. -/
def remainder (back : Glyphs) : Glyphs :=
  ((Text.before (.char '#') (Text.before (.char ';') (Glyphs.dropCarriageReturn back))).reverse
    |>.dropWhile Glyph.isBlank).reverse

/-- A word has nothing in it that ends a line or goes at its ends. -/
structure Solid (word : Glyphs) : Prop where
  nonempty : word ≠ []
  noSemicolon : .char ';' ∉ word
  noHash : .char '#' ∉ word
  dense : ∀ glyph ∈ word, glyph.isBlank = false

theorem dropCarriageReturn_append {text back : Glyphs}
    (ends : text.getLast? ≠ some (.char '\r')) :
    Glyphs.dropCarriageReturn (text ++ back) = text ++ Glyphs.dropCarriageReturn back := by
  unfold Glyphs.dropCarriageReturn
  cases back with
  | nil => simp [ends]
  | cons glyph back =>
      rw [List.getLast?_append_of_ne_nil _ (List.cons_ne_nil glyph back)]
      split
      · rw [List.dropLast_append_of_ne_nil (List.cons_ne_nil glyph back)]
      · rfl

theorem before_append {mark : Glyph} {text : Glyphs} (absent : mark ∉ text) (back : Glyphs) :
    Text.before mark (text ++ back) = text ++ Text.before mark back := by
  apply List.takeWhile_append_of_pos
  intro glyph member
  exact decide_eq_true fun same => absent (same ▸ member)

theorem dropWhile_append_solid {word : Glyphs} (solid : Solid word) (front back : Glyphs) :
    (front ++ (word ++ back)).dropWhile Glyph.isBlank =
      front.dropWhile Glyph.isBlank ++ (word ++ back) := by
  obtain ⟨glyph, rest, rfl⟩ := List.exists_cons_of_ne_nil solid.nonempty
  have stays := solid.dense glyph List.mem_cons_self
  rw [List.dropWhile_append]
  split
  · rename_i empty
    rw [List.isEmpty_iff.mp empty, List.cons_append, List.dropWhile_cons_of_neg (by simp [stays]),
      List.nil_append]
  · rfl

theorem Solid.reverse {word : Glyphs} (solid : Solid word) : Solid word.reverse where
  nonempty := by simpa using solid.nonempty
  noSemicolon := by simpa using solid.noSemicolon
  noHash := by simpa using solid.noHash
  dense := by simpa using solid.dense

/-- A word of a line is not changed by what goes around it. -/
theorem statementText_solid {front word : Glyphs} (solid : Solid word)
    (noSemicolon : .char ';' ∉ front) (noHash : .char '#' ∉ front) (back : Glyphs) :
    statementText (Glyphs.dropCarriageReturn (front ++ word ++ back)) =
      front.dropWhile Glyph.isBlank ++ (word ++ remainder back) := by
  have ends : (front ++ word).getLast? ≠ some (.char '\r') := by
    intro ends
    rw [List.getLast?_append_of_ne_nil _ solid.nonempty] at ends
    exact absurd (solid.dense _ (List.mem_of_getLast? ends)) (by decide)
  have semicolonAbsent : .char ';' ∉ front ++ word := by simp [noSemicolon, solid.noSemicolon]
  have hashAbsent : .char '#' ∉ front ++ word := by simp [noHash, solid.noHash]
  rw [statementText, dropCarriageReturn_append ends, before_append semicolonAbsent,
    before_append hashAbsent, Glyphs.trim, Text.trimBoth, List.append_assoc,
    dropWhile_append_solid solid]
  simp only [List.reverse_append, List.append_assoc]
  rw [dropWhile_append_solid solid.reverse]
  simp [remainder]

theorem expandCharacters_cons {glyph : Glyph} (other : glyph ≠ quote) (rest : Glyphs) :
    expandCharacters (glyph :: rest) = glyph :: expandCharacters rest := by
  rw [expandCharacters.eq_3]
  · intro first second third later same
    exact absurd same other
  · intro first same
    exact absurd same other

theorem expandCharacters_append_of_notMem {word : Glyphs} (absent : quote ∉ word)
    (rest : Glyphs) : expandCharacters (word ++ rest) = word ++ expandCharacters rest := by
  induction word with
  | nil => rfl
  | cons glyph word ih =>
      rw [List.mem_cons, not_or] at absent
      rw [List.cons_append, expandCharacters_cons (Ne.symm absent.1), ih absent.2,
        List.cons_append]

theorem expandCharacters_quote (first second third : Glyph) (rest : Glyphs) :
    expandCharacters (quote :: first :: second :: third :: rest) =
      if first = backslash ∧ second ≠ quote ∧ third = quote then
        escapedLiteral second ++ expandCharacters rest
      else if first ≠ quote ∧ second = quote then
        plainLiteral first ++ expandCharacters (third :: rest)
      else
        quote :: expandCharacters (first :: second :: third :: rest) := by
  rw [quote, expandCharacters.eq_1]
  rfl

/-- A quote stays if no other quote comes where its literal would end. -/
theorem expandCharacters_quote_kept {rest : Glyphs} (noPlain : rest[1]? ≠ some quote)
    (noEscape : rest[0]? = some backslash → rest[2]? ≠ some quote) :
    expandCharacters (quote :: rest) = quote :: expandCharacters rest := by
  rcases rest with _ | ⟨first, _ | ⟨second, _ | ⟨third, rest⟩⟩⟩
  · rw [expandCharacters.eq_3]
    · simp
    · simp
  · rw [expandCharacters.eq_3]
    · simp
    · simp
  · rw [expandCharacters.eq_3]
    · simp
    · intro found _ same
      simp only [List.cons.injEq] at same
      exact noPlain (by simp [same.2.1, quote])
  · have notPlain : second ≠ quote := by simpa using noPlain
    have notEscape : first = backslash → third ≠ quote := by simpa using noEscape
    rw [expandCharacters_quote, if_neg, if_neg]
    · exact fun plain => notPlain plain.2
    · exact fun escape => notEscape escape.1 escape.2.2

theorem getLast?_of_suffix {rest text : Glyphs} (suffix : rest <:+ text) {glyph : Glyph}
    (last : rest.getLast? = some glyph) : text.getLast? = some glyph := by
  obtain ⟨front, rfl⟩ := suffix
  rw [List.getLast?_append, last, Option.some_or]

/-- Literals do not go beyond a place in front of which there is neither a quote nor a
backslash and behind which there is no quote. -/
theorem expandCharacters_append {front back : Glyphs}
    (ends : ∀ glyph, front.getLast? = some glyph → glyph ≠ quote ∧ glyph ≠ backslash)
    (starts : back.head? ≠ some quote) :
    expandCharacters (front ++ back) = expandCharacters front ++ expandCharacters back := by
  have behind {rest : Glyphs} (suffix : rest <:+ front) :
      ∀ glyph, rest.getLast? = some glyph → glyph ≠ quote ∧ glyph ≠ backslash :=
    fun glyph last => ends glyph (getLast?_of_suffix suffix last)
  fun_induction expandCharacters front with
  | case1 first second third rest escape ih =>
      have suffix : rest <:+ quote :: first :: second :: third :: rest :=
        ⟨[quote, first, second, third], rfl⟩
      have later := ih (behind suffix) fun inner => behind (inner.trans suffix)
      change expandCharacters (quote :: first :: second :: third :: (rest ++ back)) = _
      rw [expandCharacters_quote, if_pos escape, later, List.append_assoc]
  | case2 first second third rest noEscape plain ih =>
      have suffix : third :: rest <:+ quote :: first :: second :: third :: rest :=
        ⟨[quote, first, second], rfl⟩
      have later := ih (behind suffix) fun inner => behind (inner.trans suffix)
      change expandCharacters (quote :: first :: second :: third :: (rest ++ back)) = _
      rw [expandCharacters_quote, if_neg noEscape, if_pos plain, ← List.cons_append, later,
        List.append_assoc]
  | case3 first second third rest noEscape noLiteral ih =>
      have suffix : first :: second :: third :: rest <:+
          quote :: first :: second :: third :: rest := ⟨[quote], rfl⟩
      have later := ih (behind suffix) fun inner => behind (inner.trans suffix)
      change expandCharacters (quote :: first :: second :: third :: (rest ++ back)) = _
      rw [expandCharacters_quote, if_neg noEscape, if_neg noLiteral, List.cons_append, ← later]
      rfl
  | case4 first other => exact absurd rfl (ends quote rfl).1
  | case5 first same => exact absurd rfl (ends quote rfl).1
  | case6 glyph rest noLiteral noShortLiteral ih =>
      have suffix : rest <:+ glyph :: rest := List.suffix_cons glyph rest
      have later := ih (behind suffix) fun inner => behind (inner.trans suffix)
      rw [List.cons_append, List.cons_append, ← later]
      by_cases isQuote : glyph = quote
      · -- The literal would have to end with the first glyph behind the place.
        subst isQuote
        rcases rest with _ | ⟨first, _ | ⟨second, _ | ⟨third, rest⟩⟩⟩
        · exact absurd rfl (ends quote rfl).1
        · apply expandCharacters_quote_kept
          · simpa [List.head?_eq_getElem?] using starts
          · intro escape
            exact absurd (by simpa using escape) (ends first rfl).2
        · apply expandCharacters_quote_kept
          · simpa using (ends second rfl).1
          · intro _
            simpa [List.head?_eq_getElem?] using starts
        · exact (noLiteral first second third rest rfl rfl).elim
      · exact expandCharacters_cons isQuote _
  | case7 => rfl

/-- What ends a text and is no quote ends it afterwards. -/
theorem getLast?_expandCharacters {text : Glyphs} {glyph : Glyph}
    (ends : text.getLast? = some glyph) (other : glyph ≠ quote) :
    (expandCharacters text).getLast? = some glyph := by
  fun_induction expandCharacters text with
  | case1 first second third rest escape ih =>
      have more : rest ≠ [] := by
        rintro rfl
        rw [escape.2.2] at ends
        exact other (Option.some.inj ends).symm
      have restEnds : rest.getLast? = some glyph := by
        rw [← ends, ← List.getLast?_append_of_ne_nil [quote, first, second, third] more]
        rfl
      exact getLast?_of_suffix (List.suffix_append _ _) (ih restEnds)
  | case2 first second third rest noEscape plain ih =>
      exact getLast?_of_suffix (List.suffix_append _ _) (ih ends)
  | case3 first second third rest noEscape noLiteral ih =>
      exact getLast?_of_suffix (List.suffix_cons _ _) (ih ends)
  | case4 first => exact absurd (Option.some.inj ends).symm other
  | case5 first => exact absurd (Option.some.inj ends).symm other
  | case6 first rest noLiteral noShortLiteral ih =>
      cases rest with
      | nil => exact ends
      | cons second rest => exact getLast?_of_suffix (List.suffix_cons _ _) (ih ends)
  | case7 => cases ends

theorem expressionIn?_of_head {piece : Glyphs} (other : piece.head? ≠ some (.char '(')) :
    expressionIn? piece = none := by
  unfold expressionIn?
  split
  · exact absurd rfl other
  · rfl

section Piece

variable {equates : Equates} {piece made : Glyphs}

/-- A piece goes on with what does not close its expression. -/
theorem Equates.expandPiece_append {rest : Glyphs} (nonempty : piece ≠ [])
    (closed : piece.head? = some (.char '(') → .char ')' ∉ rest)
    (expanded : equates.expandPiece piece = .ok made) :
    equates.expandPiece (piece ++ rest) = .ok (made ++ rest) := by
  obtain ⟨rfl, unclosed⟩ | ⟨expression, value, behind, rfl, absent, evaluated, rfl⟩ :=
    expandPiece_eq_ok expanded
  · have none : expressionIn? (piece ++ rest) = none := by
      obtain ⟨first, behind, rfl⟩ := List.exists_cons_of_ne_nil nonempty
      by_cases opens : first = .char '('
      · subst opens
        have absent : .char ')' ∉ behind ++ rest := by
          have inPiece := unclosed rfl
          have inRest := closed rfl
          simp only [List.mem_cons, not_or] at inPiece
          simp [inPiece.2, inRest]
        exact splitLast?_eq_none_iff.mpr absent
      · exact expressionIn?_of_head (by simpa using opens)
    rw [expandPiece, none, List.cons_append]
  · have inRest := closed rfl
    have cut : expressionIn? (.char '(' :: expression ++ .char ')' :: behind ++ rest) =
        some (expression, behind ++ rest) := by
      rw [List.cons_append, List.cons_append, List.append_assoc, List.cons_append]
      exact Text.splitLast?_append_mark expression (by simp [absent, inRest])
    rw [expandPiece, cut]
    simp only [evaluated, Except.map, List.append_assoc]

/-- What ends a piece and is no parenthesis ends it afterwards. -/
theorem Equates.getLast?_expandPiece {glyph : Glyph} (ends : piece.getLast? = some glyph)
    (other : glyph ≠ .char ')') (expanded : equates.expandPiece piece = .ok made) :
    made.getLast? = some glyph := by
  obtain ⟨rfl, -⟩ | ⟨expression, value, rest, rfl, -, -, rfl⟩ := expandPiece_eq_ok expanded
  · exact getLast?_of_suffix (List.suffix_cons _ _) ends
  · have more : rest ≠ [] := by
      rintro rfl
      rw [List.getLast?_append, List.getLast?_singleton, Option.some_or] at ends
      exact other (Option.some.inj ends).symm
    rw [List.getLast?_append, List.getLast?_cons_of_ne_nil more] at ends
    obtain ⟨last, isLast⟩ := Option.ne_none_iff_exists'.mp (mt List.getLast?_eq_none_iff.mp more)
    rw [isLast, Option.some_or] at ends
    rw [List.getLast?_append, isLast, ends, Option.some_or]

end Piece

/-- The last dollar sign of a text starts an expression, or would if it were closed. -/
def OpensExpression (text : Glyphs) : Prop :=
  (Text.splitOn (.char '$') text).tail.getLast?.bind List.head? = some (.char '(')

instance (text : Glyphs) : Decidable (OpensExpression text) :=
  inferInstanceAs (Decidable (_ = _))

/-- There is a parenthesis in a text in front of its first dollar sign. -/
def ClosesExpression (text : Glyphs) : Prop := .char ')' ∈ Text.before (.char '$') text

instance (text : Glyphs) : Decidable (ClosesExpression text) :=
  inferInstanceAs (Decidable (_ ∈ _))

theorem opensExpression_of_splitOn {text first last : Glyphs} {front : List Glyphs}
    (split : Text.splitOn (.char '$') text = first :: front ++ [last])
    (opens : last.head? = some (.char '(')) : OpensExpression text := by
  rw [OpensExpression, split, List.cons_append, List.tail_cons, List.getLast?_concat]
  exact opens

theorem closesExpression_of_splitOn {text first : Glyphs} {pieces : List Glyphs}
    (split : Text.splitOn (.char '$') text = first :: pieces) (closes : .char ')' ∈ first) :
    ClosesExpression text := by
  obtain ⟨start, later, otherSplit, whole⟩ := Text.splitOn_eq_cons (.char '$') text
  have absent : .char '$' ∉ first := Text.notMem_of_mem_splitOn (by rw [split]; simp)
  rw [split, List.cons.injEq] at otherSplit
  obtain ⟨rfl, rfl⟩ := otherSplit
  rw [ClosesExpression, whole, before_append absent]
  exact List.mem_append_left _ closes

/-- Blanks at the start of a text do not matter to its expressions. -/
theorem opensExpression_of_dropWhile {front : Glyphs}
    (opens : OpensExpression (expandCharacters (front.dropWhile Glyph.isBlank))) :
    OpensExpression (expandCharacters front) := by
  have blank {glyph : Glyph} (other : glyph.isBlank = false) :
      glyph ∉ front.takeWhile Glyph.isBlank := by
    intro member
    rw [List.all_eq_true.mp List.all_takeWhile glyph member] at other
    cases other
  have blankSplit : Text.splitOn (.char '$') (front.takeWhile Glyph.isBlank) =
      [] ++ [front.takeWhile Glyph.isBlank] :=
    Text.splitOn_of_notMem (blank (by decide))
  obtain ⟨first, pieces, split, -⟩ :=
    Text.splitOn_eq_cons (.char '$') (expandCharacters (front.dropWhile Glyph.isBlank))
  rw [OpensExpression, split] at opens
  rw [← List.takeWhile_append_dropWhile (p := Glyph.isBlank) (l := front),
    expandCharacters_append_of_notMem (blank (by decide)), OpensExpression,
    Text.splitOn_append blankSplit split]
  exact opens

/-- What is expanded behind the first piece of a text does not change how the text starts. -/
theorem expanded_behind {equates : Equates} {text start : Glyphs} {pieces texts : List Glyphs}
    (whole : text = start ++ pieces.flatMap (.char '$' :: ·))
    (same : pieces.map equates.expandPiece = texts.map .ok)
    (starts : text.head? ≠ some (.char '$')) :
    (start ++ texts.flatten).head? = text.head? ∧
      (.char '$' ∉ text → start ++ texts.flatten = text) := by
  cases pieces with
  | nil =>
      obtain rfl : texts = [] := by simpa using same.symm
      rw [whole]
      exact ⟨rfl, fun _ => rfl⟩
  | cons piece pieces =>
      cases start with
      | nil =>
          rw [whole] at starts
          exact absurd rfl starts
      | cons glyph start =>
          rw [whole]
          refine ⟨rfl, fun absent => ?_⟩
          simp at absent

/-- A name can stand in the place of a register, unless this makes an expression go on. -/
theorem Equates.expandExpressions_replace {equates : Equates} {front back name digits made : Glyphs}
    (ends : ∀ glyph, front.getLast? = some glyph → glyph ≠ .char '$' ∧ glyph ≠ .char ')')
    (starts : back.head? ≠ some (.char '$'))
    (noDollar : .char '$' ∉ digits) (noOpening : (digits ++ back).head? ≠ some (.char '('))
    (noDollarInName : .char '$' ∉ name) (noClosing : .char ')' ∉ name)
    (apart : ¬ (OpensExpression front ∧ ClosesExpression back))
    (expanded : equates.expandExpressions (front ++ (.char '$' :: digits ++ back)) = .ok made) :
    ∃ madeFront madeBack, made = madeFront ++ (.char '$' :: digits ++ madeBack) ∧
      equates.expandExpressions (front ++ (name ++ back)) = .ok (madeFront ++ (name ++ madeBack)) ∧
      madeFront.getLast? = front.getLast? ∧ madeBack.head? = back.head? ∧
      (.char '$' ∉ back → madeBack = back) := by
  obtain ⟨before, last, frontSplit⟩ := Text.exists_splitOn_eq_concat (.char '$') front
  obtain ⟨start, pieces, backSplit, backEq⟩ := Text.splitOn_eq_cons (.char '$') back
  have digitsSplit : Text.splitOn (.char '$') digits = [] ++ [digits] :=
    Text.splitOn_of_notMem noDollar
  have nameSplit : Text.splitOn (.char '$') name = [] ++ [name] :=
    Text.splitOn_of_notMem noDollarInName
  have registerPieces :
      Text.splitOn (.char '$') (front ++ (.char '$' :: digits ++ back)) =
        before ++ last :: (digits ++ start) :: pieces := by
    rw [List.cons_append, Text.splitOn_append_cons, frontSplit,
      Text.splitOn_append digitsSplit backSplit, List.append_assoc]
    rfl
  have namePieces : Text.splitOn (.char '$') (front ++ (name ++ back)) =
      before ++ (last ++ (name ++ start)) :: pieces :=
    Text.splitOn_append frontSplit (Text.splitOn_append nameSplit backSplit)
  have register : equates.expandPiece (digits ++ start) = .ok (.char '$' :: (digits ++ start)) := by
    have none : expressionIn? (digits ++ start) = none := by
      apply expressionIn?_of_head
      intro opens
      apply noOpening
      rw [backEq, ← List.append_assoc, List.head?_append, opens, Option.some_or]
    rw [expandPiece, none]
  have behind {texts : List Glyphs}
      (same : ((digits ++ start) :: pieces).map equates.expandPiece = texts.map .ok) :
      ∃ later, texts = (.char '$' :: (digits ++ start)) :: later ∧
        pieces.map equates.expandPiece = later.map .ok := by
    cases texts with
    | nil => cases same
    | cons text later =>
        rw [List.map_cons, List.map_cons, List.cons.injEq, register, Except.ok.injEq] at same
        exact ⟨later, by rw [same.1], same.2⟩
  cases before with
  | nil =>
      obtain ⟨texts, same, rfl⟩ := (expandExpressions_eq_ok_iff registerPieces).mp expanded
      obtain ⟨later, rfl, sameLater⟩ := behind same
      have frontEq : front = last := by
        obtain ⟨first, others, otherSplit, whole⟩ := Text.splitOn_eq_cons (.char '$') front
        rw [frontSplit] at otherSplit
        cases otherSplit
        simpa using whole
      obtain ⟨sameStart, sameBack⟩ := expanded_behind backEq sameLater starts
      refine ⟨last, start ++ later.flatten, by simp, ?_, by rw [frontEq], sameStart, sameBack⟩
      rw [expandExpressions_eq_ok_iff namePieces]
      exact ⟨later, sameLater, by simp⟩
  | cons first before =>
      rw [List.cons_append] at registerPieces namePieces
      obtain ⟨texts, same, rfl⟩ := (expandExpressions_eq_ok_iff registerPieces).mp expanded
      obtain ⟨texts, others, rfl, sameBefore, sameOthers⟩ :=
        List.map_eq_append_iff.mp (List.map_append.symm.trans same).symm
      obtain ⟨text, others, rfl, sameText, sameBehind⟩ := List.map_eq_cons_iff.mp sameOthers
      obtain ⟨later, rfl, sameLater⟩ := behind sameBehind.symm
      obtain ⟨sameStart, sameBack⟩ := expanded_behind backEq sameLater starts
      have more : first :: before ≠ [] := List.cons_ne_nil first before
      have lastEq : ∃ glyph, front.getLast? = some glyph ∧ last.getLast? = some glyph := by
        cases isLast : front.getLast? with
        | none =>
            rw [List.getLast?_eq_none_iff.mp isLast] at frontSplit
            simp [Text.splitOn, Text.splitBehind] at frontSplit
        | some glyph =>
            exact ⟨glyph, rfl, Text.splitOn_last_of_ne frontSplit more isLast (ends glyph isLast).1⟩
      obtain ⟨glyph, frontLast, pieceLast⟩ := lastEq
      have nonempty : last ≠ [] := by
        rintro rfl
        cases pieceLast
      have closed : last.head? = some (.char '(') → .char ')' ∉ name ++ start := by
        intro opens member
        rcases List.mem_append.mp member with inName | inStart
        · exact noClosing inName
        · exact apart ⟨opensExpression_of_splitOn frontSplit opens,
            closesExpression_of_splitOn backSplit inStart⟩
      refine ⟨first ++ texts.flatten ++ text, start ++ later.flatten, by simp, ?_, ?_, sameStart,
        sameBack⟩
      · rw [expandExpressions_eq_ok_iff namePieces]
        refine ⟨texts ++ (text ++ (name ++ start)) :: later, ?_, by simp⟩
        rw [List.map_append, List.map_cons, expandPiece_append nonempty closed sameText.symm,
          ← sameBefore, sameLater, List.map_append, List.map_cons]
      · rw [List.getLast?_append, getLast?_expandPiece pieceLast (ends glyph frontLast).2
          sameText.symm, frontLast, Option.some_or]

/-- A word with separators around it is a word of the line. -/
theorem lineWords_alone {front word back : Glyphs} (nonempty : word ≠ [])
    (unbroken : Unbroken word) (ends : ∀ glyph, front.getLast? = some glyph → IsSeparator glyph)
    (starts : ∀ glyph, back.head? = some glyph → IsSeparator glyph) :
    lineWords (front ++ (word ++ back)) = lineWords front ++ word :: lineWords back := by
  have inFront (rest : Glyphs) : lineWords (front ++ rest) = lineWords front ++ lineWords rest := by
    rcases List.eq_nil_or_concat front with rfl | ⟨front, glyph, rfl⟩
    · rfl
    · rw [List.concat_eq_append] at ends ⊢
      have separates := ends glyph List.getLast?_concat
      rw [List.append_assoc, List.singleton_append, lineWords_append_separator separates,
        lineWords_append_separator separates]
      exact congrArg (· ++ lineWords rest) (List.append_nil _).symm
  have behind : lineWords (word ++ back) = word :: lineWords back := by
    cases back with
    | nil =>
        rw [List.append_nil, lineWords_unbroken nonempty unbroken]
        rfl
    | cons glyph back =>
        have separates := starts glyph rfl
        rw [lineWords_append_separator separates, lineWords_unbroken nonempty unbroken,
          lineWords_cons_separator separates, List.singleton_append]
  rw [inFront, behind]

/-- A register as it is written, or a name for it. -/
structure OperandWord (word : Glyphs) : Prop where
  nonempty : word ≠ []
  plain : ∀ glyph ∈ word, glyph = .char '$' ∨ isNameGlyph glyph = true

namespace OperandWord

variable {word : Glyphs} (written : OperandWord word)
include written

theorem notMem {glyph : Glyph} (noDollar : glyph ≠ .char '$') (other : isNameGlyph glyph = false) :
    glyph ∉ word := by
  intro member
  rcases written.plain glyph member with dollar | plain
  · exact noDollar dollar
  · rw [plain] at other
    cases other

theorem solid : Solid word where
  nonempty := written.nonempty
  noSemicolon := written.notMem (by decide) (by decide)
  noHash := written.notMem (by decide) (by decide)
  dense := by
    intro glyph member
    rcases written.plain glyph member with rfl | plain
    · decide
    · cases glyph with
      | stray byte => rfl
      | char char =>
          rw [isNameGlyph, Bool.or_eq_true] at plain
          rcases plain with alphanumeric | underscore
          · exact isBlank_of_isBareGlyph (by simp [isBareGlyph, alphanumeric])
          · rw [of_decide_eq_true underscore]
            decide

theorem unbroken : Unbroken word := by
  rintro glyph member (rfl | rfl | rfl)
  · exact written.notMem (by decide) (by decide) member
  · exact written.notMem (by decide) (by decide) member
  · exact written.notMem (by decide) (by decide) member

end OperandWord

def isDigitGlyph : Glyph → Bool
  | .char char => char.isDigit
  | .stray _ => false

/-- What stands behind the sign of a register. -/
structure IsDigits (digits : Glyphs) : Prop where
  nonempty : digits ≠ []
  digit : ∀ glyph ∈ digits, isDigitGlyph glyph = true

/-- A word that can name a register. -/
structure IsName (name : Glyphs) : Prop where
  starts : startsName name = true
  plain : ∀ glyph ∈ name, isNameGlyph glyph = true

theorem IsDigits.notMem {digits : Glyphs} (number : IsDigits digits) {glyph : Glyph}
    (other : isDigitGlyph glyph = false) : glyph ∉ digits := by
  intro member
  rw [number.digit glyph member] at other
  cases other

theorem IsDigits.operandWord {digits : Glyphs} (number : IsDigits digits) :
    OperandWord (.char '$' :: digits) where
  nonempty := List.cons_ne_nil _ _
  plain := by
    intro glyph member
    rcases List.mem_cons.mp member with rfl | inside
    · exact .inl rfl
    · have digit := number.digit glyph inside
      cases glyph with
      | stray byte => cases digit
      | char char =>
          have alphanumeric : char.isAlphanum = true := Bool.or_eq_true_iff.mpr (.inr digit)
          exact .inr (by rw [isNameGlyph, alphanumeric, Bool.true_or])

theorem IsName.operandWord {name : Glyphs} (isName : IsName name) : OperandWord name where
  nonempty := by
    rintro rfl
    exact absurd isName.starts (by decide)
  plain := fun glyph member => .inr (isName.plain glyph member)

theorem IsName.noDollar {name : Glyphs} (isName : IsName name) : .char '$' ∉ name :=
  fun member => absurd (isName.plain _ member) (by decide)

section Replace

variable {equates : Equates} {front back digits name : Glyphs} (number : IsDigits digits)
    (isName : IsName name)
    (apart : ¬ (OpensExpression (expandCharacters front) ∧
      ClosesExpression (expandCharacters back)))
include number isName apart

/-- Around a register that gives way to a name, everything is expanded as before. -/
theorem expand_replace {made : Glyphs}
    (ends : ∀ glyph, front.getLast? = some glyph → IsSeparator glyph ∨ glyph = .char '(')
    (starts : ∀ glyph, back.head? = some glyph → IsSeparator glyph ∨ glyph = .char ')')
    (expanded : equates.expandExpressions
      (expandCharacters (front ++ (.char '$' :: digits ++ back))) = .ok made) :
    ∃ madeFront madeBack, made = madeFront ++ (.char '$' :: digits ++ madeBack) ∧
      equates.expandExpressions (expandCharacters (front ++ (name ++ back))) =
        .ok (madeFront ++ (name ++ madeBack)) ∧
      madeFront.getLast? = front.getLast? ∧ madeBack.head? = back.head? ∧
      (.char '$' ∉ back → quote ∉ back → madeBack = back) := by
  have characters {word : Glyphs} (written : OperandWord word) :
      expandCharacters (front ++ (word ++ back)) =
        expandCharacters front ++ (word ++ expandCharacters back) := by
    have noQuote : quote ∉ word := written.notMem (by decide) (by decide)
    rw [expandCharacters_append, expandCharacters_append_of_notMem noQuote]
    · intro glyph last
      rcases ends glyph last with (rfl | rfl | rfl) | rfl
      all_goals decide
    · intro starts
      rw [List.head?_append_of_ne_nil _ written.nonempty] at starts
      exact noQuote (List.mem_of_head? starts)
  have sameLast : (expandCharacters front).getLast? = front.getLast? := by
    cases last : front.getLast? with
    | none =>
        rw [List.getLast?_eq_none_iff.mp last]
        rfl
    | some glyph =>
        apply getLast?_expandCharacters last
        rcases ends glyph last with (rfl | rfl | rfl) | rfl
        all_goals decide
  have sameHead : (expandCharacters back).head? = back.head? := by
    cases back with
    | nil => rfl
    | cons glyph back =>
        have other : glyph ≠ quote := by
          rcases starts glyph rfl with (rfl | rfl | rfl) | rfl
          all_goals decide
        rw [expandCharacters_cons other]
        rfl
  have endsApart : ∀ glyph, (expandCharacters front).getLast? = some glyph →
      glyph ≠ .char '$' ∧ glyph ≠ .char ')' := by
    intro glyph last
    rcases ends glyph (sameLast ▸ last) with (rfl | rfl | rfl) | rfl
    all_goals decide
  have startsApart : (expandCharacters back).head? ≠ some (.char '$') := by
    intro dollar
    exact absurd (starts _ (sameHead ▸ dollar)) (by decide)
  have noOpening : (digits ++ expandCharacters back).head? ≠ some (.char '(') := by
    rw [List.head?_append_of_ne_nil _ number.nonempty]
    intro opens
    exact number.notMem (by decide) (List.mem_of_head? opens)
  rw [characters number.operandWord] at expanded
  rw [characters isName.operandWord]
  obtain ⟨madeFront, madeBack, rfl, nameMade, lastEq, headEq, sameBack⟩ :=
    Equates.expandExpressions_replace endsApart startsApart (number.notMem (by decide)) noOpening
      isName.noDollar (isName.operandWord.notMem (by decide) (by decide)) apart expanded
  refine ⟨madeFront, madeBack, rfl, nameMade, lastEq.trans sameLast, headEq.trans sameHead, ?_⟩
  intro noDollar noQuote
  rw [expandCharacters_eq_self noQuote] at sameBack
  exact sameBack noDollar

/-- A name in the place of a register that stands alone is a word like the register. -/
theorem wordsOf_alone {words : List Glyphs}
    (ends : ∀ glyph, front.getLast? = some glyph → IsSeparator glyph)
    (starts : ∀ glyph, back.head? = some glyph → IsSeparator glyph)
    (written : equates.wordsOf (front ++ (.char '$' :: digits ++ back)) = .ok words) :
    ∃ before after, words = before ++ (.char '$' :: digits) :: after ∧
      equates.wordsOf (front ++ (name ++ back)) = .ok (before ++ name :: after) := by
  obtain ⟨made, expanded, rfl⟩ := Equates.wordsOf_eq_ok_iff.mp written
  obtain ⟨madeFront, madeBack, rfl, nameMade, lastEq, headEq, -⟩ :=
    expand_replace number isName apart (fun glyph last => .inl (ends glyph last))
      (fun glyph first => .inl (starts glyph first)) expanded
  have words {word : Glyphs} (operand : OperandWord word) :
      lineWords (madeFront ++ (word ++ madeBack)) =
        lineWords madeFront ++ word :: lineWords madeBack := by
    apply lineWords_alone operand.nonempty operand.unbroken
    · exact fun glyph last => ends glyph (lastEq ▸ last)
    · exact fun glyph first => starts glyph (headEq ▸ first)
  refine ⟨lineWords madeFront, lineWords madeBack, words number.operandWord, ?_⟩
  exact Equates.wordsOf_eq_ok_iff.mpr ⟨_, nameMade, words isName.operandWord⟩

/-- A name in the place of a base register is in the same place. -/
theorem wordsOf_base {words : List Glyphs} {separators : Glyphs}
    (ends : front.getLast? = some (.char '(')) (closed : back = .char ')' :: separators)
    (separate : ∀ glyph ∈ separators, IsSeparator glyph)
    (written : equates.wordsOf (front ++ (.char '$' :: digits ++ back)) = .ok words) :
    ∃ before offset,
      words = before ++ [offset ++ .char '(' :: (.char '$' :: digits ++ [.char ')'])] ∧
      equates.wordsOf (front ++ (name ++ back)) =
        .ok (before ++ [offset ++ .char '(' :: (name ++ [.char ')'])]) := by
  have frontEnds : ∀ glyph, front.getLast? = some glyph → IsSeparator glyph ∨ glyph = .char '(' :=
    fun glyph last => .inr (Option.some.inj (last.symm.trans ends))
  have backStarts : ∀ glyph, back.head? = some glyph → IsSeparator glyph ∨ glyph = .char ')' := by
    rw [closed]
    rintro glyph ⟨⟩
    exact .inr rfl
  have plain {glyph : Glyph} (noClosing : glyph ≠ .char ')') (other : ¬ IsSeparator glyph) :
      glyph ∉ back := by
    rw [closed, List.mem_cons, not_or]
    exact ⟨noClosing, fun member => other (separate glyph member)⟩
  obtain ⟨made, expanded, rfl⟩ := Equates.wordsOf_eq_ok_iff.mp written
  obtain ⟨madeFront, madeBack, rfl, nameMade, lastEq, -, sameBack⟩ :=
    expand_replace number isName apart frontEnds backStarts expanded
  obtain rfl : madeBack = back :=
    sameBack (plain (by decide) (by decide)) (plain (by decide) (by decide))
  obtain ⟨init, rfl⟩ : ∃ init, madeFront = init ++ [.char '('] :=
    List.getLast?_eq_some_iff.mp (lastEq.trans ends)
  obtain ⟨before, offset, lastWord⟩ := lineWords_append_unbroken init
  have words {word : Glyphs} (operand : OperandWord word) :
      lineWords (init ++ [.char '('] ++ (word ++ madeBack)) =
        before ++ [offset ++ .char '(' :: (word ++ [.char ')'])] := by
    have unbroken : Unbroken (.char '(' :: (word ++ [.char ')'])) := by
      intro glyph member
      rcases List.mem_cons.mp member with rfl | behind
      · decide
      · rcases List.mem_append.mp behind with inWord | closing
        · exact operand.unbroken glyph inWord
        · rw [List.mem_singleton.mp closing]
          decide
    have trailing := lineWords_separators separate
      (init ++ .char '(' :: (word ++ [.char ')']))
    rw [lastWord _ (List.cons_ne_nil _ _) unbroken] at trailing
    rw [closed, ← trailing]
    simp
  refine ⟨before, offset, words number.operandWord, ?_⟩
  exact Equates.wordsOf_eq_ok_iff.mpr ⟨_, nameMade, words isName.operandWord⟩

end Replace

end Assembler
end ReversibleMips
