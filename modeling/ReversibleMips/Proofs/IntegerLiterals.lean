import ReversibleMips.Proofs.Numerals
import ReversibleMips.Proofs.SourceLines
import ReversibleMips.Text.DigitValue

/-!
# The grammar of integer literals

What an integer literal is can be told apart from how it is read: groups of digits that single
underscores join, the mark of a base in front of them, and a sign in front of all.  Reading
accepts exactly the literals whose number fits in the bits that there are, with that number, and
every other literal is out of range.
-/

namespace ReversibleMips
namespace Text

def positional (base : Nat) (digits : List Char) : Nat :=
  digits.foldl (fun number digit => number * base + digitOrZero digit) 0

def extended (base number : Nat) (digits : List Char) : Nat :=
  digits.foldl (fun number digit => number * base + digitOrZero digit) number

theorem extended_cons (base number : Nat) (digit : Char) (digits : List Char) :
    extended base number (digit :: digits) =
      extended base (number * base + digitOrZero digit) digits :=
  rfl

theorem le_extended {base : Nat} (proper : 0 < base) (number : Nat) (digits : List Char) :
    number ≤ extended base number digits := by
  induction digits generalizing number with
  | nil => exact Nat.le_refl number
  | cons digit digits ih =>
      have grown : number ≤ number * base := Nat.le_mul_of_pos_right number proper
      have later := ih (number * base + digitOrZero digit)
      rw [extended_cons]
      omega

theorem digitValue?_of_isDigitOf {base : Nat} {char : Char}
    (digit : isDigitOf base char = true) :
    digitValue? char = some (digitOrZero char) ∧ digitOrZero char < base := by
  unfold isDigitOf at digit
  unfold digitOrZero
  split at digit
  · rename_i value found
    rw [found]
    exact ⟨rfl, by simpa using digit⟩
  · cases digit

theorem isDigitOf_of_digitValue? {base value : Nat} {char : Char}
    (found : digitValue? char = some value) (small : value < base) :
    isDigitOf base char = true ∧ digitOrZero char = value := by
  unfold isDigitOf digitOrZero
  rw [found]
  exact ⟨by simpa using small, rfl⟩

theorem isAlphanum_of_isDigitOf {base : Nat} {char : Char} (digit : isDigitOf base char = true) :
    char.isAlphanum = true := by
  change ((decide ('A'.val ≤ char.val ∧ char.val ≤ 'Z'.val) ||
    (decide ('a'.val ≤ char.val) && decide (char.val ≤ 'z'.val))) ||
      (decide ('0'.val ≤ char.val) && decide (char.val ≤ '9'.val))) = true
  simp only [Bool.or_eq_true, Bool.and_eq_true, decide_eq_true_eq]
  unfold isDigitOf digitValue? at digit
  split at digit
  · rename_i value found
    split at found
    · rename_i decimal
      exact .inr decimal
    · split at found
      · rename_i lower
        exact .inl (.inr lower)
      · split at found
        · rename_i upper
          exact .inl (.inl upper)
        · cases found
  · cases digit

theorem ne_underscore_of_isDigitOf {base : Nat} {char : Char}
    (digit : isDigitOf base char = true) : char ≠ '_' := by
  rintro rfl
  exact absurd (isAlphanum_of_isDigitOf digit) (by decide)

/-- Digits are read as their number, unless it becomes too large on the way. -/
theorem readDigits_of_digits {base max number : Nat} {digits : List Char} (proper : 0 < base)
    (each : digits.all (isDigitOf base) = true) (inside : number ≤ max) :
    readDigits base max number digits =
      if extended base number digits ≤ max then .ok (extended base number digits)
      else .error .outOfRange := by
  induction digits generalizing number with
  | nil =>
      rw [readDigits, extended, List.foldl_nil, if_pos inside]
  | cons digit digits ih =>
      rw [List.all_cons, Bool.and_eq_true] at each
      obtain ⟨found, small⟩ := digitValue?_of_isDigitOf each.1
      rw [readDigits.eq_3 _ _ _ _ _ (ne_underscore_of_isDigitOf each.1), found, extended_cons]
      simp only [if_neg (Nat.not_le_of_lt small)]
      by_cases large : max < number * base + digitOrZero digit
      · have larger := le_extended proper (number * base + digitOrZero digit) digits
        rw [if_pos large, if_neg (by omega)]
      · rw [if_neg large, ih each.2 (by omega)]

theorem digits_of_readDigits {base max number value : Nat} {digits : List Char}
    (unmarked : '_' ∉ digits) (read : readDigits base max number digits = .ok value) :
    digits.all (isDigitOf base) = true ∧ value = extended base number digits := by
  induction digits generalizing number with
  | nil => exact ⟨rfl, (Except.ok.inj read).symm⟩
  | cons digit digits ih =>
      rw [List.mem_cons, not_or] at unmarked
      rw [readDigits.eq_3 _ _ _ _ _ (Ne.symm unmarked.1)] at read
      split at read
      · cases read
      · rename_i found
        split at read
        · cases read
        · rename_i small
          split at read
          · cases read
          · obtain ⟨isDigit, valueEq⟩ := isDigitOf_of_digitValue? found (Nat.lt_of_not_le small)
            obtain ⟨each, whole⟩ := ih unmarked.2 read
            rw [List.all_cons, isDigit, each, extended_cons, valueEq]
            exact ⟨rfl, whole⟩

theorem positional_toDigits {base : Nat} (number : Nat) (proper : 1 < base)
    (written : base ≤ 16) : positional base (Nat.toDigits base number) = number := by
  have read := readDigits_toDigits proper written (Nat.le_refl number)
  exact (digits_of_readDigits (underscore_notMem_toDigits number proper written) read).2.symm

def withoutUnderscores (text : List Char) : List Char := text.filter (· ≠ '_')

theorem underscore_notMem_withoutUnderscores (text : List Char) :
    '_' ∉ withoutUnderscores text := by
  simp [withoutUnderscores]

/-- Underscores have no part in the number that is read. -/
theorem readDigits_withoutUnderscores (base max number : Nat) (text : List Char) :
    readDigits base max number (withoutUnderscores text) = readDigits base max number text := by
  induction text generalizing number with
  | nil => rfl
  | cons char text ih =>
      by_cases underscore : char = '_'
      · subst underscore
        rw [readDigits, ← ih number]
        rfl
      · have kept : withoutUnderscores (char :: text) = char :: withoutUnderscores text := by
          simp [withoutUnderscores, underscore]
        rw [kept, readDigits.eq_3 _ _ _ _ _ underscore, readDigits.eq_3 _ _ _ _ _ underscore]
        simp only [ih]

theorem flatten_splitBehind (current text : List Char) :
    (splitBehind '_' current text).flatten = current.reverse ++ withoutUnderscores text := by
  induction text generalizing current with
  | nil => simp [splitBehind, withoutUnderscores]
  | cons char text ih =>
      by_cases underscore : char = '_'
      · simp [splitBehind, underscore, ih, withoutUnderscores]
      · simp [splitBehind, underscore, ih, withoutUnderscores]

theorem underscoresFit_cons_of_ne {char : Char} (other : char ≠ '_') (fit : Bool)
    (text : List Char) : underscoresFit fit (char :: text) = underscoresFit true text := by
  rw [underscoresFit.eq_5]
  all_goals simp [other]

/-- Underscores are where they may be if there is something between them and at both ends. -/
theorem underscoresFit_iff_splitBehind (current text : List Char) :
    (∀ group ∈ splitBehind '_' current text, group ≠ []) ↔
      underscoresFit (!current.isEmpty) text = true ∧ (current ≠ [] ∨ text ≠ []) := by
  induction text generalizing current with
  | nil => simp [splitBehind, underscoresFit]
  | cons char text ih =>
      by_cases underscore : char = '_'
      · subst underscore
        have later := ih []
        cases current with
        | nil => simp [splitBehind, underscoresFit]
        | cons last current =>
            cases text with
            | nil => simp [splitBehind, underscoresFit]
            | cons next text =>
                simp only [List.isEmpty_nil, Bool.not_true, ne_eq, not_true_eq_false,
                  false_or] at later
                simpa [splitBehind, underscoresFit] using later
      · have later := ih (char :: current)
        simpa [splitBehind, underscore, underscoresFit_cons_of_ne underscore] using later

/-- The mark of a base may be followed by an underscore, like a digit. -/
theorem underscoresFit_true_iff {text : List Char} :
    underscoresFit true text = true ↔
      underscoresFit false text = true ∨
        ∃ rest, text = '_' :: rest ∧ rest ≠ [] ∧ underscoresFit false rest = true := by
  cases text with
  | nil => simp [underscoresFit]
  | cons char text =>
      by_cases underscore : char = '_'
      · subst underscore
        cases text with
        | nil => simp [underscoresFit]
        | cons next text => simp [underscoresFit]
      · simp [underscoresFit_cons_of_ne underscore, underscore]

/-- Groups of digits that single underscores join, and the number that the digits are. -/
inductive Digits (base : Nat) : List Char → Nat → Prop
  | joined {groups : List (List Char)} (some : groups ≠ []) (full : ∀ group ∈ groups, group ≠ [])
      (each : groups.flatten.all (isDigitOf base) = true) :
      Digits base (['_'].intercalate groups) (positional base groups.flatten)

def markedBase? : Char → Option Nat
  | 'b' | 'B' => some 2
  | 'o' | 'O' => some 8
  | 'x' | 'X' => some 16
  | _ => none

/-- A literal without a sign, and its number.  A zero in front is the mark of octal numbers and
one of their digits too. -/
inductive Magnitude : List Char → Nat → Prop
  | decimal {text : List Char} {value : Nat} (unmarked : text.head? ≠ some '0')
      (digits : Digits 10 text value) : Magnitude text value
  | octal {text : List Char} {value : Nat} (marked : text.head? = some '0')
      (digits : Digits 8 text value) : Magnitude text value
  | based {letter : Char} {base : Nat} {text : List Char} {value : Nat}
      (marks : markedBase? letter = some base) (digits : Digits base text value) :
      Magnitude ('0' :: letter :: text) value
  | basedApart {letter : Char} {base : Nat} {text : List Char} {value : Nat}
      (marks : markedBase? letter = some base) (digits : Digits base text value) :
      Magnitude ('0' :: letter :: '_' :: text) value

/-- An integer literal, and its number. -/
inductive Literal : List Char → Int → Prop
  | unsigned {text : List Char} {value : Nat} (magnitude : Magnitude text value) :
      Literal text value
  | positive {text : List Char} {value : Nat} (magnitude : Magnitude text value) :
      Literal ('+' :: text) value
  | negative {text : List Char} {value : Nat} (magnitude : Magnitude text value) :
      Literal ('-' :: text) (-value)

theorem intercalate_splitOn {α : Type} [DecidableEq α] (mark : α) (text : List α) :
    [mark].intercalate (splitOn mark text) = text := by
  have joined (first : List α) (pieces : List (List α)) :
      [mark].intercalate (first :: pieces) = first ++ pieces.flatMap (mark :: ·) := by
    induction pieces generalizing first with
    | nil => simp
    | cons next pieces ih => simp [List.intercalate_cons_cons, ih]
  obtain ⟨first, pieces, split, whole⟩ := splitOn_eq_cons mark text
  rw [split, joined, ← whole]

/-- The grammar of digits character by character. -/
theorem digits_iff {base : Nat} {text : List Char} {value : Nat} :
    Digits base text value ↔
      text ≠ [] ∧ underscoresFit false text = true ∧
        (withoutUnderscores text).all (isDigitOf base) = true ∧
        value = positional base (withoutUnderscores text) := by
  have flat : (splitOn '_' text).flatten = withoutUnderscores text := flatten_splitBehind [] text
  have full := underscoresFit_iff_splitBehind [] text
  simp only [List.isEmpty_nil, Bool.not_true, ne_eq, not_true_eq_false, false_or] at full
  constructor
  · intro digits
    cases digits with
    | @joined written some nonempty each =>
        obtain ⟨group, others, rfl⟩ := List.exists_cons_of_ne_nil some
        have unmarked : ∀ piece ∈ group :: others, '_' ∉ piece := by
          intro piece member underscore
          have digit := List.all_eq_true.mp each '_' (List.mem_flatten_of_mem member underscore)
          exact ne_underscore_of_isDigitOf digit rfl
        have split := splitOn_intercalate unmarked
        rw [split] at flat
        rw [← splitOn, split] at full
        obtain ⟨fits, present⟩ := full.mp nonempty
        rw [← flat]
        exact ⟨present, fits, each, rfl⟩
  · rintro ⟨present, fits, each, rfl⟩
    rw [← flat] at each ⊢
    have grammar := Digits.joined ?_ (full.mpr ⟨fits, present⟩) each
    · rwa [← splitOn, intercalate_splitOn] at grammar
    · obtain ⟨first, pieces, split, -⟩ := splitOn_eq_cons '_' text
      rw [← splitOn, split]
      exact List.cons_ne_nil _ _

theorem Digits.ne_nil {base : Nat} {text : List Char} {value : Nat}
    (digits : Digits base text value) : text ≠ [] :=
  (digits_iff.mp digits).1

theorem readDigits_of_grammar {base max : Nat} {text : List Char} {value : Nat}
    (proper : 0 < base) (digits : Digits base text value) :
    readDigits base max 0 text = if value ≤ max then .ok value else .error .outOfRange := by
  obtain ⟨-, -, each, rfl⟩ := digits_iff.mp digits
  rw [← readDigits_withoutUnderscores, readDigits_of_digits proper each (Nat.zero_le max)]
  rfl

theorem grammar_of_readDigits {base max : Nat} {text : List Char} {value : Nat}
    (present : text ≠ []) (fits : underscoresFit false text = true)
    (read : readDigits base max 0 text = .ok value) : Digits base text value := by
  rw [← readDigits_withoutUnderscores] at read
  have digits := digits_of_readDigits (underscore_notMem_withoutUnderscores text) read
  exact digits_iff.mpr ⟨present, fits, digits⟩

section Marks

variable {letter : Char} {base : Nat} (marks : markedBase? letter = some base)
include marks

theorem base_pos_of_marks : 0 < base := by
  unfold markedBase? at marks
  split at marks <;> cases marks <;> decide

theorem isAlphanum_of_marks : letter.isAlphanum = true := by
  unfold markedBase? at marks
  split at marks <;> cases marks <;> decide

theorem isDigitOf_of_marks : isDigitOf 8 letter = false := by
  unfold markedBase? at marks
  split at marks <;> cases marks <;> decide

theorem hasBaseLetter_of_marks (rest : List Char) :
    hasBaseLetter ('0' :: letter :: rest) = true := by
  change "bBoOxX".toList.contains letter = true
  unfold markedBase? at marks
  split at marks <;> cases marks <;> decide

theorem literalBase_of_marks {rest : List Char} (present : rest ≠ []) :
    literalBase ('0' :: letter :: rest) = (base, rest) := by
  obtain ⟨digit, rest, rfl⟩ := List.exists_cons_of_ne_nil present
  unfold markedBase? at marks
  split at marks <;> cases marks <;> rfl

end Marks

section Octal

variable {rest : List Char}
    (unmarked : ∀ letter, rest.head? = some letter → markedBase? letter = none)
include unmarked

theorem literalBase_of_unmarked : literalBase ('0' :: rest) = (8, rest) := by
  rw [literalBase.eq_7]
  all_goals
    rintro digit others rfl
    cases unmarked _ rfl

theorem hasBaseLetter_of_unmarked : hasBaseLetter ('0' :: rest) = false := by
  cases rest with
  | nil => rfl
  | cons letter rest =>
      have other := unmarked letter rfl
      rw [Bool.eq_false_iff]
      intro marked
      change "bBoOxX".toList.contains letter = true at marked
      simp only [String.reduceToList, List.contains_eq_mem, List.mem_cons, List.not_mem_nil,
        or_false, decide_eq_true_eq] at marked
      rcases marked with rfl | rfl | rfl | rfl | rfl | rfl <;> cases other

end Octal

/-- What becomes of the number of digits once the underscores are looked at. -/
def checkedWith (fits : Bool) : Except LiteralError Nat → Except LiteralError Nat
  | .error error => .error error
  | .ok value => if fits then .ok value else .error .malformed

theorem checkedWith_eq_ok_iff {fits : Bool} {result : Except LiteralError Nat} {value : Nat} :
    checkedWith fits result = .ok value ↔ fits = true ∧ result = .ok value := by
  cases result with
  | error error => simp [checkedWith]
  | ok number => cases fits <;> simp [checkedWith]

theorem checkedWith_true (result : Except LiteralError Nat) : checkedWith true result = result := by
  cases result <;> rfl

theorem readUnsigned_of_unmarked {text : List Char} (present : text ≠ [])
    (unmarked : text.head? ≠ some '0') (max : Nat) :
    readUnsigned max text = checkedWith (underscoresFit false text) (readDigits 10 max 0 text) := by
  rw [readUnsigned]
  · simp only [literalBase_of_head_ne unmarked, hasBaseLetter_of_head_ne unmarked,
      Bool.false_eq_true, if_false]
    cases readDigits 10 max 0 text <;> rfl
  · exact present

theorem readUnsigned_of_marks {letter : Char} {base : Nat}
    (marks : markedBase? letter = some base) {rest : List Char} (present : rest ≠ [])
    (max : Nat) :
    readUnsigned max ('0' :: letter :: rest) =
      checkedWith (underscoresFit true rest) (readDigits base max 0 rest) := by
  simp only [readUnsigned, literalBase_of_marks marks present, hasBaseLetter_of_marks marks,
    if_true, List.drop_succ_cons, List.drop_zero]
  cases readDigits base max 0 rest <;> rfl

theorem readDigits_zero_cons {base : Nat} (max : Nat) (rest : List Char) (proper : 0 < base)
    (written : base ≤ 16) :
    readDigits base max 0 ('0' :: rest) = readDigits base max 0 rest :=
  readDigits_zeros 1 rest proper written

theorem readUnsigned_of_octal {rest : List Char}
    (unmarked : ∀ letter, rest.head? = some letter → markedBase? letter = none) (max : Nat) :
    readUnsigned max ('0' :: rest) =
      checkedWith (underscoresFit false ('0' :: rest)) (readDigits 8 max 0 ('0' :: rest)) := by
  rw [readDigits_zero_cons max rest (by decide) (by decide)]
  simp only [readUnsigned, literalBase_of_unmarked unmarked, hasBaseLetter_of_unmarked unmarked,
    Bool.false_eq_true, if_false]
  cases readDigits 8 max 0 rest <;> rfl

/-- A letter that marks a base has to have a digit behind it. -/
theorem readUnsigned_of_letter {letter : Char} {base : Nat}
    (marks : markedBase? letter = some base) (max : Nat) :
    readUnsigned max ['0', letter] = .error .malformed := by
  unfold markedBase? at marks
  split at marks <;> cases marks <;> rfl

/-- A literal without a sign is read as its number, or is out of range. -/
theorem readUnsigned_of_magnitude {max : Nat} {text : List Char} {value : Nat}
    (magnitude : Magnitude text value) :
    readUnsigned max text = if value ≤ max then .ok value else .error .outOfRange := by
  cases magnitude with
  | decimal unmarked digits =>
      obtain ⟨present, fits, -, -⟩ := digits_iff.mp digits
      rw [readUnsigned_of_unmarked present unmarked, fits, checkedWith_true,
        readDigits_of_grammar (by decide) digits]
  | octal marked digits =>
      obtain ⟨present, fits, each, -⟩ := digits_iff.mp digits
      obtain ⟨rest, rfl⟩ : ∃ rest, text = '0' :: rest := by
        obtain ⟨first, rest, rfl⟩ := List.exists_cons_of_ne_nil present
        cases marked
        exact ⟨rest, rfl⟩
      have unmarked : ∀ letter, rest.head? = some letter → markedBase? letter = none := by
        intro letter first
        obtain ⟨others, rfl⟩ := List.head?_eq_some_iff.mp first
        cases marks : markedBase? letter with
        | none => rfl
        | some base =>
            have noDigit := isDigitOf_of_marks marks
            have kept : letter ≠ '_' := by
              rintro rfl
              cases marks
            simp [withoutUnderscores, kept, noDigit] at each
      rw [readUnsigned_of_octal unmarked, fits, checkedWith_true,
        readDigits_of_grammar (by decide) digits]
  | @based letter base text _ marks digits =>
      obtain ⟨present, fits, -, -⟩ := digits_iff.mp digits
      have fitsBehind := underscoresFit_true_iff.mpr (.inl fits)
      rw [readUnsigned_of_marks marks present, fitsBehind, checkedWith_true,
        readDigits_of_grammar (base_pos_of_marks marks) digits]
  | @basedApart letter base text _ marks digits =>
      obtain ⟨present, fits, -, -⟩ := digits_iff.mp digits
      have fitsBehind := underscoresFit_true_iff.mpr (.inr ⟨text, rfl, present, fits⟩)
      rw [readUnsigned_of_marks marks (List.cons_ne_nil _ _), fitsBehind, checkedWith_true,
        readDigits, readDigits_of_grammar (base_pos_of_marks marks) digits]

theorem magnitude_of_readUnsigned {max : Nat} {text : List Char} {value : Nat}
    (read : readUnsigned max text = .ok value) : Magnitude text value := by
  cases text with
  | nil => cases read
  | cons first rest =>
      by_cases zero : first = '0'
      · subst zero
        by_cases unmarked : ∀ letter, rest.head? = some letter → markedBase? letter = none
        · rw [readUnsigned_of_octal unmarked, checkedWith_eq_ok_iff] at read
          exact .octal rfl (grammar_of_readDigits (List.cons_ne_nil _ _) read.1 read.2)
        · simp only [Classical.not_forall, ← ne_eq, Option.ne_none_iff_exists'] at unmarked
          obtain ⟨letter, isFirst, base, marks⟩ := unmarked
          obtain ⟨rest, rfl⟩ := List.head?_eq_some_iff.mp isFirst
          by_cases present : rest = []
          · subst present
            rw [readUnsigned_of_letter marks] at read
            cases read
          · rw [readUnsigned_of_marks marks present, checkedWith_eq_ok_iff] at read
            obtain ⟨fits, read⟩ := read
            rcases underscoresFit_true_iff.mp fits with direct | ⟨rest, rfl, more, behind⟩
            · exact .based marks (grammar_of_readDigits present direct read)
            · exact .basedApart marks (grammar_of_readDigits more behind read)
      · have unmarked : (first :: rest).head? ≠ some '0' := by simpa using zero
        rw [readUnsigned_of_unmarked (List.cons_ne_nil _ _) unmarked, checkedWith_eq_ok_iff] at read
        exact .decimal unmarked (grammar_of_readDigits (List.cons_ne_nil _ _) read.1 read.2)

theorem Digits.plain {base : Nat} {text : List Char} {value : Nat}
    (digits : Digits base text value) {char : Char} (member : char ∈ text) :
    char = '_' ∨ char.isAlphanum = true := by
  obtain ⟨-, -, each, -⟩ := digits_iff.mp digits
  by_cases underscore : char = '_'
  · exact .inl underscore
  · have kept : char ∈ withoutUnderscores text := by simp [withoutUnderscores, member, underscore]
    exact .inr (isAlphanum_of_isDigitOf (List.all_eq_true.mp each char kept))

theorem Magnitude.plain {text : List Char} {value : Nat} (magnitude : Magnitude text value)
    {char : Char} (member : char ∈ text) : char = '_' ∨ char.isAlphanum = true := by
  cases magnitude with
  | decimal unmarked digits => exact digits.plain member
  | octal marked digits => exact digits.plain member
  | based marks digits =>
      rcases List.mem_cons.mp member with rfl | member
      · exact .inr (by decide)
      · rcases List.mem_cons.mp member with rfl | member
        · exact .inr (isAlphanum_of_marks marks)
        · exact digits.plain member
  | basedApart marks digits =>
      rcases List.mem_cons.mp member with rfl | member
      · exact .inr (by decide)
      · rcases List.mem_cons.mp member with rfl | member
        · exact .inr (isAlphanum_of_marks marks)
        · rcases List.mem_cons.mp member with rfl | member
          · exact .inl rfl
          · exact digits.plain member

theorem Magnitude.ne_nil {text : List Char} {value : Nat} (magnitude : Magnitude text value) :
    text ≠ [] := by
  cases magnitude with
  | decimal unmarked digits => exact digits.ne_nil
  | octal marked digits => exact digits.ne_nil
  | based marks digits => exact List.cons_ne_nil _ _
  | basedApart marks digits => exact List.cons_ne_nil _ _

theorem Magnitude.ne_cons {text : List Char} {value : Nat} (magnitude : Magnitude text value)
    {sign : Char} (noDigit : sign.isAlphanum = false) (noUnderscore : sign ≠ '_')
    (rest : List Char) : text ≠ sign :: rest := by
  rintro rfl
  rcases magnitude.plain List.mem_cons_self with underscore | digit
  · exact noUnderscore underscore
  · rw [noDigit] at digit
    cases digit

theorem Literal.plain {text : List Char} {value : Int} (literal : Literal text value) {char : Char}
    (member : char ∈ text) :
    char = '+' ∨ char = '-' ∨ char = '_' ∨ char.isAlphanum = true := by
  cases literal with
  | unsigned magnitude => exact .inr (.inr (magnitude.plain member))
  | positive magnitude =>
      rcases List.mem_cons.mp member with rfl | member
      · exact .inl rfl
      · exact .inr (.inr (magnitude.plain member))
  | negative magnitude =>
      rcases List.mem_cons.mp member with rfl | member
      · exact .inr (.inl rfl)
      · exact .inr (.inr (magnitude.plain member))

theorem Literal.ne_nil {text : List Char} {value : Int} (literal : Literal text value) :
    text ≠ [] := by
  cases literal with
  | unsigned magnitude => exact magnitude.ne_nil
  | positive magnitude => exact List.cons_ne_nil _ _
  | negative magnitude => exact List.cons_ne_nil _ _

/-- A number is an integer of thirty-two bits in two's complement. -/
def FitsInt32 (value : Int) : Prop := -0x80000000 ≤ value ∧ value < 0x80000000

instance (value : Int) : Decidable (FitsInt32 value) := instDecidableAnd

def limited (limit : Nat) (signed : Nat → Int) :
    Except LiteralError Nat → Except LiteralError Int
  | .error error => .error error
  | .ok value => if limit < value then .error .outOfRange else .ok (signed value)

theorem readInt_minus (rest : List Char) :
    readInt 32 ('-' :: rest) =
      limited 0x80000000 (fun value => -value) (readUnsigned 0xffffffff rest) := by
  simp only [readInt, Nat.reduceSub, Nat.reduceShiftLeft]
  cases readUnsigned 0xffffffff rest <;> rfl

theorem readInt_plus (rest : List Char) :
    readInt 32 ('+' :: rest) =
      limited 0x7fffffff (fun value => value) (readUnsigned 0xffffffff rest) := by
  rw [readInt.eq_2]
  simp only [Nat.reduceSub, Nat.reduceShiftLeft]
  cases readUnsigned 0xffffffff rest <;> rfl

theorem readInt_bare {text : List Char} (noMinus : ∀ rest, text ≠ '-' :: rest)
    (noPlus : ∀ rest, text ≠ '+' :: rest) :
    readInt 32 text =
      limited 0x7fffffff (fun value => value) (readUnsigned 0xffffffff text) := by
  simp only [readInt, Nat.reduceSub, Nat.reduceShiftLeft]
  cases readUnsigned 0xffffffff text <;> rfl

theorem limited_of_magnitude {limit : Nat} {signed : Nat → Int} {text : List Char} {value : Nat}
    (magnitude : Magnitude text value) (inside : limit ≤ 0xffffffff)
    (fits : FitsInt32 (signed value) ↔ value ≤ limit) :
    limited limit signed (readUnsigned 0xffffffff text) =
      if FitsInt32 (signed value) then .ok (signed value) else .error .outOfRange := by
  rw [readUnsigned_of_magnitude magnitude]
  by_cases within : value ≤ limit
  · rw [if_pos (by omega), if_pos (fits.mpr within)]
    exact if_neg (Nat.not_lt_of_le within)
  · rw [if_neg fun bounded => within (fits.mp bounded)]
    by_cases small : value ≤ 0xffffffff
    · rw [if_pos small]
      exact if_pos (Nat.lt_of_not_le within)
    · rw [if_neg small]
      rfl

theorem magnitude_of_limited {limit : Nat} {signed : Nat → Int} {text : List Char} {value : Int}
    (read : limited limit signed (readUnsigned 0xffffffff text) = .ok value) :
    ∃ number, Magnitude text number ∧ value = signed number := by
  cases unsigned : readUnsigned 0xffffffff text with
  | error error =>
      rw [unsigned] at read
      cases read
  | ok number =>
      rw [unsigned, limited] at read
      split at read
      · cases read
      · exact ⟨number, magnitude_of_readUnsigned unsigned, (Except.ok.inj read).symm⟩

/-- A literal is read as its number, or is out of range. -/
theorem readInt_of_literal {text : List Char} {value : Int} (literal : Literal text value) :
    readInt 32 text = if FitsInt32 value then .ok value else .error .outOfRange := by
  cases literal with
  | unsigned magnitude =>
      rw [readInt_bare (magnitude.ne_cons (by decide) (by decide))
        (magnitude.ne_cons (by decide) (by decide))]
      exact limited_of_magnitude magnitude (by decide) (by unfold FitsInt32; omega)
  | positive magnitude =>
      rw [readInt_plus]
      exact limited_of_magnitude magnitude (by decide) (by unfold FitsInt32; omega)
  | negative magnitude =>
      rw [readInt_minus]
      exact limited_of_magnitude magnitude (by decide) (by unfold FitsInt32; omega)

theorem literal_of_readInt {text : List Char} {value : Int}
    (read : readInt 32 text = .ok value) : Literal text value := by
  by_cases minus : ∃ rest, text = '-' :: rest
  · obtain ⟨rest, rfl⟩ := minus
    rw [readInt_minus] at read
    obtain ⟨number, magnitude, rfl⟩ := magnitude_of_limited read
    exact .negative magnitude
  · by_cases plus : ∃ rest, text = '+' :: rest
    · obtain ⟨rest, rfl⟩ := plus
      rw [readInt_plus] at read
      obtain ⟨number, magnitude, rfl⟩ := magnitude_of_limited read
      exact .positive magnitude
    · rw [not_exists] at minus plus
      rw [readInt_bare minus plus] at read
      obtain ⟨number, magnitude, rfl⟩ := magnitude_of_limited read
      exact .unsigned magnitude

/-- Reading accepts exactly the literals of integers that fit. -/
theorem readInt_eq_ok_iff {text : List Char} {value : Int} :
    readInt 32 text = .ok value ↔ Literal text value ∧ FitsInt32 value := by
  constructor
  · intro read
    have literal := literal_of_readInt read
    rw [readInt_of_literal literal] at read
    by_cases fits : FitsInt32 value
    · exact ⟨literal, fits⟩
    · rw [if_neg fits] at read
      cases read
  · rintro ⟨literal, fits⟩
    rw [readInt_of_literal literal, if_pos fits]

def signedHex (number : Int) : List Char :=
  (if number < 0 then ['-'] else []) ++ (hex number.natAbs).toList

theorem digits_single {base : Nat} {digits : List Char} (present : digits ≠ [])
    (each : digits.all (isDigitOf base) = true) : Digits base digits (positional base digits) := by
  have grammar := Digits.joined (List.cons_ne_nil digits []) (by simpa using present)
    (by simpa using each)
  simpa using grammar

theorem isDigitOf_of_mem_toDigits {base number : Nat} {char : Char} (proper : 1 < base)
    (written : base ≤ 16) (member : char ∈ Nat.toDigits base number) :
    isDigitOf base char = true := by
  obtain ⟨digit, small, rfl⟩ := exists_digit_of_mem_toDigits proper member
  exact (isDigitOf_of_digitValue? (digitValue?_digitChar (by omega)) small).1

theorem digits_toDigits {base : Nat} (number : Nat) (proper : 1 < base) (written : base ≤ 16) :
    Digits base (Nat.toDigits base number) number := by
  have each : (Nat.toDigits base number).all (isDigitOf base) = true :=
    List.all_eq_true.mpr fun _ member => isDigitOf_of_mem_toDigits proper written member
  have digits := digits_single Nat.toDigits_ne_nil each
  rwa [positional_toDigits number proper written] at digits

theorem magnitude_decimal (number : Nat) : Magnitude (Nat.toDigits 10 number) number := by
  by_cases zero : number = 0
  · -- A single zero counts as an octal number.
    subst zero
    exact .octal rfl (digits_toDigits 0 (by decide : 1 < 8) (by decide))
  · exact .decimal (head?_toDigits_ne_zero (Nat.pos_of_ne_zero zero))
      (digits_toDigits number (by decide) (by decide))

theorem magnitude_hex (number : Nat) : Magnitude (hex number).toList number := by
  have written : (hex number).toList = '0' :: 'x' :: Nat.toDigits 16 number := by
    have present : 1 ≤ (Nat.toDigits 16 number).length :=
      List.length_pos_iff.mpr Nat.toDigits_ne_nil
    simp [hex, digits, Nat.sub_eq_zero_of_le present]
  rw [written]
  exact .based rfl (digits_toDigits number (by decide) (by decide))

theorem literal_decimal (number : Int) : Literal (toString number).toList number := by
  cases number with
  | ofNat number =>
      rw [toList_toString_ofNat]
      exact .unsigned (magnitude_decimal number)
  | negSucc number =>
      rw [toList_toString_negSucc]
      exact .negative (magnitude_decimal (number + 1))

theorem literal_signedHex (number : Int) : Literal (signedHex number) number := by
  have magnitude := magnitude_hex number.natAbs
  unfold signedHex
  by_cases negative : number < 0
  · have literal := Literal.negative magnitude
    rw [if_pos negative, List.singleton_append]
    rwa [show -(number.natAbs : Int) = number by omega] at literal
  · have literal := Literal.unsigned magnitude
    rw [if_neg negative, List.nil_append]
    rwa [show (number.natAbs : Int) = number by omega] at literal

end Text
end ReversibleMips
