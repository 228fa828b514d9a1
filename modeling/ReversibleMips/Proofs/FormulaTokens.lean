import Mathlib.Data.List.TakeDrop
import ReversibleMips.Proofs.Formulas
import ReversibleMips.Proofs.Operands

/-!
# The tokens of formulas

Whatever way a formula is written, the same tokens are read from it.  A text is scanned
together with what is behind it, which must not go on with the last token of the text: so
texts that follow each other are scanned one after another.
-/

namespace ReversibleMips

namespace Text

theorem withLineFeeds_eq_self {text : List Char} (absent : '\r' ∉ text) :
    withLineFeeds text = text := by
  fun_induction withLineFeeds text with
  | case1 rest ih => simp at absent
  | case2 rest noLineFeed ih => simp at absent
  | case3 char rest _ noReturn ih =>
      rw [ih fun member => absent (List.mem_cons_of_mem _ member)]
  | case4 => rfl

/-- A text is cut where it stops to satisfy something. -/
theorem span_append {α : Type} {goes : α → Bool} {front rest : List α}
    (inside : ∀ item ∈ front, goes item = true)
    (outside : ∀ item ∈ rest.head?, goes item = false) :
    (front ++ rest).span goes = (front, rest) := by
  have stops : rest.takeWhile goes = [] ∧ rest.dropWhile goes = rest := by
    cases rest with
    | nil => exact ⟨rfl, rfl⟩
    | cons item rest => simp [outside item rfl]
  rw [List.span_eq_takeWhile_dropWhile, List.takeWhile_append_of_pos inside,
    List.dropWhile_append_of_pos inside, stops.1, stops.2, List.append_nil]

end Text

namespace Expression

theorem isDigit_of_startsName {char : Char} (starts : Token.startsName char = true) :
    char.isDigit = false := by
  simp only [Token.startsName, Text.isLetter, Bool.or_eq_true, decide_eq_true_eq] at starts
  rcases starts with rfl | letter | beyond
  · rfl
  · exact Text.isDigit_of_isAlpha letter
  · have large := ascii_lt_of_inRanges beyond
    rw [Bool.eq_false_iff]
    intro digit
    change (decide ('0'.val ≤ char.val) && decide (char.val ≤ '9'.val)) = true at digit
    simp only [Bool.and_eq_true, decide_eq_true_eq, UInt32.le_iff_toNat_le] at digit
    change 0x30 ≤ char.toNat ∧ char.toNat ≤ 0x39 at digit
    omega

theorem ofWord?_eq_name {name : String} (noKeyword : name ∉ keywords) (site : Nat) :
    Token.ofWord? site name = some (.name name) := by
  unfold Token.ofWord?
  split
  case h_17 =>
    have free : Token.reservedWords.contains name = false := by
      rw [← Bool.not_eq_true, List.contains_iff_mem]
      exact fun reserved => noKeyword (List.mem_append_right _ reserved)
    rw [free, if_neg Bool.false_ne_true]
  all_goals exact absurd (by decide) noKeyword

/-- A character that neither a number nor a name goes on with. -/
def isBreak (char : Char) : Bool := " \t\n+-*&|^)".toList.contains char

def leavesOperator (char : Char) : Bool := char ≠ '=' && char ≠ '*'

theorem isBreak_eq {char : Char} (breaks : isBreak char = true) :
    Token.continuesName char = false ∧ Text.isDigitOf 16 char = false ∧ char ≠ '.' := by
  have all : " \t\n+-*&|^)".toList.all (fun char =>
      isSymbol char && !Text.isDigitOf 16 char && char ≠ '.') = true := by
    decide
  have each := List.all_eq_true.mp all char (List.contains_iff_mem.mp breaks)
  simp only [Bool.and_eq_true, Bool.not_eq_true', decide_eq_true_eq] at each
  exact ⟨continuesName_of_isSymbol each.1.1, each.1.2, each.2⟩

/-- Nothing between quotes starts in a text. -/
def Quoteless (text : List Char) : Prop := '"' ∉ text ∧ '\'' ∉ text

instance (text : List Char) : Decidable (Quoteless text) := inferInstanceAs (Decidable (_ ∧ _))

theorem Quoteless.append_right {front text : List Char} (quoteless : Quoteless (front ++ text)) :
    Quoteless text :=
  ⟨fun member => quoteless.1 (List.mem_append_right _ member),
    fun member => quoteless.2 (List.mem_append_right _ member)⟩

theorem opening?_eq_none {text : List Char} (quoteless : Quoteless text) :
    Token.opening? text = none := by
  have behind {style : Token.Style} {quote : Char} {rest : List Char} (member : quote ∈ text) :
      Token.opening?.behind style quote rest = none := by
    apply if_neg
    rintro (rfl | rfl)
    · exact quoteless.1 member
    · exact quoteless.2 member
  unfold Token.opening?
  split
  · exact behind (by simp)
  · exact behind (by simp)
  · exact behind (by simp)
  · exact behind (by simp)
  · rfl

/-- A text is read as tokens, whatever is behind it, unless that goes on with the last token.
The numbers tell how many brackets are open before and after. -/
def Scans (leaves : Char → Bool) (before after : Nat) (text : List Char) (tokens : List Token) :
    Prop :=
  ∀ (bound : Nat) (rest : List Char), (text ++ rest).length < bound → Quoteless (text ++ rest) →
    (∀ char ∈ rest.head?, leaves char = true) →
    ∃ later, rest.length < later ∧
      Token.scanFor bound before false (text ++ rest) =
        (Token.scanFor later after false rest).map (tokens ++ ·)

theorem Scans.append {leaves more : Char → Bool} {before middle after : Nat}
    {front back : List Char} {tokens others : List Token}
    (first : Scans leaves before middle front tokens)
    (second : Scans more middle after back others) (nonempty : back ≠ [])
    (starts : ∀ char ∈ back.head?, leaves char = true) :
    Scans more before after (front ++ back) (tokens ++ others) := by
  intro bound rest fits quoteless ends
  rw [List.append_assoc] at fits quoteless ⊢
  obtain ⟨char, chars, rfl⟩ := List.exists_cons_of_ne_nil nonempty
  obtain ⟨middle, middleFits, read⟩ := first bound _ fits quoteless starts
  obtain ⟨later, laterFits, readMore⟩ := second middle rest middleFits quoteless.append_right ends
  refine ⟨later, laterFits, ?_⟩
  rw [read, readMore, Option.map_map]
  congr 1
  funext tokens
  simp

theorem Scans.blank {blank : Char} (separates : Token.separates blank = true)
    (leaves : Char → Bool) (depth : Nat) : Scans leaves depth depth [blank] [] := by
  intro bound rest fits _ _
  rw [List.singleton_append, List.length_cons] at fits
  refine ⟨bound, by omega, ?_⟩
  obtain ⟨bound, rfl⟩ := Nat.exists_eq_succ_of_ne_zero (by omega : bound ≠ 0)
  simp only [List.singleton_append, List.nil_append, Option.map_id']
  unfold Token.scanFor
  simp only [List.dropWhile_cons_of_pos separates, Bool.false_and, Bool.false_eq_true, if_false]

def startsToken (char : Char) : Bool :=
  !Token.separates char && char ≠ '\x00' && char ≠ '\n' && char ≠ '\\'

theorem startsToken_of_continuesName {char : Char} (continues : Token.continuesName char = true) :
    startsToken char = true := by
  have noBlank : char ≠ ' ' := ne_of_continuesName continues (by decide)
  have noTab : char ≠ '\t' := ne_of_continuesName continues (by decide)
  have noNull : char ≠ '\x00' := ne_of_continuesName continues (by decide)
  have noFeed : char ≠ '\n' := ne_of_continuesName continues (by decide)
  have noBackslash : char ≠ '\\' := ne_of_continuesName continues (by decide)
  simp [startsToken, Token.separates, noBlank, noTab, noNull, noFeed, noBackslash]

/-- A text that starts with a token goes on behind it.  The first token of a line stands behind
the margin. -/
theorem scanFor_next {bound before after : Nat} {first : Char} {chars rest : List Char}
    {token : Token} (starts : startsToken first = true)
    (read : Token.next? bound (first :: chars) = some (token, rest))
    (depth : Token.depthAfter? before token = some after) (fresh : Bool) :
    Token.scanFor (bound + 1) before fresh (first :: chars) =
      (Token.scanFor bound after false rest).map
        ((if fresh && before = 0 then [.margin (Token.columnBehind 0 0 (first :: chars))]
          else []) ++ token :: ·) := by
  simp only [startsToken, Bool.and_eq_true, Bool.not_eq_true', decide_eq_true_eq] at starts
  obtain ⟨⟨⟨visible, noNull⟩, noFeed⟩, noBackslash⟩ := starts
  conv_lhs => unfold Token.scanFor
  simp only [List.dropWhile_cons_of_neg (ne_true_of_eq_false visible)]
  split
  · rename_i same
    cases same
  · rename_i same
    exact absurd (List.cons.inj same).1 noNull
  · rename_i same
    exact absurd (List.cons.inj same).1 noFeed
  · rename_i same
    exact absurd (List.cons.inj same).1 noBackslash
  · simp only [read, depth]

theorem Scans.token {leaves : Char → Bool} {before after : Nat} {first : Char}
    {chars : List Char} {token : Token} (starts : startsToken first = true)
    (read : ∀ (site : Nat) (rest : List Char), Quoteless (first :: chars ++ rest) →
      (∀ char ∈ rest.head?, leaves char = true) →
      Token.next? site (first :: chars ++ rest) = some (token, rest))
    (depth : Token.depthAfter? before token = some after) :
    Scans leaves before after (first :: chars) [token] := by
  intro bound rest fits quoteless ends
  obtain ⟨bound, rfl⟩ := Nat.exists_eq_succ_of_ne_zero (by omega : bound ≠ 0)
  rw [List.length_append, List.length_cons] at fits
  refine ⟨bound, by omega, ?_⟩
  exact scanFor_next starts (read bound rest quoteless ends) depth false

theorem next?_sign {first : Char} {text : List Char} (quoteless : Quoteless (first :: text))
    (noName : Token.continuesName first = false) (noDot : first ≠ '.') (site : Nat) :
    Token.next? site (first :: text) = Token.sign? (first :: text) := by
  rw [Token.continuesName, Bool.or_eq_false_iff] at noName
  simp only [Token.next?, opening?_eq_none quoteless, noName.1, noName.2, noDot,
    Bool.false_eq_true, if_false]

theorem operator_eq {op : BinaryOp} {alone : Token} {rest : List Char}
    (leaves : ∀ char ∈ rest.head?, leavesOperator char = true) :
    Token.sign?.operator op alone rest = (alone, rest) := by
  unfold Token.sign?.operator
  split
  · exact absurd (leaves '=' rfl) (by decide)
  · rfl

theorem Operator.sign?_eq (operator : Operator) {rest : List Char}
    (leaves : ∀ char ∈ rest.head?, leavesOperator char = true) :
    Token.sign? (operator.char :: rest) = some (operator.token, rest) := by
  cases operator with
  | mul =>
      have single (later : List Char) : rest ≠ '*' :: later := by
        rintro rfl
        exact absurd (leaves '*' rfl) (by decide)
      rw [Operator.char, Token.sign?.eq_13 _ single, operator_eq leaves]
      rfl
  | _ => exact congrArg some (operator_eq leaves)

/-- A mark is a token of its own. -/
theorem Scans.mark {leaves : Char → Bool} {before after : Nat} {char : Char} {token : Token}
    (mark : char ∈ "+-*&|^~()".toList)
    (read : ∀ rest : List Char, (∀ next ∈ rest.head?, leaves next = true) →
      Token.sign? (char :: rest) = some (token, rest))
    (depth : Token.depthAfter? before token = some after) :
    Scans leaves before after [char] [token] := by
  have all : "+-*&|^~()".toList.all (fun char =>
      startsToken char && isSymbol char && char ≠ '.') = true := by
    decide
  have each := List.all_eq_true.mp all char mark
  simp only [Bool.and_eq_true, decide_eq_true_eq] at each
  obtain ⟨⟨starts, symbol⟩, noDot⟩ := each
  apply Scans.token starts ?_ depth
  intro site rest quoteless ends
  rw [List.cons_append, List.nil_append] at quoteless ⊢
  rw [next?_sign quoteless (continuesName_of_isSymbol symbol) noDot, read rest ends]

theorem Scans.operator (operator : Operator) (depth : Nat) :
    Scans leavesOperator depth depth [operator.char] [operator.token] := by
  apply Scans.mark
  · cases operator <;> decide
  · exact fun rest leaves => operator.sign?_eq leaves
  · cases operator <;> rfl

theorem Scans.sign (sign : Sign) (depth : Nat) :
    Scans leavesOperator depth depth [sign.char] [sign.token] := by
  cases sign with
  | positive => exact Scans.operator .add depth
  | negative => exact Scans.operator .sub depth
  | complement => exact Scans.mark (by decide) (fun _ _ => rfl) rfl

theorem Scans.openParen (leaves : Char → Bool) (depth : Nat) :
    Scans leaves depth (depth + 1) ['('] [.openParen] :=
  Scans.mark (by decide) (fun _ _ => rfl) rfl

theorem Scans.closeParen (leaves : Char → Bool) (depth : Nat) :
    Scans leaves (depth + 1) depth [')'] [.closeParen] :=
  Scans.mark (by decide) (fun _ _ => rfl) rfl

theorem next?_number {first : Char} {text : List Char} (quoteless : Quoteless (first :: text))
    (digit : first.isDigit = true) (site : Nat) :
    Token.next? site (first :: text) = Token.number? (first :: text) := by
  simp only [Token.next?, opening?_eq_none quoteless, digit, if_true]

/-- A number without the letter of a base is decimal. -/
theorem number?_eq_decimal? {text : List Char}
    (noBase : ∀ letter rest, text = '0' :: letter :: rest → Token.startsName letter = false) :
    Token.number? text = Token.decimal? text := by
  unfold Token.number?
  split
  case h_7 => rfl
  all_goals exact absurd (noBase _ _ rfl) (by decide)

theorem decimal?_eq {digits rest : List Char} (each : digits.all Char.isDigit = true)
    (noZero : digits.head? = some '0' → digits.all (· = '0') = true)
    (ends : ∀ char ∈ rest.head?, isBreak char = true) :
    Token.decimal? (digits ++ rest) = some (.int (Text.positional 10 digits), rest) := by
  have stops : ∀ char ∈ rest.head?, char.isDigit = false := by
    intro char first
    have other := (isBreak_eq (ends char first)).1
    rw [Token.continuesName, Bool.or_eq_false_iff] at other
    exact other.2
  have cut : (digits ++ rest).span Char.isDigit = (digits, rest) :=
    Text.span_append (List.all_eq_true.mp each) stops
  have allowed : ¬ (digits.head? = some '0' ∧ ¬ digits.all (· = '0') = true) :=
    fun leading => leading.2 (noZero leading.1)
  simp only [Token.decimal?, cut, Text.digitsValue_eq_positional]
  split
  · exact absurd rfl (isBreak_eq (ends '.' rfl)).2.2
  · exact absurd (isBreak_eq (ends 'e' rfl)).1 (by decide)
  · exact absurd (isBreak_eq (ends 'E' rfl)).1 (by decide)
  · exact if_neg allowed

theorem Scans.decimal {digits : List Char} (some : digits ≠ [])
    (each : digits.all Char.isDigit = true)
    (noZero : digits.head? = .some '0' → digits.all (· = '0') = true) (depth : Nat) :
    Scans isBreak depth depth digits [.int (Text.positional 10 digits)] := by
  obtain ⟨first, chars, rfl⟩ := List.exists_cons_of_ne_nil some
  have digit := List.all_eq_true.mp each first List.mem_cons_self
  have starts : startsToken first = true :=
    startsToken_of_continuesName (by simp [Token.continuesName, digit])
  apply Scans.token starts ?_ rfl
  intro site rest quoteless ends
  rw [List.cons_append] at quoteless
  have noBase : ∀ letter later, first :: (chars ++ rest) = '0' :: letter :: later →
      Token.startsName letter = false := by
    intro letter later same
    have next := (List.cons.inj same).2
    rw [Bool.eq_false_iff]
    intro starts
    cases chars with
    | nil =>
        rw [List.nil_append] at next
        have other := (isBreak_eq (ends letter (next ▸ rfl))).1
        simp [Token.continuesName, starts] at other
    | cons second chars =>
        obtain ⟨rfl, -⟩ := List.cons.inj next
        have second := List.all_eq_true.mp each second (by simp)
        rw [isDigit_of_startsName starts] at second
        cases second
  rw [List.cons_append, next?_number quoteless digit, number?_eq_decimal? noBase,
    ← List.cons_append, decimal?_eq each noZero ends]

theorem Scans.hex {letter : Char} {digits : List Char} (marks : letter = 'x' ∨ letter = 'X')
    (some : digits ≠ []) (each : digits.all (Text.isDigitOf 16) = true) (depth : Nat) :
    Scans isBreak depth depth ('0' :: letter :: digits) [.int (Text.positional 16 digits)] := by
  apply Scans.token (by decide) ?_ rfl
  intro site rest quoteless ends
  have cut : (digits ++ rest).span (Text.isDigitOf 16) = (digits, rest) :=
    Text.span_append (List.all_eq_true.mp each) fun char first => (isBreak_eq (ends char first)).2.1
  have number : Token.basedInt? 16 none (digits ++ rest) =
      Option.some (.int (Text.positional 16 digits), rest) := by
    simp only [Token.basedInt?, cut, Text.digitsValue_eq_positional,
      List.isEmpty_eq_false_iff.mpr some, Bool.false_eq_true, if_false]
  rw [List.cons_append] at quoteless ⊢
  rw [next?_number quoteless rfl, ← number]
  rcases marks with rfl | rfl
  · rfl
  · rfl

theorem next?_name {first : Char} {chars rest : List Char}
    (starts : Token.startsName first = true)
    (continues : ∀ char ∈ first :: chars, Token.continuesName char = true)
    (noKeyword : String.ofList (first :: chars) ∉ keywords)
    (ends : ∀ char ∈ rest.head?, Token.continuesName char = false)
    (quoteless : Quoteless (first :: chars ++ rest)) (site : Nat) :
    Token.next? site (first :: chars ++ rest) =
      some (.name (String.ofList (first :: chars)), rest) := by
  have noDigit := isDigit_of_startsName starts
  have noDot : first ≠ '.' :=
    ne_of_continuesName (continues first List.mem_cons_self) (by decide)
  have cut := Text.span_append continues ends
  rw [List.cons_append] at quoteless cut ⊢
  simp only [Token.next?, opening?_eq_none quoteless, noDigit, noDot, starts, cut,
    ofWord?_eq_name noKeyword, Bool.false_eq_true, if_false, if_true, Option.map_some]

theorem Scans.name {name : String} (identifier : isIdentifier name = true) (depth : Nat) :
    Scans isBreak depth depth name.toList [.name name] := by
  obtain ⟨⟨first, chars, written, starts⟩, continues, noKeyword, -⟩ := isIdentifier_eq identifier
  have whole : String.ofList (first :: chars) = name := by rw [← written, String.ofList_toList]
  rw [written] at continues ⊢
  apply Scans.token (startsToken_of_continuesName (continues first List.mem_cons_self)) ?_ rfl
  intro site rest quoteless ends
  rw [next?_name starts continues (whole ▸ noKeyword)
    (fun char next => (isBreak_eq (ends char next)).1) quoteless, whole]

theorem leavesOperator_of_continuesName {char : Char}
    (continues : Token.continuesName char = true) : leavesOperator char = true := by
  have noEquals : char ≠ '=' := ne_of_continuesName continues (by decide)
  have noStar : char ≠ '*' := ne_of_continuesName continues (by decide)
  simp [leavesOperator, noEquals, noStar]

/-- No operator goes on with the start of a formula. -/
theorem Spells.starts {formula : Formula} {text : List Char} (spells : Spells formula text)
    (proper : formula.Proper) : text ≠ [] ∧ ∀ char ∈ text.head?, leavesOperator char = true := by
  induction spells with
  | decimal some each _ =>
      refine ⟨some, fun char first => leavesOperator_of_continuesName ?_⟩
      simp [Token.continuesName, List.all_eq_true.mp each char (List.mem_of_head? first)]
  | hex _ _ _ => exact ⟨List.cons_ne_nil _ _, by rintro char ⟨⟩; rfl⟩
  | equate name =>
      obtain ⟨⟨first, chars, written, -⟩, continues, -⟩ := isIdentifier_eq proper
      refine ⟨by simp [written], fun char first => leavesOperator_of_continuesName ?_⟩
      exact continues char (List.mem_of_head? first)
  | group _ _ => exact ⟨List.cons_ne_nil _ _, by rintro char ⟨⟩; rfl⟩
  | signed sign _ _ => exact ⟨List.cons_ne_nil _ _, by rintro char ⟨⟩; cases sign <;> rfl⟩
  | joined _ _ _ firstIH _ =>
      obtain ⟨nonempty, starts⟩ := firstIH proper.2.2.1
      obtain ⟨first, chars, rfl⟩ := List.exists_cons_of_ne_nil nonempty
      exact ⟨List.cons_ne_nil _ _, starts⟩
  | blankBefore separates _ _ =>
      refine ⟨List.cons_ne_nil _ _, ?_⟩
      rintro char ⟨⟩
      rcases eq_of_separates separates with rfl | rfl
      · rfl
      · rfl
  | blankBehind _ _ ih =>
      obtain ⟨nonempty, starts⟩ := ih proper
      obtain ⟨first, chars, rfl⟩ := List.exists_cons_of_ne_nil nonempty
      exact ⟨List.cons_ne_nil _ _, starts⟩

/-- The tokens of a formula are read from every way to write it. -/
theorem Spells.scans {formula : Formula} {text : List Char} (spells : Spells formula text)
    (proper : formula.Proper) (depth : Nat) : Scans isBreak depth depth text formula.tokens := by
  induction spells generalizing depth with
  | decimal some each noZero => exact Scans.decimal some each noZero depth
  | hex marks some each => exact Scans.hex marks some each depth
  | equate name => exact Scans.name proper depth
  | group inner ih =>
      have closed := (ih proper (depth + 1)).append (Scans.closeParen isBreak depth) (by simp)
        (by rintro char ⟨⟩; rfl)
      exact (Scans.openParen (fun _ => true) depth).append closed (by simp) fun _ _ => rfl
  | signed sign behind ih =>
      obtain ⟨nonempty, starts⟩ := behind.starts proper.2
      exact (Scans.sign sign depth).append (ih proper.2 depth) nonempty starts
  | joined operator first second firstIH secondIH =>
      obtain ⟨nonempty, starts⟩ := second.starts proper.2.2.2
      have rest := (Scans.operator operator depth).append (secondIH proper.2.2.2 depth) nonempty
        starts
      apply (firstIH proper.2.2.1 depth).append rest (List.cons_ne_nil _ _)
      rintro char ⟨⟩
      cases operator <;> rfl
  | blankBefore separates spelled ih =>
      obtain ⟨nonempty, starts⟩ := spelled.starts proper
      exact (Scans.blank separates (fun _ => true) depth).append (ih proper depth) nonempty
        fun _ _ => rfl
  | @blankBehind formula text blank separates spelled ih =>
      have whole := (ih proper depth).append (Scans.blank separates isBreak depth) (by simp) ?_
      · rw [List.append_nil] at whole
        exact whole
      · rintro char ⟨⟩
        rcases eq_of_separates separates with rfl | rfl
        · rfl
        · rfl

def Token.isPlain : Token → Bool
  | int _ | name _ | plus | minus | tilde | binary _ | openParen | closeParen | assign => true
  | _ => false

theorem Formula.isPlain_tokens (formula : Formula) :
    ∀ token ∈ formula.tokens, token.isPlain = true := by
  induction formula with
  | literal value => simp [tokens, Token.isPlain]
  | equate name => simp [tokens, Token.isPlain]
  | group body ih =>
      intro token member
      simp only [tokens, List.mem_cons, List.mem_append, List.not_mem_nil, or_false] at member
      rcases member with rfl | inside | rfl
      · rfl
      · exact ih token inside
      · rfl
  | signed sign operand ih =>
      intro token member
      rcases List.mem_cons.mp member with rfl | inside
      · cases sign <;> rfl
      · exact ih token inside
  | joined operator left right leftIH rightIH =>
      intro token member
      rcases List.mem_append.mp member with inLeft | behind
      · exact leftIH token inLeft
      · rcases List.mem_cons.mp behind with rfl | inRight
        · cases operator <;> rfl
        · exact rightIH token inRight

theorem joinNotIn_append {tokens : List Token} (plain : ∀ token ∈ tokens, token.isPlain = true)
    (rest : List Token) :
    Token.joinNotIn (tokens ++ rest) = tokens ++ Token.joinNotIn rest := by
  induction tokens with
  | nil => rfl
  | cons token tokens ih =>
      have later := ih fun token member => plain token (List.mem_cons_of_mem _ member)
      have first := plain token List.mem_cons_self
      rw [List.cons_append, List.cons_append, ← later]
      cases token <;> cases first <;> rfl

/-- Plain tokens between the margin and the end of the line make a line. -/
theorem ofTokens_line {tokens : List Token} (plain : ∀ token ∈ tokens, token.isPlain = true)
    (column : Nat) :
    Line.ofTokens (.margin column :: (tokens ++ [.newline])) = [⟨column, tokens⟩] := by
  obtain ⟨step, lines, plainStep, ends, starts⟩ :
      ∃ step : Token → List Token × List Line → List Token × List Line,
        (∀ tokens, Line.ofTokens tokens = (tokens.foldr step ([], [])).2) ∧
          (∀ token state, Token.isPlain token = true →
            step token state = (token :: state.1, state.2)) ∧
          (∀ state, step .newline state = ([], state.2)) ∧
          ∀ state, step (.margin column) state = ([], ⟨column, state.1⟩ :: state.2) := by
    refine ⟨_, fun _ => rfl, ?_, fun _ => rfl, fun _ => rfl⟩
    intro token state plain
    cases token <;> cases plain <;> rfl
  have fold : tokens.foldr step ([], []) = (tokens, []) := by
    induction tokens with
    | nil => rfl
    | cons token tokens ih =>
        rw [List.foldr_cons, ih fun token member => plain token (List.mem_cons_of_mem _ member),
          plainStep token _ (plain token List.mem_cons_self)]
  rw [lines, List.foldr_cons, List.foldr_append, List.foldr_cons, List.foldr_nil, ends, fold,
    starts]

theorem scanFor_newline {bound : Nat} (enough : 1 < bound) :
    Token.scanFor bound 0 false ['\n'] = some [.newline] := by
  match bound, enough with
  | bound + 2, _ => rfl

section Line

variable {formula : Formula} {text : List Char} (spells : Spells formula text)
  (proper : formula.Proper)
include spells proper

theorem Spells.quoteless {front : List Char} (before : Quoteless front) :
    Quoteless (front ++ (text ++ ['\n'])) := by
  have noDouble : '"' ∉ text := spells.notMem proper (by decide) (by decide)
  have noSingle : '\'' ∉ text := spells.notMem proper (by decide) (by decide)
  constructor
  · simp [before.1, noDouble]
  · simp [before.2, noSingle]

theorem Spells.next?_target (site : Nat) :
    Token.next? site ('r' :: 'c' :: '=' :: (text ++ ['\n'])) =
      some (.name resultName, '=' :: (text ++ ['\n'])) := by
  have continues : ['r', 'c'].all Token.continuesName = true := by decide
  apply @next?_name 'r' ['c'] ('=' :: (text ++ ['\n']))
  · decide
  · exact List.all_eq_true.mp continues
  · decide
  · rintro char ⟨⟩
    exact continuesName_of_isSymbol (by decide)
  · exact spells.quoteless proper (by decide : Quoteless ['r', 'c', '='])

theorem Spells.next?_assign (site : Nat) :
    Token.next? site ('=' :: (text ++ ['\n'])) = some (.assign, text ++ ['\n']) := by
  obtain ⟨nonempty, starts⟩ := spells.starts proper
  have single (rest : List Char) : text ++ ['\n'] ≠ '=' :: rest := by
    obtain ⟨first, chars, rfl⟩ := List.exists_cons_of_ne_nil nonempty
    rintro ⟨⟩
    exact absurd (starts '=' rfl) (by decide)
  have quoteless : Quoteless ('=' :: (text ++ ['\n'])) :=
    spells.quoteless proper (by decide : Quoteless ['='])
  rw [next?_sign quoteless (continuesName_of_isSymbol (by decide)) (by decide),
    Token.sign?.eq_2 _ single]

/-- The line that assigns a formula to the result. -/
theorem Spells.line_eq :
    Line.ofText? (resultName.toList ++ '=' :: text ++ ['\n']) =
      some [⟨0, .name resultName :: .assign :: formula.tokens⟩] := by
  have whole : resultName.toList ++ '=' :: text ++ ['\n'] = 'r' :: 'c' :: '=' :: (text ++ ['\n']) :=
    by simp [resultName]
  have noReturn : '\r' ∉ 'r' :: 'c' :: '=' :: (text ++ ['\n']) := by
    have inside : '\r' ∉ text := spells.notMem proper (by decide) (by decide)
    simp [inside]
  have plain : ∀ token ∈ .name resultName :: .assign :: formula.tokens,
      Token.isPlain token = true := by
    intro token member
    rcases List.mem_cons.mp member with rfl | member
    · rfl
    · rcases List.mem_cons.mp member with rfl | member
      · rfl
      · exact formula.isPlain_tokens token member
  obtain ⟨later, enough, read⟩ := spells.scans proper 0 (text.length + 3) ['\n'] (by simp)
    (spells.quoteless proper (by decide : Quoteless [])) (by rintro char ⟨⟩; rfl)
  have scanned : Token.scan? ('r' :: 'c' :: '=' :: (text ++ ['\n'])) =
      some (.margin 0 :: (.name resultName :: .assign :: formula.tokens ++ [.newline])) := by
    rw [Token.scan?, Text.withLineFeeds_eq_self noReturn]
    simp only [List.length_cons, List.length_append, List.length_nil]
    rw [scanFor_next (by decide) (spells.next?_target proper _) rfl,
      scanFor_next (by decide) (spells.next?_assign proper _) rfl, read, scanFor_newline enough]
    change some (.margin 0 :: Token.joinNotIn
      (.name resultName :: .assign :: formula.tokens ++ [.newline])) = _
    rw [joinNotIn_append plain]
    rfl
  rw [whole, Line.ofText?, scanned, Option.map_some, ofTokens_line plain]

end Line

end Expression
end ReversibleMips
