import ReversibleMips.Text.IntLiteral
import ReversibleMips.Text.Numeral

/-!
# Reading numerals back

What the simulator writes of a number, in decimal or in hexadecimal, is read as that
number again.  Numerals are put together from the left, one digit at a time, and so both
directions meet in the induction that `Nat.toDigits` gives: a numeral of several digits is
the numeral of a smaller number with one more digit behind it.  A text that starts with
neither a digit nor a sign is not read as a number at all.
-/

namespace ReversibleMips
namespace Text

theorem digitValue?_digitChar {digit : Nat} (small : digit < 16) :
    digitValue? digit.digitChar = some digit := by
  have all : ∀ digit < 16, digitValue? (Nat.digitChar digit) = some digit := by decide
  exact all digit small

theorem digitChar_ne_underscore {digit : Nat} (small : digit < 16) :
    digit.digitChar ≠ '_' := by
  have all : ∀ digit < 16, Nat.digitChar digit ≠ '_' := by decide
  exact all digit small

theorem isAlphanum_digitChar {digit : Nat} (small : digit < 16) :
    digit.digitChar.isAlphanum = true := by
  have all : ∀ digit < 16, (Nat.digitChar digit).isAlphanum = true := by decide
  exact all digit small

theorem exists_digit_of_mem_toDigits {base number : Nat} {char : Char} (proper : 1 < base)
    (member : char ∈ Nat.toDigits base number) : ∃ digit < base, char = digit.digitChar := by
  induction number using Nat.strongRecOn with
  | ind number ih =>
      rw [Nat.toDigits_eq_if proper] at member
      split at member
      · rename_i single
        exact ⟨number, single, List.mem_singleton.mp member⟩
      · rename_i several
        rcases List.mem_append.mp member with front | last
        · exact ih (number / base) (Nat.div_lt_self (by omega) proper) front
        · exact ⟨number % base, Nat.mod_lt _ (by omega), List.mem_singleton.mp last⟩

theorem isAlphanum_of_mem_toDigits {base number : Nat} {char : Char} (proper : 1 < base)
    (written : base ≤ 16) (member : char ∈ Nat.toDigits base number) :
    char.isAlphanum = true := by
  obtain ⟨digit, small, rfl⟩ := exists_digit_of_mem_toDigits proper member
  exact isAlphanum_digitChar (by omega)

theorem underscore_notMem_toDigits {base : Nat} (number : Nat) (proper : 1 < base)
    (written : base ≤ 16) : '_' ∉ Nat.toDigits base number := by
  intro member
  obtain ⟨digit, small, same⟩ := exists_digit_of_mem_toDigits proper member
  exact digitChar_ne_underscore (by omega) same.symm

theorem digits_ne_nil (base width number : Nat) : digits base width number ≠ [] := by
  simp [digits, Nat.toDigits_ne_nil]

theorem underscore_notMem_digits {base : Nat} (width number : Nat) (proper : 1 < base)
    (written : base ≤ 16) : '_' ∉ digits base width number := by
  simp only [digits, List.mem_append, not_or]
  constructor
  · intro member
    exact absurd (List.eq_of_mem_replicate member) (by decide)
  · exact underscore_notMem_toDigits number proper written

/-- Only the numeral of zero starts with a zero. -/
theorem head?_toDigits_ne_zero {number : Nat} (positive : 0 < number) :
    (Nat.toDigits 10 number).head? ≠ some '0' := by
  induction number using Nat.strongRecOn with
  | ind number ih =>
      rw [Nat.toDigits_eq_if (by omega)]
      split
      · simp only [List.head?_cons, ne_eq, Option.some.injEq, Nat.digitChar_eq_zero]
        omega
      · rename_i several
        have front := ih (number / 10) (by omega) (by omega)
        obtain ⟨first, rest, written⟩ :=
          List.exists_cons_of_ne_nil (Nat.toDigits_ne_nil : Nat.toDigits 10 (number / 10) ≠ [])
        rw [written] at front ⊢
        exact front

theorem toList_toString_ofNat (number : Nat) :
    (toString (Int.ofNat number)).toList = Nat.toDigits 10 number :=
  Nat.toList_repr

theorem toList_toString_negSucc (number : Nat) :
    (toString (Int.negSucc number)).toList = '-' :: Nat.toDigits 10 (number + 1) := by
  change ("-" ++ (number + 1).repr).toList = _
  rw [String.toList_append, Nat.toList_repr]
  rfl

theorem toList_toString_ne_nil (number : Int) : (toString number).toList ≠ [] := by
  cases number with
  | ofNat number =>
      rw [toList_toString_ofNat]
      exact Nat.toDigits_ne_nil
  | negSucc number =>
      rw [toList_toString_negSucc]
      exact List.cons_ne_nil _ _

theorem isAlphanum_of_mem_toString {number : Int} {char : Char}
    (member : char ∈ (toString number).toList) : char = '-' ∨ char.isAlphanum = true := by
  cases number with
  | ofNat number =>
      rw [toList_toString_ofNat] at member
      exact .inr (isAlphanum_of_mem_toDigits (by omega : 1 < 10) (by omega) member)
  | negSucc number =>
      rw [toList_toString_negSucc] at member
      rcases List.mem_cons.mp member with minus | digit
      · exact .inl minus
      · exact .inr (isAlphanum_of_mem_toDigits (by omega : 1 < 10) (by omega) digit)

theorem toList_hexWord (number : Nat) :
    (hexWord number).toList = '0' :: 'x' :: digits 16 8 number := by
  simp [hexWord]

theorem isAlphanum_of_mem_hexWord {number : Nat} {char : Char}
    (member : char ∈ (hexWord number).toList) : char.isAlphanum = true := by
  simp only [toList_hexWord, digits, List.mem_cons, List.mem_append] at member
  rcases member with rfl | rfl | zero | digit
  · rfl
  · rfl
  · rw [List.eq_of_mem_replicate zero]
    rfl
  · exact isAlphanum_of_mem_toDigits (by omega : 1 < 16) (by omega) digit

/-- An integer of at most five digits is written with at most six characters. -/
theorem length_toString_le {number : Int} (least : -100000 < number)
    (greatest : number < 100000) : (toString number).toList.length ≤ 6 := by
  have short {number : Nat} (small : number < 10 ^ 5) :
      (Nat.toDigits 10 number).length ≤ 5 :=
    (Nat.length_toDigits_le_iff (by omega) (by omega)).mpr small
  cases number with
  | ofNat number =>
      have digits := short (by grind : number < 10 ^ 5)
      rw [toList_toString_ofNat]
      omega
  | negSucc number =>
      have digits := short (by grind : number + 1 < 10 ^ 5)
      rw [toList_toString_negSucc, List.length_cons]
      omega

theorem length_hexWord_le {number : Nat} (small : number < 0x100000000) :
    (hexWord number).toList.length ≤ 10 := by
  have short : (Nat.toDigits 16 number).length ≤ 8 :=
    (Nat.length_toDigits_le_iff (by omega) (by omega)).mpr small
  simp only [toList_hexWord, digits, List.length_cons, List.length_append,
    List.length_replicate]
  omega

theorem readDigits_digitChar {base max digit : Nat} (value : Nat) (rest : List Char)
    (small : digit < base) (written : base ≤ 16) (fits : value * base + digit ≤ max) :
    readDigits base max value (digit.digitChar :: rest) =
      readDigits base max (value * base + digit) rest := by
  have wanted : ¬ base ≤ digit := by omega
  have inside : ¬ max < value * base + digit := by omega
  rw [readDigits]
  · simp [digitValue?_digitChar (by omega : digit < 16), wanted, inside]
  · exact digitChar_ne_underscore (by omega)

/-- Digits are read one part after the other. -/
theorem readDigits_append {base max value middle : Nat} {front rest : List Char}
    (read : readDigits base max value front = .ok middle) :
    readDigits base max value (front ++ rest) = readDigits base max middle rest := by
  fun_induction readDigits base max value front with
  | case1 value =>
      cases read
      rfl
  | case2 value front ih =>
      rw [List.cons_append, readDigits]
      exact ih read
  | case3 value char front ordinary unknown => cases read
  | case4 value char front ordinary digit known large => cases read
  | case5 value char front ordinary digit known small outside => cases read
  | case6 value char front ordinary digit known small inside ih =>
      rw [List.cons_append, readDigits]
      · simp only [known, small, inside, if_false]
        exact ih read
      · exact ordinary

theorem readDigits_toDigits {base max number : Nat} (proper : 1 < base) (written : base ≤ 16)
    (fits : number ≤ max) : readDigits base max 0 (Nat.toDigits base number) = .ok number := by
  induction number using Nat.strongRecOn with
  | ind number ih =>
      rw [Nat.toDigits_eq_if proper]
      split
      · rename_i single
        rw [readDigits_digitChar 0 [] single written (by omega)]
        simp [readDigits]
      · -- The last digit is read behind the numeral of all digits before it.
        rename_i several
        have smaller : number / base < number := Nat.div_lt_self (by omega) proper
        have last : number % base < base := Nat.mod_lt _ (by omega)
        have whole : number / base * base + number % base = number := Nat.div_add_mod' ..
        rw [readDigits_append (ih _ smaller (by omega)),
          readDigits_digitChar _ [] last written (by omega), whole]
        rfl

theorem readDigits_zeros {base max : Nat} (count : Nat) (rest : List Char) (proper : 0 < base)
    (written : base ≤ 16) :
    readDigits base max 0 (List.replicate count '0' ++ rest) = readDigits base max 0 rest := by
  induction count with
  | zero => rfl
  | succ count ih =>
      rw [List.replicate_succ, List.cons_append]
      have step := @readDigits_digitChar base max 0 0 (List.replicate count '0' ++ rest) proper
        written (by omega)
      rw [Nat.zero_mul, Nat.zero_add] at step
      exact step.trans ih

theorem readDigits_digits {base max width number : Nat} (proper : 1 < base)
    (written : base ≤ 16) (fits : number ≤ max) :
    readDigits base max 0 (digits base width number) = .ok number := by
  rw [digits, readDigits_zeros _ _ (by omega) written, readDigits_toDigits proper written fits]

theorem underscoresFit_of_notMem {text : List Char} (absent : '_' ∉ text) (fit : Bool) :
    underscoresFit fit text = true := by
  induction text generalizing fit with
  | nil => simp [underscoresFit]
  | cons char text ih =>
      simp only [List.mem_cons, not_or] at absent
      rw [underscoresFit]
      · exact ih absent.2 true
      all_goals
        intros
        exact absurd (by assumption) (Ne.symm absent.1)

theorem literalBase_of_head_ne {text : List Char} (marked : text.head? ≠ some '0') :
    literalBase text = (10, text) := by
  unfold literalBase
  split <;> simp_all

theorem hasBaseLetter_of_head_ne {text : List Char} (marked : text.head? ≠ some '0') :
    hasBaseLetter text = false := by
  unfold hasBaseLetter
  split <;> simp_all

/-- A decimal numeral is read as its number. -/
theorem readUnsigned_toDigits {max number : Nat} (fits : number ≤ max) :
    readUnsigned max (Nat.toDigits 10 number) = .ok number := by
  by_cases zero : number = 0
  · -- The numeral of zero is the mark of octal numbers with no digit behind it.
    subst zero
    rw [Nat.toDigits_zero]
    rfl
  · have marked := head?_toDigits_ne_zero (Nat.pos_of_ne_zero zero)
    have absent := underscore_notMem_toDigits number (by omega : 1 < 10) (by omega)
    rw [readUnsigned]
    · simp only [literalBase_of_head_ne marked, hasBaseLetter_of_head_ne marked,
        readDigits_toDigits (by omega : 1 < 10) (by omega) fits,
        underscoresFit_of_notMem absent, Bool.false_eq_true, if_false, if_true]
    · exact Nat.toDigits_ne_nil

/-- A hexadecimal numeral is read as its number. -/
theorem readUnsigned_hexWord {max number : Nat} (fits : number ≤ max) :
    readUnsigned max (hexWord number).toList = .ok number := by
  have read := @readDigits_digits 16 max 8 number (by omega) (by omega) fits
  have absent := underscore_notMem_digits 8 number (by omega : 1 < 16) (by omega)
  have letter : "bBoOxX".toList.contains 'x' = true := by decide
  obtain ⟨first, rest, written⟩ := List.exists_cons_of_ne_nil (digits_ne_nil 16 8 number)
  rw [written] at read absent
  rw [toList_hexWord, written]
  simp only [readUnsigned, literalBase, hasBaseLetter, letter, read, List.drop_succ_cons,
    List.drop_zero, underscoresFit_of_notMem absent, if_true]

/-- A literal that starts with no sign is read as a number without sign. -/
theorem readInt_of_readUnsigned {text : List Char} {value : Nat}
    (unsigned : ∀ char, text.head? = some char → char.isAlphanum = true)
    (read : readUnsigned 0xffffffffffffffff text = .ok value)
    (fits : value < 0x8000000000000000) : readInt 64 text = .ok (value : Int) := by
  have inside : ¬ 0x8000000000000000 ≤ value := by omega
  have noMinus (rest : List Char) : text ≠ '-' :: rest := by
    rintro rfl
    exact absurd (unsigned '-' rfl) (by decide)
  have noPlus (rest : List Char) : text ≠ '+' :: rest := by
    rintro rfl
    exact absurd (unsigned '+' rfl) (by decide)
  simp only [readInt, Nat.reduceSub, Nat.reduceShiftLeft]
  simp only [read, inside, if_false]

/-- What is written of an integer is read as that integer. -/
theorem readInt_toString {number : Int} (least : -0x8000000000000000 ≤ number)
    (greatest : number < 0x8000000000000000) :
    readInt 64 (toString number).toList = .ok number := by
  cases number with
  | ofNat number =>
      have read := @readUnsigned_toDigits 0xffffffffffffffff number (by grind)
      rw [toList_toString_ofNat]
      refine readInt_of_readUnsigned ?_ read (by grind)
      intro char first
      exact isAlphanum_of_mem_toDigits (by omega : 1 < 10) (by omega) (List.mem_of_head? first)
  | negSucc number =>
      have read := @readUnsigned_toDigits 0xffffffffffffffff (number + 1) (by grind)
      have inside : ¬ 0x8000000000000000 < number + 1 := by grind
      rw [toList_toString_negSucc]
      simp only [readInt, Nat.reduceSub, Nat.reduceShiftLeft, read, inside, if_false]
      rfl

theorem readInt_hexWord {number : Nat} (fits : number < 0x8000000000000000) :
    readInt 64 (hexWord number).toList = .ok (number : Int) := by
  refine readInt_of_readUnsigned ?_ (readUnsigned_hexWord (by omega)) fits
  intro char first
  exact isAlphanum_of_mem_hexWord (List.mem_of_head? first)

theorem readDecimal?_toString {max number : Nat} (fits : number ≤ max) :
    readDecimal? max (toString number).toList = some number := by
  have digitsOnly : (Nat.toDigits 10 number).all Char.isDigit = true := by
    rw [List.all_eq_true]
    intro char member
    exact Nat.isDigit_of_mem_toDigits (by omega) (by omega) member
  have nonempty : (Nat.toDigits 10 number).isEmpty = false := by
    simp [Nat.toDigits_ne_nil]
  simp only [Nat.toString_eq_repr, Nat.toList_repr, readDecimal?, digitsOnly, nonempty,
    readDigits_toDigits (by omega : 1 < 10) (by omega) fits]
  rfl

theorem isDigit_of_isAlpha {char : Char} (letter : char.isAlpha = true) :
    char.isDigit = false := by
  rw [Bool.eq_false_iff]
  intro digit
  change (decide ('A'.val ≤ char.val ∧ char.val ≤ 'Z'.val) ||
    (decide ('a'.val ≤ char.val) && decide (char.val ≤ 'z'.val))) = true at letter
  change (decide ('0'.val ≤ char.val) && decide (char.val ≤ '9'.val)) = true at digit
  simp only [Bool.or_eq_true, Bool.and_eq_true, decide_eq_true_eq, UInt32.le_iff_toNat_le]
    at letter digit
  change 0x41 ≤ char.toNat ∧ char.toNat ≤ 0x5a ∨ 0x61 ≤ char.toNat ∧ char.toNat ≤ 0x7a at letter
  change 0x30 ≤ char.toNat ∧ char.toNat ≤ 0x39 at digit
  omega

theorem digitValue?_ge {char : Char} (other : char.isDigit = false) {digit : Nat}
    (found : digitValue? char = some digit) : 10 ≤ digit := by
  unfold digitValue? at found
  split at found
  · rename_i decimal
    have isDigit : char.isDigit = true := by
      change (decide ('0'.val ≤ char.val) && decide (char.val ≤ '9'.val)) = true
      rw [Bool.and_eq_true, decide_eq_true_eq, decide_eq_true_eq]
      exact decimal
    rw [isDigit] at other
    cases other
  · split at found
    · cases found
      exact Nat.le_add_left 10 _
    · split at found
      · cases found
        exact Nat.le_add_left 10 _
      · cases found

theorem readUnsigned_of_head {first : Char} (other : first.isDigit = false) (max : Nat)
    (rest : List Char) : ∃ error, readUnsigned max (first :: rest) = .error error := by
  have noZero : (first :: rest).head? ≠ some '0' := by
    rintro ⟨⟩
    cases other
  simp only [readUnsigned, literalBase_of_head_ne noZero, hasBaseLetter_of_head_ne noZero]
  by_cases underscore : first = '_'
  · subst underscore
    cases readDigits 10 max 0 ('_' :: rest) with
    | error error => exact ⟨error, rfl⟩
    | ok value => exact ⟨.malformed, rfl⟩
  · have malformed : readDigits 10 max 0 (first :: rest) = .error .malformed := by
      rw [readDigits.eq_3 _ _ _ _ _ underscore]
      split
      · rfl
      · rename_i digit found
        rw [if_pos (digitValue?_ge other found)]
    rw [malformed]
    exact ⟨.malformed, rfl⟩

/-- A text that starts with neither a digit nor a sign is no number. -/
theorem readInt_of_head {first : Char} (other : first.isDigit = false) (noMinus : first ≠ '-')
    (noPlus : first ≠ '+') (bits : Nat) (rest : List Char) :
    ∃ error, readInt bits (first :: rest) = .error error := by
  obtain ⟨error, read⟩ := readUnsigned_of_head other ((1 <<< bits) - 1) rest
  have noMinusText (behind : List Char) : first :: rest ≠ '-' :: behind :=
    fun same => noMinus (List.cons.inj same).1
  have noPlusText (behind : List Char) : first :: rest ≠ '+' :: behind :=
    fun same => noPlus (List.cons.inj same).1
  refine ⟨error, ?_⟩
  simp only [readInt]
  simp only [read]

end Text
end ReversibleMips
