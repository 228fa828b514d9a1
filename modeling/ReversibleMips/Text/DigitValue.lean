import ReversibleMips.Text.IntLiteral

/-!
# The values of digits

The number that digits are.  Long numbers are put together from pairs of digits, then
from pairs of those, and so on, so that most products are of numbers of the same size.
The main statement is that this is the number that one gets digit by digit.
-/

namespace ReversibleMips
namespace Text

def isDigitOf (base : Nat) (char : Char) : Bool :=
  match digitValue? char with
  | some digit => digit < base
  | none => false

/-- The value of a character as a digit.  Other characters count as zero. -/
def digitOrZero (char : Char) : Nat := (digitValue? char).getD 0

/-- Put neighbouring digits together, of which the least comes first.  The results are
digits of the squared base. -/
def pairDigits (base : Nat) : List Nat → List Nat
  | low :: high :: rest => (low + base * high) :: pairDigits base rest
  | rest => rest

/-- Put digits together, of which the least comes first.  The first argument bounds their
number. -/
def joinDigits : Nat → Nat → List Nat → Nat
  | _, _, [] => 0
  | _, _, [digit] => digit
  | 0, _, _ => 0
  | bound + 1, base, digits => joinDigits bound (base * base) (pairDigits base digits)

def digitsValue (base : Nat) (digits : List Char) : Nat :=
  joinDigits digits.length base (digits.map digitOrZero).reverse

def weigh (base : Nat) : List Nat → Nat
  | [] => 0
  | digit :: rest => digit + base * weigh base rest

theorem weigh_pairDigits (base : Nat) (digits : List Nat) :
    weigh (base * base) (pairDigits base digits) = weigh base digits := by
  fun_induction pairDigits base digits with
  | case1 low high rest ih =>
      simp only [weigh, ih, Nat.mul_add, Nat.mul_assoc, Nat.add_assoc]
  | case2 rest short =>
      match rest, short with
      | [], _ => rfl
      | [_], _ => simp [weigh]
      | low :: high :: rest, short => exact absurd rfl (short low high rest)

theorem length_pairDigits_le (base : Nat) (digits : List Nat) :
    2 * (pairDigits base digits).length ≤ digits.length + 1 := by
  fun_induction pairDigits base digits with
  | case1 low high rest ih =>
      simp only [List.length_cons]
      omega
  | case2 rest short =>
      match rest, short with
      | [], _ => simp
      | [_], _ => simp
      | low :: high :: rest, short => exact absurd rfl (short low high rest)

theorem joinDigits_eq_weigh (bound base : Nat) (digits : List Nat)
    (enough : digits.length ≤ bound) : joinDigits bound base digits = weigh base digits := by
  fun_induction joinDigits bound base digits with
  | case1 => rfl
  | case2 => simp [weigh]
  | case3 base digits nonempty several =>
      match digits, nonempty with
      | [], nonempty => exact absurd rfl nonempty
      | _ :: _, _ => simp at enough
  | case4 bound base digits nonempty several ih =>
      have half := length_pairDigits_le base digits
      have long : 2 ≤ digits.length := by
        match digits, nonempty, several with
        | [], nonempty, _ => exact absurd rfl nonempty
        | [digit], _, several => exact absurd rfl (several digit)
        | _ :: _ :: _, _, _ => simp
      rw [ih (by omega), weigh_pairDigits]

theorem digitsValue_append_singleton (base : Nat) (digits : List Char) (last : Char) :
    digitsValue base (digits ++ [last]) = digitsValue base digits * base + digitOrZero last := by
  simp only [digitsValue]
  rw [joinDigits_eq_weigh _ _ _ (by simp), joinDigits_eq_weigh _ _ _ (by simp)]
  simp only [List.map_append, List.map_cons, List.map_nil, List.reverse_append,
    List.reverse_cons, List.reverse_nil, List.nil_append, List.cons_append, weigh]
  rw [Nat.mul_comm base, Nat.add_comm]

end Text
end ReversibleMips
