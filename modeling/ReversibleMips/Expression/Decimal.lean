import ReversibleMips.Expression.Binary64

/-!
# Decimal texts of numbers

A number is shown by the fewest digits that are read back as the same number, and of those
by the ones closest to it.  It is also shown with six digits behind the point.  All
decisions are made with exact integers.
-/

namespace ReversibleMips
namespace Expression

/-- Digits, with the number of them in front of the decimal point, which may lie outside. -/
structure Decimal where
  digits : List Char
  point : Int

namespace Decimal

def scaledBy (numerator denominator : Nat) (power : Int) : Nat × Nat :=
  match power with
  | .ofNat power => (numerator * Nat.pow 10 power, denominator)
  | .negSucc power => (numerator, denominator * Nat.pow 10 (power + 1))

def rounded (numerator denominator : Nat) : Nat :=
  let whole := numerator / denominator
  let rest := numerator % denominator * 2
  if denominator < rest ∨ (rest = denominator ∧ whole % 2 = 1) then whole + 1 else whole

def ofNat (value : Nat) (power : Int) : Decimal :=
  let digits := (toString value).toList
  ⟨digits, digits.length + power⟩

def fraction (value : Binary64.Scaled) : Nat × Nat :=
  match value.exponent with
  | .ofNat power => (value.mantissa.natAbs <<< power, 1)
  | .negSucc power => (value.mantissa.natAbs, 1 <<< (power + 1))

def powerAbove (value : Binary64.Scaled) : Int :=
  ((value.mantissa.natAbs.log2 + value.exponent + 1) * 30103).fdiv 100000 + 2

/-- The numbers around a number that are read as the same number, as numerators over a
denominator. -/
structure Interval where
  low : Nat
  middle : Nat
  high : Nat
  denominator : Nat
  closed : Bool

/-- The interval of an exact value that is not zero.  Below a power of two the numbers are
twice as dense. -/
def interval (value : Binary64.Scaled) : Interval :=
  let mantissa := value.mantissa.natAbs
  let below := if mantissa = 0x10000000000000 ∧ -1074 < value.exponent then 1 else 2
  let (unit, denominator) :=
    match value.exponent with
    | .ofNat power => (1 <<< power, 4)
    | .negSucc power => (1, 4 <<< (power + 1))
  ⟨(4 * mantissa - below) * unit, 4 * mantissa * unit, (4 * mantissa + 2) * unit, denominator,
    mantissa % 2 = 0⟩

def within? (interval : Interval) (power : Int) : Option Nat :=
  let (low, denominator) := scaledBy interval.low interval.denominator (-power)
  let (middle, _) := scaledBy interval.middle interval.denominator (-power)
  let (high, _) := scaledBy interval.high interval.denominator (-power)
  let first :=
    if interval.closed then (low + denominator - 1) / denominator else low / denominator + 1
  let last :=
    if interval.closed then high / denominator else (high + denominator - 1) / denominator - 1
  if first ≤ last then some (max first (min last (rounded middle denominator))) else none

/-- The decimal with the highest power of ten, up to some power, in an interval.  The first
argument bounds the search. -/
def search (interval : Interval) : Nat → Int → Decimal
  | 0, power => ofNat 0 power
  | bound + 1, power =>
      match within? interval power with
      | some value => ofNat value power
      | none => search interval bound (power - 1)

def shortest (value : Binary64.Scaled) : Decimal :=
  if value.mantissa = 0 then ⟨['0'], 1⟩
  else search (interval value) 40 (powerAbove value)

/-- A number of digits of an exact value.  The first argument bounds the search for the
power of ten, which starts at some power.  The value itself decides how many digits there
are in front of the power, before it is rounded. -/
def significantFrom (value : Binary64.Scaled) (count : Nat) : Nat → Int → Decimal
  | 0, power => ofNat 0 power
  | bound + 1, power =>
      let (numerator, denominator) := fraction value
      let (numerator, denominator) := scaledBy numerator denominator (-power)
      let least := Nat.pow 10 (count - 1)
      if least ≤ numerator / denominator then
        let digits := rounded numerator denominator
        if digits = 10 * least then ofNat least (power + 1) else ofNat digits power
      else
        significantFrom value count bound (power - 1)

def significant (value : Binary64.Scaled) (count : Nat) : Decimal :=
  if value.mantissa = 0 then ⟨List.replicate count '0', 1⟩
  else significantFrom value count 8 (powerAbove value - (count - 1))

def withExponent (decimal : Decimal) (letter : Char) : List Char :=
  let exponent := decimal.point - 1
  let digits := (toString exponent.natAbs).toList
  let digits := if digits.length < 2 then '0' :: digits else digits
  let tail := letter :: (if exponent < 0 then '-' else '+') :: digits
  match decimal.digits with
  | [] => tail
  | [digit] => digit :: tail
  | first :: rest => first :: '.' :: rest ++ tail

def positional (decimal : Decimal) : List Char :=
  match decimal.point with
  | .ofNat count =>
      if count = 0 then '0' :: '.' :: decimal.digits
      else
        let whole := decimal.digits.take count
        let fraction := decimal.digits.drop count
        whole ++ List.replicate (count - whole.length) '0' ++
          (if fraction.isEmpty then [] else '.' :: fraction)
  | .negSucc zeros => '0' :: '.' :: List.replicate (zeros + 1) '0' ++ decimal.digits

end Decimal

inductive FloatStyle where
  | shortest
  /-- With an exponent and six digits behind the point. -/
  | scientific
  | fixed
deriving DecidableEq

namespace FloatStyle

/-- An exact value without its sign, with a letter in front of exponents.  The fewest
digits have an exponent if the number is small or large, and else a point. -/
def render (style : FloatStyle) (letter : Char) (value : Binary64.Scaled) : List Char :=
  match style with
  | .shortest =>
      let decimal := Decimal.shortest value
      if decimal.point < -3 ∨ 6 < decimal.point then decimal.withExponent letter
      else
        let chars := decimal.positional
        if chars.contains '.' then chars else chars ++ ['.', '0']
  | .scientific => (Decimal.significant value 7).withExponent letter
  | .fixed =>
      let (numerator, denominator) := Decimal.fraction value
      let units := Decimal.rounded (numerator * 1000000) denominator
      let places := (toString (units % 1000000 + 1000000)).toList.drop 1
      (toString (units / 1000000)).toList ++ '.' :: places

def shown (style : FloatStyle) (letter : Char) (number : Float) : List Char :=
  match Binary64.scaled? number with
  | none =>
      if number.isNaN then ['n', 'a', 'n']
      else if number < 0.0 then ['-', 'i', 'n', 'f']
      else ['+', 'i', 'n', 'f']
  | some value =>
      let chars := style.render letter value
      if number.toBits.toNat < 0x8000000000000000 then chars else '-' :: chars

end FloatStyle
end Expression
end ReversibleMips
