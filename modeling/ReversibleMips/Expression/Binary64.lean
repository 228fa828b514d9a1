import ReversibleMips.Text.DigitValue

/-!
# Double-precision numbers

The exact value of a double-precision number is an integer times a power of two.
Comparing such numbers with integers, cutting off their fractions and taking
remainders goes through these exact values.
-/

namespace ReversibleMips
namespace Expression
namespace Binary64

/-- An integer times a power of two. -/
structure Scaled where
  mantissa : Int
  exponent : Int

def scaled? (number : Float) : Option Scaled :=
  let bits : Nat := number.toBits.toNat
  let fraction : Nat := bits % 0x10000000000000
  let exponent : Nat := bits / 0x10000000000000 % 0x800
  let sign : Int := if bits < 0x8000000000000000 then 1 else -1
  if exponent = 0x7ff then none
  else if exponent = 0 then some ⟨sign * fraction, -1074⟩
  else some ⟨sign * ((fraction + 0x10000000000000 : Nat) : Int), (exponent : Int) - 1075⟩

def compareInt (value : Int) (other : Scaled) : Ordering :=
  if 0 ≤ other.exponent then compare value (other.mantissa <<< other.exponent.toNat)
  else compare (value <<< (-other.exponent).toNat) other.mantissa

def truncate (value : Scaled) : Int :=
  if 0 ≤ value.exponent then value.mantissa <<< value.exponent.toNat
  else value.mantissa.tdiv (1 <<< (-value.exponent).toNat)

/-- An integer as a double-precision number, unless it is too large for one. -/
def ofInt? (value : Int) : Option Float :=
  let number := Float.ofInt value
  if number.isInf then none else some number

def order (left right : Float) : Ordering :=
  if left > right then .gt
  else if left < right then .lt
  else if left == right then .eq
  else if left == left then .lt
  else if right == right then .gt
  else .eq

def remainder (left right : Float) : Float :=
  match scaled? left, scaled? right with
  | some dividend, some divisor =>
      let exponent := min dividend.exponent divisor.exponent
      let scale (value : Scaled) : Int :=
        value.mantissa <<< (value.exponent - exponent).toNat
      let rest := (scale dividend).tmod (scale divisor)
      if rest = 0 then left * 0.0 else (Float.ofInt rest).scaleB exponent
  | some _, none => if right.isNaN then right else left
  | none, _ => 0.0 / 0.0

def modulo (left right : Float) : Float :=
  let rest := remainder left right
  if (left < 0.0) != (right < 0.0) && rest != 0.0 then rest + right else rest

/-- The exponent that digits are.  Once it has reached ten thousand, the digits that follow do
not count. -/
def exponentOf (digits : List Char) : Nat :=
  digits.foldl
    (fun exponent digit =>
      if exponent < 10000 then 10 * exponent + Text.digitOrZero digit else exponent)
    0

/-- The number with some digits, times a power of ten.  There is none if it is too
large for a double-precision number. -/
def scientific? (mantissa : List Char) (exponent : Int) : Option Float :=
  let significant := mantissa.dropWhile (· = '0')
  let magnitude := significant.length + exponent
  if significant.isEmpty ∨ magnitude < -400 then
    some 0.0
  else if 400 < magnitude then
    none
  else
    let value := Text.digitsValue 10 significant
    let number :=
      match exponent with
      | .ofNat power => Float.ofScientific value false power
      | .negSucc power => Float.ofScientific value true (power + 1)
    if number.isInf then none else some number

/-- The number closest to a natural number times a power of two, and the even one of two.
There is none if it is too large. -/
def ofPower? (mantissa : Nat) (exponent : Int) : Option Float :=
  let bits : Int := mantissa.log2 + 1
  if mantissa = 0 ∨ exponent + bits < -1100 then some 0.0
  else if 1100 < exponent + bits then none
  else
    let lowest := max (exponent + bits - 53) (-1074)
    let digits :=
      if lowest ≤ exponent then mantissa <<< (exponent - lowest).toNat
      else
        let unit : Nat := 1 <<< (lowest - exponent).toNat
        let rest := mantissa % unit * 2
        let whole := mantissa / unit
        if unit < rest ∨ (rest = unit ∧ whole % 2 = 1) then whole + 1 else whole
    let number := (Float.ofNat digits).scaleB lowest
    if number.isInf then none else some number

end Binary64
end Expression
end ReversibleMips
