import ReversibleMips.Expression.Binary64
import ReversibleMips.Expression.Digest
import ReversibleMips.Expression.Value

/-!
# Keys

What values are as keys of a dictionary.  Values that are equal are the same key, so that a
number without a fraction is the same key as the integer.  Lists, dictionaries and all that
could change cannot be keys.
-/

namespace ReversibleMips
namespace Expression

def maxDepth : Nat := 10

inductive Key where
  | none
  | bool (holds : Bool)
  | int (value : Int)
  | float (bits : UInt64)
  | text (bytes : List UInt8)
  | bytes (bytes : List UInt8)
  | tuple (items : List Key)
  | builtin (name : String)
  | method (identity : Nat) (name : String)
  | function (identity : Nat) (name : String)

namespace Key

def rank : Key → Nat
  | none => 0
  | bool _ => 1
  | int _ => 2
  | float _ => 3
  | text _ => 4
  | bytes _ => 5
  | tuple _ => 6
  | builtin _ => 7
  | method _ _ => 8
  | function _ _ => 9

mutual

def order : Key → Key → Ordering
  | bool left, bool right => compare left right
  | int left, int right => compare left right
  | float left, float right => compare left right
  | text left, text right => compare left right
  | bytes left, bytes right => compare left right
  | tuple left, tuple right => orderAll left right
  | builtin left, builtin right => compare left right
  | method left _, method right _ => compare left right
  | function left _, function right _ => compare left right
  | left, right => compare left.rank right.rank

def orderAll : List Key → List Key → Ordering
  | [], [] => .eq
  | [], _ :: _ => .lt
  | _ :: _, [] => .gt
  | left :: lefts, right :: rights =>
      match order left right with
      | .eq => orderAll lefts rights
      | different => different

end

instance : Ord Key := ⟨order⟩

mutual

def height : Key → Nat
  | tuple items => heightAll items
  | _ => 0

def heightAll : List Key → Nat
  | [] => 0
  | key :: rest => max (key.height + 1) (heightAll rest)

end

mutual

/-- The digest of a key.  That of a number is the digest of the integer that it is without its
fraction. -/
def digest : Key → Digest
  | none => .number 0
  | bool holds => .number (if holds then 1 else 0)
  | int value => .ofInt value
  | float bits =>
      match Binary64.scaled? (Float.ofBits bits) with
      | some value => .ofInt (Binary64.truncate value)
      | Option.none => .notFinite
  | text content => .ofText content
  | bytes content => .ofText content
  | tuple items => .ofAll (digests items)
  | builtin name => .ofText name.toUTF8.toList
  | method _ name => (Digest.ofText name.toUTF8.toList).flip 5521
  | function _ name => .ofText name.toUTF8.toList

def digests : List Key → List Digest
  | [] => []
  | key :: rest => key.digest :: digests rest

end

def allEqual (equal : Key → Key → Option Bool) : List Key → List Key → Option Bool
  | left :: lefts, right :: rights =>
      match equal left right with
      | some true => allEqual equal lefts rights
      | known => known
  | _, _ => some true

/-- Two keys are equal.  It is not known if they are nested deeper than a bound. -/
def equalWithin : Nat → Key → Key → Option Bool
  | 0, _, _ => Option.none
  | depth + 1, tuple left, tuple right =>
      if left.length ≠ right.length then some false
      else allEqual (equalWithin depth) left right
  | _ + 1, left, right => some (left.order right = .eq)

/-- A dictionary with one of two keys cannot tell whether it has the other one: they have the
same digest, and are nested too deep to be compared. -/
def clashes (left right : Key) : Bool :=
  left.equalWithin maxDepth right = Option.none &&
    left.digest.nonzero = right.digest.nonzero

def ofFloat (number : Float) : Key :=
  match Binary64.scaled? number with
  | some value =>
      if 0 ≤ value.exponent ∨ value.mantissa % (1 <<< (-value.exponent).toNat) = 0 then
        int (Binary64.truncate value)
      else
        float number.toBits
  | Option.none => float (if number.isNaN then 0x7ff8000000000000 else number.toBits)

end Key

namespace Value

mutual

def key? : Value → Option Key
  | none => some .none
  | bool value => some (.bool value)
  | int value => some (.int value)
  | float value => some (.ofFloat value)
  | text content => some (.text content.toList)
  | bytes content => some (.bytes content.toList)
  | tuple items => (keysOfArray? items).map .tuple
  | builtin known => some (.builtin known.name)
  | method identity _ called => some (.method identity called.name)
  | function identity code _ _ => some (.function identity code.name)
  | range _ | list _ | dict _ | view _ _ => Option.none

def keysOfArray? : Array Value → Option (List Key)
  | ⟨items⟩ => keysOf? items

def keysOf? : List Value → Option (List Key)
  | [] => some []
  | value :: rest =>
      match value.key? with
      | some key => (keysOf? rest).map (key :: ·)
      | Option.none => Option.none

end

end Value

end Expression
end ReversibleMips
