/-!
# Bitwise operations on integers

An integer is read as two's complement with its sign repeated without end, so
that every bitwise operation on integers gives an integer again.
-/

namespace ReversibleMips
namespace Expression

def natWithout (left right : Nat) : Nat := left ^^^ (left &&& right)

def intAnd : Int → Int → Int
  | .ofNat left, .ofNat right => .ofNat (left &&& right)
  | .ofNat left, .negSucc right => .ofNat (natWithout left right)
  | .negSucc left, .ofNat right => .ofNat (natWithout right left)
  | .negSucc left, .negSucc right => .negSucc (left ||| right)

def intOr : Int → Int → Int
  | .ofNat left, .ofNat right => .ofNat (left ||| right)
  | .ofNat left, .negSucc right => .negSucc (natWithout right left)
  | .negSucc left, .ofNat right => .negSucc (natWithout left right)
  | .negSucc left, .negSucc right => .negSucc (left &&& right)

def intXor : Int → Int → Int
  | .ofNat left, .ofNat right => .ofNat (left ^^^ right)
  | .ofNat left, .negSucc right => .negSucc (left ^^^ right)
  | .negSucc left, .ofNat right => .negSucc (left ^^^ right)
  | .negSucc left, .negSucc right => .ofNat (left ^^^ right)

def intComplement (value : Int) : Int := -value - 1

end Expression
end ReversibleMips
