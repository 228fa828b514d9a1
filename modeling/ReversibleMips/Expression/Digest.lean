/-!
# Digests

A dictionary compares a key only with the keys that have the same digest, which is a number
of thirty-two bits.  The digests of long texts differ from one execution to the next.  Nothing
is known of them but that equal texts have equal digests, and they count as different from
all others.
-/

namespace ReversibleMips
namespace Expression

inductive Digest where
  | number (value : UInt32)
  | long (bytes : List UInt8)
  | flipped (digest : Digest) (factor : UInt32) (other : Digest)
deriving DecidableEq

namespace Digest

def flip (bits : UInt32) : Digest → Digest
  | number value => number (value ^^^ bits)
  | long bytes => flipped (number bits) 1 (long bytes)
  | flipped digest factor other => flipped (digest.flip bits) factor other

def mix (digest : Digest) (factor : UInt32) : Digest → Digest
  | number value => digest.flip (value * factor)
  | other => flipped digest factor other

def ofBytes (bytes : List UInt8) : UInt32 :=
  bytes.foldl (fun digest byte => (digest ^^^ byte.toUInt32) * 16777619) 2166136261

def ofText (bytes : List UInt8) : Digest :=
  if bytes.length < 12 then number (ofBytes bytes) else long bytes

/-- The digest of an integer.  The sign of one beyond thirty-two bits does not count. -/
def ofInt (value : Int) : Digest :=
  let counted := if -0x80000000 ≤ value ∧ value < 0x80000000 then value else value.natAbs
  number (12582917 * UInt32.ofNat ((counted + 3) % 0x100000000).toNat)

def notFinite : Digest := number 1618033

def ofAll (digests : List Digest) : Digest :=
  let increase : UInt32 := 82520 + 2 * UInt32.ofNat digests.length
  (digests.foldl
    (fun (made, factor) digest => (made.mix factor digest, factor + increase))
    (number 0x345678, (1000003 : UInt32))).1

def nonzero : Digest → Digest
  | number value => number (if value = 0 then 1 else value)
  | other => other

end Digest
end Expression
end ReversibleMips
