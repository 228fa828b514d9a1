/-!
# Searching in bytes

Where a run of bytes occurs in another, and cutting bytes at such places.

A run of bytes has a weight, and the weight of the run that starts one byte later follows
from it.  Only runs of the same weight are compared byte by byte, so that a search takes
about as many steps as there are bytes.
-/

namespace ReversibleMips
namespace Text

/-- A run of bytes occurs in another at a place.  The last argument is the number of its
bytes that remain. -/
def matchesFrom (part bytes : ByteArray) (place : Nat) : Nat → Bool
  | 0 => true
  | remaining + 1 =>
      let index := part.size - (remaining + 1)
      part[index]? == bytes[place + index]? && matchesFrom part bytes place remaining

def matchesAt (part bytes : ByteArray) (place : Nat) : Bool :=
  place + part.size ≤ bytes.size && matchesFrom part bytes place part.size

/-- How much more a byte counts than the one behind it. -/
def weightBase : UInt64 := 257

def numberAt (bytes : ByteArray) (place : Nat) : UInt64 := (bytes[place]?.getD 0).toUInt64

/-- The weight of a run of bytes that starts at a place, in front of which something of a
weight stands.  The last argument is the number of bytes. -/
def weighFrom (byte : Nat → UInt64) (weight : UInt64) (place : Nat) : Nat → UInt64
  | 0 => weight
  | remaining + 1 =>
      weighFrom byte (weight * weightBase + byte place) (place + 1) remaining

/-- How much the first byte of a run counts if it has some number behind it. -/
def leadAfter (lead : UInt64) : Nat → UInt64
  | 0 => lead
  | behind + 1 => leadAfter (lead * weightBase) behind

/-- What is looked for: runs of a length that have a weight and pass a test. -/
structure Sought where
  length : Nat
  weight : UInt64
  passes : Nat → Bool

/-- The first place from some place on, where the run has a weight, with what is looked for.
The last argument is the number of places to look at. -/
def searchFrom (byte : Nat → UInt64) (sought : Sought) (lead weight : UInt64) (place : Nat) :
    Nat → Option Nat
  | 0 => none
  | remaining + 1 =>
      if weight == sought.weight && sought.passes place then some place
      else
        searchFrom byte sought lead
          ((weight - lead * byte place) * weightBase + byte (place + sought.length)) (place + 1)
          remaining

/-- The first place from some place on with what is looked for. -/
def search (byte : Nat → UInt64) (sought : Sought) (start count : Nat) : Option Nat :=
  searchFrom byte sought (leadAfter 1 (sought.length - 1)) (weighFrom byte 0 start sought.length)
    start count

/-- The first place from some place on where a run of bytes occurs. -/
def findFrom? (part bytes : ByteArray) (start : Nat) : Option Nat :=
  search (numberAt bytes) ⟨part.size, weighFrom (numberAt part) 0 0 part.size,
    matchesAt part bytes⟩ start (bytes.size + 1 - (start + part.size))

/-- The first place where a run of bytes occurs. -/
def find? (part bytes : ByteArray) : Option Nat := findFrom? part bytes 0

/-- The last place where a run of bytes occurs.  It is found from the end. -/
def findLast? (part bytes : ByteArray) : Option Nat :=
  let fromEnd (bytes : ByteArray) (place : Nat) := numberAt bytes (bytes.size - 1 - place)
  let start (place : Nat) := bytes.size - part.size - place
  (search (fromEnd bytes) ⟨part.size, weighFrom (fromEnd part) 0 0 part.size,
    matchesAt part bytes ∘ start⟩ 0 (bytes.size + 1 - part.size)).map start

def occursIn (part bytes : ByteArray) : Bool := (find? part bytes).isSome

/-- The places from some place on where a run of bytes occurs, one behind the other.  The
first argument bounds their number. -/
def occurrencesFrom (part bytes : ByteArray) : Nat → Nat → List Nat
  | 0, _ => []
  | bound + 1, start =>
      match findFrom? part bytes start with
      | none => []
      | some place => place :: occurrencesFrom part bytes bound (place + part.size)

/-- The places where a run of bytes occurs, one behind the other. -/
def occurrences (part bytes : ByteArray) : List Nat :=
  if part.isEmpty then [] else occurrencesFrom part bytes bytes.size 0

/-- The pieces of bytes between places where something of a length is left out. -/
def piecesFrom (bytes : ByteArray) (length start : Nat) : List Nat → List ByteArray
  | [] => [bytes.extract start bytes.size]
  | place :: rest =>
      bytes.extract start place :: piecesFrom bytes length (place + length) rest

/-- The pieces of bytes between the first places, at most as many as a bound tells, where a
mark occurs. -/
def splitAtMost (mark bytes : ByteArray) (bound : Option Nat) : List ByteArray :=
  let places := occurrences mark bytes
  piecesFrom bytes mark.size 0 (match bound with | some count => places.take count | none => places)

def joinWith (mark : ByteArray) : List ByteArray → ByteArray
  | [] => .empty
  | first :: rest => rest.foldl (fun made piece => made ++ mark ++ piece) first

def startsWith (start bytes : ByteArray) : Bool := matchesAt start bytes 0

def endsWith (last bytes : ByteArray) : Bool :=
  last.size ≤ bytes.size && matchesAt last bytes (bytes.size - last.size)

/-- The order of bytes from a place on, of which a number remains in both.  The shorter
ones come before the longer. -/
def orderFrom (left right : ByteArray) (place : Nat) : Nat → Ordering
  | 0 => compare left.size right.size
  | remaining + 1 =>
      match compare (left[place]?.getD 0).toNat (right[place]?.getD 0).toNat with
      | .eq => orderFrom left right (place + 1) remaining
      | order => order

def orderBytes (left right : ByteArray) : Ordering :=
  orderFrom left right 0 (min left.size right.size)

end Text
end ReversibleMips
