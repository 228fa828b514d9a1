import ReversibleMips.Expression.Key

/-!
# Dictionaries

A dictionary finds values by keys.  The entries stand in the order in which they came.
-/

namespace ReversibleMips
namespace Expression

/-- Values by keys, in the order in which they came. -/
structure Dict where
  numbers : Std.TreeMap Key Nat
  entries : Std.TreeMap Nat (Value × Value)
  next : Nat
  hasRoom : Bool

namespace Dict

def empty : Dict := ⟨∅, ∅, 0, false⟩

def size (dict : Dict) : Nat := dict.entries.size

def find? (dict : Dict) (key : Key) : Option Value :=
  match dict.numbers.get? key with
  | some number => (dict.entries.get? number).map Prod.snd
  | none => none

/-- Set the value of a key, which some value is.  An entry stays where it is. -/
def insert (dict : Dict) (key : Key) (shown value : Value) : Dict :=
  match dict.numbers.get? key with
  | some number =>
      { dict with
        entries := dict.entries.alter number fun entry =>
          some ((entry.map Prod.fst).getD shown, value) }
  | none =>
      { numbers := dict.numbers.insert key dict.next
        entries := dict.entries.insert dict.next (shown, value)
        next := dict.next + 1
        hasRoom := true }

/-- Look for the key that a value is.  A key that clashes with one of the dictionary cannot be
looked for.  Those that are nested too deep to be compared are never found. -/
def look (dict : Dict) (key : Value) : Except Failure (Option Value) :=
  match key.key? with
  | none => .error .evaluation
  | some key =>
      if key.height < maxDepth then .ok (dict.find? key)
      else if dict.numbers.any fun other _ => key.clashes other then .error .evaluation
      else .ok none

def set (dict : Dict) (key value : Value) : Except Failure Dict :=
  match dict.look key, key.key? with
  | .ok _, some found => .ok (dict.insert found key value)
  | _, _ => .error .evaluation

def adding (dict : Dict) : List (Value × Value) → Dict
  | [] => dict
  | (key, value) :: rest =>
      match dict.set key value with
      | .ok dict => dict.adding rest
      | .error _ => dict

def erase (dict : Dict) (key : Key) : Dict :=
  match dict.numbers.get? key with
  | some number =>
      { dict with numbers := dict.numbers.erase key, entries := dict.entries.erase number }
  | none => dict

def cleared (dict : Dict) : Dict := { dict with numbers := ∅, entries := ∅ }

def first? (dict : Dict) : Option (Value × Value) := dict.entries.minEntry?.map Prod.snd

def toArray (dict : Dict) : Array (Value × Value) :=
  dict.entries.foldl (fun entries _ entry => entries.push entry) #[]

def union (left right : Dict) : Dict :=
  { left.adding right.toArray.toList with hasRoom := true }

def keys (dict : Dict) : Array Value := dict.toArray.map Prod.fst

def values (dict : Dict) : Array Value := dict.toArray.map Prod.snd

end Dict
end Expression
end ReversibleMips
