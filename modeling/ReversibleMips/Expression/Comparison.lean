import ReversibleMips.Expression.Heap
import ReversibleMips.Text.Search

/-!
# Comparisons

Which values count as true, which are equal and how they are ordered.  Truth values are
not numbers.  Values of different types are not equal and have no order, but integers and
other numbers do.
-/

namespace ReversibleMips
namespace Expression

/-- The value counts as true.  Zero and everything empty does not. -/
def Heap.holds (heap : Heap) : Value → Bool
  | .none => false
  | .bool value => value
  | .int value => value ≠ 0
  | .float value => value != 0.0
  | .text bytes => !bytes.isEmpty
  | .bytes bytes => !bytes.isEmpty
  | .tuple items => !items.isEmpty
  | .range span => 0 < span.length
  | .list address => !(heap.items address).isEmpty
  | .dict address => (heap.dict address).size ≠ 0
  | .view _ _ | .builtin _ | .method _ _ _ | .function _ _ _ _ => true

def byOrder (op : BinaryOp) (order : Ordering) : Bool :=
  match op with
  | .equal => order = .eq
  | .notEqual => order ≠ .eq
  | .less => order = .lt
  | .greater => order = .gt
  | .lessEqual => order ≠ .gt
  | .greaterEqual => order ≠ .lt
  | _ => false

def byEquality (op : BinaryOp) (equal : Bool) : Except Failure Bool :=
  match op with
  | .equal => .ok equal
  | .notEqual => .ok !equal
  | _ => .error .evaluation

def orderIntFloat (left : Int) (right : Float) : Ordering :=
  match Binary64.scaled? right with
  | some value => Binary64.compareInt left value
  | none => if right < 0.0 then .gt else .lt

abbrev Comparing := BinaryOp → Value → Value → Except Failure Bool

def compareItems (compareItem : Comparing) (op : BinaryOp) :
    List Value → List Value → Except Failure Bool
  | [], [] => .ok (byOrder op .eq)
  | [], _ :: _ => .ok (byOrder op .lt)
  | _ :: _, [] => .ok (byOrder op .gt)
  | left :: lefts, right :: rights =>
      match compareItem .equal left right with
      | .error failure => .error failure
      | .ok true => compareItems compareItem op lefts rights
      | .ok false =>
          match op with
          | .equal => .ok false
          | .notEqual => .ok true
          | op => compareItem op left right

/-- Compare two sequences.  Those of different lengths are known to differ without a
look at their items. -/
def compareSequences (compareItem : Comparing) (op : BinaryOp) (left right : Array Value) :
    Except Failure Bool :=
  if left.size ≠ right.size ∧ (op = .equal ∨ op = .notEqual) then
    .ok (op = .notEqual)
  else
    compareItems compareItem op left.toList right.toList

def entriesIn (compareItem : Comparing) (dict : Dict) :
    List (Value × Value) → Except Failure Bool
  | [] => .ok true
  | (key, value) :: rest =>
      match dict.look key with
      | .error _ | .ok none => .ok false
      | .ok (some other) =>
          match compareItem .equal value other with
          | .ok true => entriesIn compareItem dict rest
          | result => result

def compareDicts (compareItem : Comparing) (op : BinaryOp) (left right : Dict) :
    Except Failure Bool :=
  if op ≠ .equal ∧ op ≠ .notEqual then .error .evaluation
  else if left.size ≠ right.size then .ok (op = .notEqual)
  else
    (entriesIn compareItem right left.toArray.toList).map fun equal =>
      equal == decide (op = .equal)

def compareWithin (heap : Heap) : Nat → Comparing
  | 0, _, _, _ => .error .evaluation
  | depth + 1, op, left, right =>
      match left, right with
      | .none, .none => byEquality op true
      | .bool left, .bool right => .ok (byOrder op (compare left.toNat right.toNat))
      | .int left, .int right => .ok (byOrder op (compare left right))
      | .float left, .float right => .ok (byOrder op (Binary64.order left right))
      | .int left, .float right => .ok (byOrder op (orderIntFloat left right))
      | .float left, .int right => .ok (byOrder op (orderIntFloat right left).swap)
      | .text left, .text right => .ok (byOrder op (Text.orderBytes left right))
      | .bytes left, .bytes right => .ok (byOrder op (Text.orderBytes left right))
      | .tuple left, .tuple right => compareSequences (compareWithin heap depth) op left right
      | .range left, .range right => byEquality op (left.same right)
      | .list left, .list right =>
          compareSequences (compareWithin heap depth) op (heap.items left) (heap.items right)
      | .dict left, .dict right =>
          compareDicts (compareWithin heap depth) op (heap.dict left) (heap.dict right)
      | .view left bytes, .view right others => byEquality op (left = right && bytes == others)
      | .builtin left, .builtin right => byEquality op (left = right)
      | .method left _ _, .method right _ _ => byEquality op (left = right)
      | .function left _ _ _, .function right _ _ _ => byEquality op (left = right)
      | _, _ => byEquality op false

def Heap.compareBy (heap : Heap) : Comparing := compareWithin heap maxDepth

/-- The place of the first item that equals a value, if the first of the items stands at
some place. -/
def Heap.placeFrom? (heap : Heap) (value : Value) (place : Nat) :
    List Value → Except Failure (Option Nat)
  | [] => .ok none
  | item :: rest =>
      match heap.compareBy .equal item value with
      | .error failure => .error failure
      | .ok true => .ok (some place)
      | .ok false => heap.placeFrom? value (place + 1) rest

def Value.wholeNumber? : Value → Option Int
  | .int value => some value
  | .float value => (Binary64.scaled? value).map Binary64.truncate
  | _ => Option.none

def Heap.isIn (heap : Heap) (value container : Value) : Except Failure Bool :=
  match container with
  | .list address =>
      (heap.placeFrom? value 0 (heap.items address).toList).map Option.isSome
  | .tuple items => (heap.placeFrom? value 0 items.toList).map Option.isSome
  | .dict address =>
      match (heap.dict address).look value with
      | .ok found => .ok found.isSome
      | .error _ => .ok false
  | .range span =>
      match value.wholeNumber? with
      | some number => .ok (span.holds number)
      | none => .error .evaluation
  | .text bytes =>
      match value with
      | .text part => .ok (Text.occursIn part bytes)
      | _ => .error .evaluation
  | .bytes bytes =>
      match value with
      | .bytes part => .ok (Text.occursIn part bytes)
      | .int byte =>
          if 0 ≤ byte ∧ byte < 256 then
            .ok (Text.occursIn ⟨#[UInt8.ofNat byte.toNat]⟩ bytes)
          else
            .error .evaluation
      | _ => .error .evaluation
  | _ => .error .evaluation

end Expression
end ReversibleMips
