import ReversibleMips.Expression.Integer
import ReversibleMips.Expression.Interpolation

/-!
# Operations

The operators on values, indexes and slices.  Truth values are not numbers, and operations
on values that they are not made for fail.
-/

namespace ReversibleMips
namespace Expression

def withFloats (left right : Value) (apply : Float → Float → Except Failure Value) :
    Except Failure Value :=
  match left, right with
  | .float left, .float right => apply left right
  | .float left, .int right =>
      match Binary64.ofInt? right with
      | some right => apply left right
      | none => .error .evaluation
  | .int left, .float right =>
      match Binary64.ofInt? left with
      | some left => apply left right
      | none => .error .evaluation
  | .int left, .int right =>
      match Binary64.ofInt? left, Binary64.ofInt? right with
      | some left, some right => apply left right
      | _, _ => .error .evaluation
  | _, _ => .error .evaluation

def unlessZero (divide : Float → Float → Float) (left right : Float) : Except Failure Value :=
  if right == 0.0 then .error .evaluation else .ok (.float (divide left right))

def shifted (op : BinaryOp) (value : Int) (count : Value) : Except Failure Value :=
  match count.small? with
  | none => .error .evaluation
  | some count =>
      if count < 0 then .error .evaluation
      else if op = .shiftLeft then
        if 512 ≤ count then .error .evaluation else .ok (.int (value <<< count.toNat))
      else
        .ok (.int (value >>> count.toNat))

def maxItems : Nat := 0x40000000

/-- Put copies together.  Their number is built up from its highest bit, and each lower
bit doubles what there is. -/
def copies {α : Type} [Append α] (nothing one : α) (count : Nat) : α :=
  (List.range (count.log2 + 1)).foldr
    (fun place made =>
      let twice := made ++ made
      if count.testBit place then twice ++ one else twice)
    nothing

def repeated {α : Type} [Append α] (nothing one : α) (size : Nat) (count : Int) :
    Except Failure α :=
  if size = 0 then .ok nothing
  else if count < -0x80000000 ∨ 0x80000000 ≤ count then .error .evaluation
  else if count < 1 then .ok nothing
  else if maxItems ≤ size * count.toNat then .error .evaluation
  else .ok (copies nothing one count.toNat)

namespace Value

def sum (left right : Value) : Except Failure Value :=
  match left, right with
  | int left, int right => .ok (int (left + right))
  | text left, text right => .ok (text (left ++ right))
  | tuple left, tuple right => .ok (tuple (left ++ right))
  | left, right => withFloats left right fun left right => .ok (float (left + right))

def product (left right : Value) : Except Failure Value :=
  match left, right with
  | int left, int right => .ok (int (left * right))
  | int count, text content | text content, int count =>
      (repeated .empty content content.size count).map text
  | int count, bytes content | bytes content, int count =>
      (repeated .empty content content.size count).map bytes
  | int count, tuple items | tuple items, int count =>
      (repeated #[] items items.size count).map tuple
  | left, right => withFloats left right fun left right => .ok (float (left * right))

def binary (op : BinaryOp) (left right : Value) : Except Failure Value :=
  match op with
  | .add => sum left right
  | .mul => product left right
  | .sub =>
      match left, right with
      | int left, int right => .ok (int (left - right))
      | left, right => withFloats left right fun left right => .ok (float (left - right))
  | .divide => withFloats left right (unlessZero (· / ·))
  | .floorDivide =>
      match left, right with
      | int left, int right =>
          if right = 0 then .error .evaluation else .ok (int (left.fdiv right))
      | left, right => withFloats left right (unlessZero fun left right => (left / right).floor)
  | .modulo =>
      match left, right with
      | int left, int right =>
          if right = 0 then .error .evaluation else .ok (int (left.fmod right))
      | left, right => withFloats left right (unlessZero Binary64.modulo)
  | .bitAnd =>
      match left, right with
      | int left, int right => .ok (int (intAnd left right))
      | _, _ => .error .evaluation
  | .bitOr =>
      match left, right with
      | int left, int right => .ok (int (intOr left right))
      | _, _ => .error .evaluation
  | .bitXor =>
      match left, right with
      | int left, int right => .ok (int (intXor left right))
      | _, _ => .error .evaluation
  | .shiftLeft | .shiftRight =>
      match left with
      | int value => shifted op value right
      | _ => .error .evaluation
  | _ => .error .evaluation

end Value

namespace Heap

def unary (heap : Heap) (op : UnaryOp) (operand : Value) : Except Failure Value :=
  match op, operand with
  | .logicalNot, operand => .ok (.bool !heap.holds operand)
  | .negate, .int value => .ok (.int (-value))
  | .negate, .float value => .ok (.float (-value))
  | .positive, .int value => .ok (.int value)
  | .positive, .float value => .ok (.float value)
  | .complement, .int value => .ok (.int (intComplement value))
  | _, _ => .error .evaluation

end Heap

namespace Action

def binary (op : BinaryOp) (left right : Value) : Action Value := do
  let heap ← get
  match op with
  | .isIn => return .bool (← heap.isIn left right)
  | .notIn => return .bool !(← heap.isIn left right)
  | .and => return if heap.holds left then right else left
  | .or => return if heap.holds left then left else right
  | .equal | .notEqual | .less | .greater | .lessEqual | .greaterEqual =>
      return .bool (← heap.compareBy op left right)
  | op =>
      match op, left, right with
      | .add, .list left, .list right => newList (heap.items left ++ heap.items right)
      | .mul, .list address, .int count | .mul, .int count, .list address =>
          let items := heap.items address
          newList (← repeated #[] items items.size count)
      | .bitOr, .dict left, .dict right =>
          newDict ((heap.dict left).union (heap.dict right))
      | .modulo, .text text, argument => heap.interpolate text argument
      | op, left, right => Value.binary op left right

/-- The value that two literals of the same kind make together.  Other than values, literals of
bytes can be put together.  Nothing else has a list that is a literal, so that it takes in the
items of the other one. -/
def joined (left right : Value) : Action Value := do
  match left, right with
  | .bytes left, .bytes right => return .bytes (left ++ right)
  | .list address, .list other =>
      let more := (← get).items other
      changeList address (· ++ more)
      return left
  | left, right => binary .add left right

/-- The result of an operator that updates a value.  A list takes in the items of whatever
can be gone through, and a dictionary the entries of another one. -/
def updated (op : BinaryOp) (left right : Value) : Action Value := do
  match op, left, right with
  | .add, .list address, right =>
      match (← get).itemsOf? right with
      | some items =>
          changeList address (· ++ items.toArray)
          return left
      | none => binary op left right
  | .bitOr, .dict address, .dict other =>
      let more := (← get).dict other
      changeDict address (·.adding more.toArray.toList)
      return left
  | op, left, right => binary op left right

end Action

/-- The place that an index means in a sequence of some length.  It counts from the end
if it is negative. -/
def placeIn? (length : Nat) (index : Int) : Option Nat :=
  let place := if index < 0 then index + length else index
  if 0 ≤ place ∧ place < length then some place.toNat else none

namespace Heap

def itemAt (heap : Heap) (base key : Value) : Except Failure Value :=
  match base with
  | .dict address =>
      match (heap.dict address).look key with
      | .ok (some value) => .ok value
      | _ => .error .evaluation
  | base =>
      let place (length : Nat) := key.small?.bind (placeIn? length)
      let found :=
        match base with
        | .text bytes =>
            (place bytes.size).bind fun place =>
              bytes[place]?.map fun byte => Value.text ⟨#[byte]⟩
        | .bytes bytes =>
            (place bytes.size).bind fun place =>
              bytes[place]?.map fun byte => Value.bytes ⟨#[byte]⟩
        | .list address => (place (heap.items address).size).bind ((heap.items address)[·]?)
        | .tuple items => (place items.size).bind (items[·]?)
        | .range span =>
            (place span.length.toNat).map fun place => Value.int (span.item place)
        | .view view bytes =>
            match view with
            | .elements | .elementOrds =>
                (place bytes.size).map (Items.ofView view bytes).item
            | _ => none
        | _ => none
      match found with
      | some value => .ok value
      | none => .error .evaluation

end Heap

def Action.setItem (base key value : Value) : Action Unit := do
  match base with
  | .dict address => setEntry address key value
  | .list address =>
      let place ← orFail (key.small?.bind (placeIn? ((← get).items address).size))
      changeList address (·.setIfInBounds place value)
  | _ => failure

/-- Places at equal distances, from one up to another or down to it. -/
structure Stride where
  start : Int
  stop : Int
  step : Int

namespace Stride

def count (stride : Stride) : Nat :=
  if 0 < stride.step then
    (stride.stop - stride.start + stride.step - 1).toNat / stride.step.toNat
  else
    (stride.start - stride.stop - stride.step - 1).toNat / (-stride.step).toNat

def place (stride : Stride) (index : Nat) : Nat :=
  (stride.start + index * stride.step).toNat

end Stride

/-- The place that a bound means in a sequence of some length.  It counts from the end if
it is negative, and a bound that is left out means some other place. -/
def boundAt? (length otherwise : Int) : Value → Option Int
  | .none => some otherwise
  | bound =>
      bound.small?.map fun index => if index < 0 then wrapped (index + length) else index

def withinLength (length place : Int) : Int := if place < 0 then 0 else min place length

def bounds? (length : Int) (first last : Value) : Option (Int × Int) := do
  let start ← boundAt? length 0 first
  let stop ← boundAt? length length last
  return (withinLength length start, withinLength length stop)

/-- The places that a slice takes from a sequence of some length.  A slice by negative
steps starts at the end if nothing else is said. -/
def stride? (length : Int) (first last step : Value) : Option Stride :=
  match boundAt? 0 1 step with
  | none => none
  | some step =>
      if step = 0 then none
      else if 0 < step then do
        let (start, stop) ← bounds? length first last
        return ⟨start, max start stop, step⟩
      else do
        let final := wrapped (length - 1)
        let start ← boundAt? length final first
        let start := if length ≤ start then final else start
        let stop := max (-1) (← boundAt? length (-1) last)
        return ⟨max start stop, stop, step⟩

def bytesAt (bytes : ByteArray) (stride : Stride) : ByteArray :=
  stride.count.fold
    (fun index _ (taken : ByteArray) => taken.push (bytes[stride.place index]?.getD 0)) .empty

def itemsAt (items : Array Value) (stride : Stride) : Array Value :=
  stride.count.fold
    (fun index _ (taken : Array Value) => taken.push (items[stride.place index]?.getD .none)) #[]

def spanAt (span : Span) (stride : Stride) : Span :=
  ⟨wrapped (span.start + span.step * stride.start), wrapped (span.start + span.step * stride.stop),
    wrapped (span.step * stride.step)⟩

/-- The part of a sequence that a slice takes.  The steps of a range are cut to sixty-four
bits, and nothing may be left of them. -/
def Action.slice (base first last step : Value) : Action Value := do
  let stride (length : Int) : Action Stride := orFail (stride? length first last step)
  match base with
  | .text bytes => return .text (bytesAt bytes (← stride bytes.size))
  | .bytes bytes => return .bytes (bytesAt bytes (← stride bytes.size))
  | .tuple items => return .tuple (itemsAt items (← stride items.size))
  | .range span =>
      let part := spanAt span (← stride span.length)
      if part.step = 0 then throw (.misuse .noStep) else return .range part
  | .list address =>
      let items := (← get).items address
      newList (itemsAt items (← stride items.size))
  | _ => failure

end Expression
end ReversibleMips
