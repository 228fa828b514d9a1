import ReversibleMips.Expression.CollectionMethod
import ReversibleMips.Expression.Conversion

/-!
# The functions that are always known

What the functions that every expression may call make of their arguments.  Some of them
call a function that is passed to them.
-/

namespace ReversibleMips
namespace Expression

/-- How a value is called, with the arguments by place and those by name. -/
abbrev Caller := Value → List Value → Named → Action Value

def keyword (word : String) : List UInt8 := word.toUTF8.toList

/-- The arguments for parameters with names: by place first, then by name.  Each has at most
one, and none may be left over. -/
def byNames? (names : List String) (arguments : List Value) (named : Named) :
    Option (List (Option Value)) :=
  let late := names.drop arguments.length
  let fits := arguments.length ≤ names.length && (named.map Prod.fst).Nodup &&
    named.all fun (word, _) => late.any fun name => keyword name = word
  if fits then
    some (arguments.map some ++ late.map fun name => named.lookup (keyword name))
  else
    none

def Action.memberOf? (value : Value) (name : List UInt8) : Action (Option Value) := do
  match value.methods.find? fun entry => keyword entry.1 = name with
  | some (_, method) => return some (.method (← identity) value method)
  | none => return none

def extremum (op : BinaryOp) (key : Value → Action Value) (source : Value) : Action Value := do
  let best ← Action.forEach source none fun best item => do
    let itemKey ← key item
    match best with
    | none => return .yield (some (item, itemKey))
    | some (other, otherKey) =>
        let better ← (← get).compareBy op itemKey otherKey
        return .yield (some (if better then (item, itemKey) else (other, otherKey)))
  return (← orFail best).1

def neighboursCompare (heap : Heap) : List Value → Bool
  | left :: right :: rest =>
      (heap.compareBy .less left right).isOk && neighboursCompare heap (right :: rest)
  | _ => true

/-- Values with keys, ordered by their keys.  Those with equal keys stay in their order. -/
def sortedByKeys (heap : Heap) (backward : Bool) (pairs : List (Value × Value)) :
    Except Failure (List Value) :=
  let less (left right : Value × Value) : Bool :=
    match heap.compareBy .less left.1 right.1 with
    | .ok true => true
    | _ => false
  let sorted := pairs.mergeSort fun left right =>
    if backward then !less left right else !less right left
  if neighboursCompare heap (sorted.map Prod.fst) then .ok (sorted.map Prod.snd)
  else .error .evaluation

def sortedList (call : Caller) (source : Value) (key : Option Value) (backward : Bool) :
    Action Value := do
  Action.makeRoom source
  let pairs ← Action.forEach source (#[] : Array (Value × Value)) fun pairs item => do
    let itemKey ←
      match key with
      | some function => call function [item] []
      | none => pure item
    return .yield (pairs.push (itemKey, item))
  Action.newList (← sortedByKeys (← get) backward pairs.toList).toArray

def hashOfChars (chars : List Char) : Int :=
  (chars.foldl (fun (hash : UInt32) char => 31 * hash + char.val) 0).toInt32.toInt

namespace Builtin

def allAre (holds : Bool) (source : Value) : Action Bool :=
  Action.forEach source true fun _ item => do
    return if (← get).holds item = holds then .yield true else .done false

def byteOf? : Value → Option UInt8
  | .int value => if 0 ≤ value ∧ value < 256 then some (UInt8.ofNat value.toNat) else none
  | _ => none

def maxBytes : Nat := 0x1000000000000

/-- The bytes that the items of a value are.  Room is made for them beforehand. -/
def bytesOf (source : Value) : Action ByteArray := do
  if ((← get).length? source).any (maxBytes < ·) then throw (.misuse .sizeOutOfRange)
  Action.forEach source ByteArray.empty fun made item => do
    return .yield (made.push (← orFail (byteOf? item)))

def zipped (sources : List Value) : Action Value := do
  let columns ← sources.mapM fun source => do orFail ((← get).itemsOf? source)
  let count := (columns.map Items.count).min?.getD 0
  if maxRoom < count then throw (.misuse .sizeOutOfRange)
  Action.newList <| (Array.range count).map fun index =>
    .tuple (columns.map fun column => column.item index).toArray

def enumerated (items : Array Value) (start : Int) : Array Value :=
  items.mapIdx fun index item => .tuple #[.int (wrapped (start + index)), item]

def pointOf? : Value → Option Int
  | .text content => (onlyPoint? content).map Int.ofNat
  | .bytes content =>
      if content.size = 1 then content[0]?.map fun byte => (byte.toNat : Int) else none
  | _ => none

def value? (function : Builtin) (arguments : List Value) : Option Value :=
  match function, arguments with
  | abs, [.int value] => some (.int value.natAbs)
  | abs, [.float value] => some (.float value.abs)
  | chr, [value] =>
      value.small?.bind fun point =>
        if 0 ≤ point ∧ point < 0x110000 then some (.ofBytes (bytesOfPoint point.toNat)) else none
  | ord, [value] => (pointOf? value).map .int
  | float, [] => some (.float 0.0)
  | float, [value] => value.toFloat?.map .float
  | hash, [.text content] => some (.int (hashOfChars (charsOf content)))
  | hash, [.bytes content] => some (.int (Digest.ofBytes content.toList).toNat)
  | type, [value] => some (.ofString value.typeName)
  | range, [stop] => stop.long?.map fun stop => .range ⟨0, stop, 1⟩
  | range, [start, stop] => do
      return .range ⟨← start.long?, ← stop.long?, 1⟩
  | range, [start, stop, step] => do
      let step ← step.long?
      if step = 0 then none else return .range ⟨← start.long?, ← stop.long?, step⟩
  | bool, [] => some (.bool false)
  | tuple, [] => some (.tuple #[])
  | bytes, [.bytes content] => some (.bytes content)
  | bytes, [.text content] => some (.bytes (withReplacements content))
  | str, [.text content] => some (.text content)
  | str, [.bytes content] => some (.text (withReplacements content))
  | _, _ => none

def printedForm (heap : Heap) : Value → ByteArray
  | .text content | .bytes content => content
  | value => heap.shown value

def ask (function : Builtin) (argument : Value) : Action Value := do
  let heap ← get
  let items : Action (Array Value) := Action.itemsOf argument
  match function with
  | all => return .bool (← allAre true argument)
  | any => return .bool !(← allAre false argument)
  | bool => return .bool (heap.holds argument)
  | bytes => return .bytes (← bytesOf argument)
  | dir => Action.newList (argument.methods.map fun (name, _) => Value.ofString name).toArray
  | enumerate => Action.newList (enumerated (← items) 0)
  | len => return .int (← orFail (heap.length? argument))
  | list => Action.newList (← items)
  | repr => return .text (heap.shown argument)
  | reversed => Action.newList (← items).reverse
  | str => return .text (heap.shown argument)
  | tuple => return .tuple (← items)
  | _ => failure

def keyOf? (call : Caller) : Named → Option (Value → Action Value)
  | [] => some pure
  | [(word, function)] =>
      if word = keyword "key" && function.isCallable then
        some fun item => call function [item] []
      else
        none
  | _ => none

def among? : List Value → Option Value
  | [] => none
  | [source] => some source
  | several => some (.tuple several.toArray)

def apply (call : Caller) (function : Builtin) (arguments : List Value) (named : Named) :
    Action Value := do
  match function, arguments, named with
  | min, arguments, named =>
      extremum .less (← orFail (keyOf? call named)) (← orFail (among? arguments))
  | max, arguments, named =>
      extremum .greater (← orFail (keyOf? call named)) (← orFail (among? arguments))
  | sorted, arguments, named =>
      match byNames? ["iterable", "key", "reverse"] arguments named with
      | some [some source, key, backward] =>
          let backward ←
            match backward with
            | none => pure false
            | some (.bool backward) => pure backward
            | some _ => failure
          if key.all Value.isCallable then sortedList call source key backward else failure
      | _ => failure
  | int, arguments, named =>
      match byNames? ["x", "base"] arguments named with
      | some [some value, base] => return .int (← orFail (value.toInt? base))
      | _ => failure
  | print, arguments, named =>
      let mark ←
        match byNames? ["sep"] [] named with
        | some [none] => pure " ".toUTF8
        | some [some (.text mark)] => pure mark
        | _ => failure
      let heap ← get
      Action.print (Text.joinWith mark (arguments.map (printedForm heap)))
      return .none
  | dict, arguments, named =>
      let made ← Action.allocate (.dict .empty)
      match arguments with
      | [] => pure ()
      | [source] => Action.addEntries made source
      | _ => failure
      Action.addNamed made named
      return .dict made
  | list, [], [] => Action.newList #[]
  | zip, arguments, [] =>
      zipped arguments
  | enumerate, [source, start], [] =>
      let start ← orFail start.long?
      Action.newList (enumerated (← Action.itemsOf source) start)
  | getattr, [value, .text name], [] => orFail (← Action.memberOf? value name.toList)
  | getattr, [value, .text name, otherwise], [] =>
      return (← Action.memberOf? value name.toList).getD otherwise
  | hasattr, [value, .text name], [] =>
      return .bool (← Action.memberOf? value name.toList).isSome
  | function, arguments, [] =>
      match function.value? arguments, arguments with
      | some value, _ => return value
      | none, [argument] => function.ask argument
      | none, _ => failure
  | _, _, _ => failure

end Builtin
end Expression
end ReversibleMips
