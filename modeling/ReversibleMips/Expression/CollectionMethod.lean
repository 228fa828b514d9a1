import ReversibleMips.Expression.TextMethod

/-!
# Methods of lists and dictionaries

What lists and dictionaries can be asked for, and how they are changed.
-/

namespace ReversibleMips
namespace Expression

namespace ListMethod

def indexIn (heap : Heap) (items : Array Value) (value : Value) (bounds : List Value) :
    Except Failure Value :=
  match boundsOf? items.size bounds with
  | none => .error .evaluation
  | some (start, stop) =>
      match heap.placeFrom? value start (items.extract start stop).toList with
      | .ok (some place) => .ok (.int place)
      | _ => .error .evaluation

/-- Where an item is put into a list of some length.  The place counts from the end if it
is negative. -/
def insertionPlace (length : Nat) (index : Int) : Nat :=
  let index := if index < 0 then index + length else index
  min index.toNat length

def popAt (address : Nat) (place? : Nat → Option Nat) : Action Value := do
  let place ← orFail (place? ((← get).items address).size)
  let value := ((← get).items address)[place]?.getD .none
  Action.changeList address (·.eraseIdxIfInBounds place)
  return value

def call (method : ListMethod) (address : Nat) (arguments : List Value) : Action Value :=
  match method, arguments with
  | .append, [value] => do
      Action.changeList address (·.push value)
      return .none
  | .clear, [] => do
      Action.changeList address fun _ => #[]
      return .none
  | .extend, [value] => do
      let more ← orFail ((← get).itemsOf? value)
      Action.changeList address (· ++ more.toArray)
      return .none
  | .insert, [index, value] => do
      let index ← orFail index.long?
      let place := insertionPlace ((← get).items address).size index
      Action.changeList address (·.insertIdxIfInBounds place value)
      return .none
  | .remove, [value] => do
      let heap ← get
      let _ ← popAt address fun _ =>
        match heap.placeFrom? value 0 (heap.items address).toList with
        | .ok place => place
        | .error _ => none
      return .none
  | .indexOf, value :: bounds => do
      let heap ← get
      indexIn heap (heap.items address) value bounds
  | .pop, [] => popAt address (placeIn? · (-1))
  | .pop, [index] => do
      let index ← orFail index.long?
      popAt address (placeIn? · index)
  | _, _ => failure

end ListMethod

def Action.addEntries (address : Nat) (source : Value) : Action Unit := do
  match source with
  | .dict other =>
      for (key, value) in ((← get).dict other).toArray do
        setEntry address key value
  | source =>
      forEach source () fun _ pair => do
        let heap ← get
        match heap.itemsOf? pair, heap.length? pair with
        | some items, some 2 =>
            countReaders pair (· + 1)
            setEntry address (items.item 0) (items.item 1)
            countReaders pair (· - 1)
            return .yield ()
        | _, _ => failure

/-- Add the values of keywords to the dictionary at an address.  Keywords must differ. -/
def Action.addNamed (address : Nat) (named : Named) : Action Unit := do
  for (keyword, value) in named do
    setEntry address (Value.ofBytes keyword) value
  unless (named.map Prod.fst).Nodup do failure

namespace DictMethod

/-- Take the value of a key out of the dictionary at an address.  A dictionary without room for
entries is not even asked for the key. -/
def popKey (address : Nat) (key : Value) (otherwise : Option Value) : Action Value := do
  Action.changeDict address id
  let dict := (← get).dict address
  if !dict.hasRoom then orFail otherwise
  else
    match ← dict.look key, key.key? with
    | some value, some found =>
        Action.changeDict address (·.erase found)
        return value
    | _, _ => orFail otherwise

def settle (address : Nat) (key otherwise : Value) : Action Value := do
  match ← ((← get).dict address).look key with
  | some value => return value
  | none =>
      Action.setEntry address key otherwise
      return otherwise

def ask? (method : DictMethod) (dict : Dict) (arguments : List Value) :
    Option (Action Value) :=
  match method, arguments with
  | .lookUp, [key] => some do return (← dict.look key).getD .none
  | .lookUp, [key, otherwise] => some do return (← dict.look key).getD otherwise
  | .items, [] =>
      some (Action.newList (dict.toArray.map fun (key, value) => .tuple #[key, value]))
  | .keys, [] => some (Action.newList dict.keys)
  | .values, [] => some (Action.newList dict.values)
  | _, _ => none

def call (method : DictMethod) (address : Nat) (arguments : List Value) (named : Named) :
    Action Value :=
  match method, arguments, named with
  | .update, [], named => do
      Action.addNamed address named
      return .none
  | .update, [source], named => do
      Action.addEntries address source
      Action.addNamed address named
      return .none
  | .clear, [], [] => do
      Action.changeDict address Dict.cleared
      return .none
  | .pop, [key], [] => popKey address key none
  | .pop, [key, otherwise], [] => popKey address key (some otherwise)
  | .popItem, [], [] => do
      let (key, value) ← orFail ((← get).dict address).first?
      let _ ← popKey address key none
      return .tuple #[key, value]
  | .setDefault, [key], [] => settle address key .none
  | .setDefault, [key, otherwise], [] => settle address key otherwise
  | method, arguments, [] => do
      (ask? method ((← get).dict address) arguments).getD failure
  | _, _, _ => failure

end DictMethod

namespace Method

def call (method : Method) (receiver : Value) (arguments : List Value) (named : Named) :
    Action Value :=
  match method, receiver with
  | .text method, .text bytes => method.call bytes arguments named
  | .elements, .bytes bytes =>
      if arguments.isEmpty && named.isEmpty then pure (.view .byteOrds bytes) else failure
  | .list method, .list address =>
      if named.isEmpty then method.call address arguments else failure
  | .dict method, .dict address => method.call address arguments named
  | _, _ => failure

end Method
end Expression
end ReversibleMips
