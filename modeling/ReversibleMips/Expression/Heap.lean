import ReversibleMips.Expression.Dict
import ReversibleMips.Text.Utf8

/-!
# The heap

What can change while expressions are evaluated: lists and dictionaries by their
addresses, and what names refer to.  A list or dictionary cannot change as long as
something goes through it.
-/

namespace ReversibleMips
namespace Expression

inductive Content where
  | list (items : Array Value)
  | dict (dict : Dict)

/-- What stands at an address, with the number of loops that go through it. -/
structure Object where
  content : Content
  readers : Nat

structure Heap where
  objects : Array Object
  bindings : Std.TreeMap Variable Value
  fresh : Nat
  printed : Array ByteArray

/-- An evaluation that may change the heap, and may fail.  What it has changed by then
stays changed. -/
abbrev Action := ExceptT Failure (StateM Heap)

def failure {α : Type} : Action α := throw .evaluation

def orFail {α : Type} : Option α → Action α
  | some value => pure value
  | none => failure

namespace Heap

def empty : Heap := ⟨#[], ∅, 1, #[]⟩

def items (heap : Heap) (address : Nat) : Array Value :=
  match heap.objects[address]? with
  | some ⟨.list items, _⟩ => items
  | _ => #[]

def dict (heap : Heap) (address : Nat) : Dict :=
  match heap.objects[address]? with
  | some ⟨.dict dict, _⟩ => dict
  | _ => .empty

def isRead (heap : Heap) (address : Nat) : Bool :=
  heap.objects[address]?.any fun object => object.readers ≠ 0

end Heap

namespace Action

def identity : Action Nat :=
  modifyGet fun heap => (heap.fresh, { heap with fresh := heap.fresh + 1 })

def allocate (content : Content) : Action Nat :=
  modifyGet fun heap =>
    (heap.objects.size, { heap with objects := heap.objects.push ⟨content, 0⟩ })

def print (line : ByteArray) : Action Unit :=
  modify fun heap => { heap with printed := heap.printed.push line }

def newList (items : Array Value) : Action Value := do
  return .list (← allocate (.list items))

def newDict (dict : Dict) : Action Value := do
  return .dict (← allocate (.dict dict))

def change (address : Nat) (change : Content → Content) : Action Unit := do
  if (← get).isRead address then failure
  else
    modify fun heap =>
      { heap with
        objects := heap.objects.modify address fun ⟨content, readers⟩ =>
          ⟨change content, readers⟩ }

def changeList (address : Nat) (edit : Array Value → Array Value) : Action Unit :=
  change address fun content =>
    match content with
    | .list items => .list (edit items)
    | other => other

def changeDict (address : Nat) (edit : Dict → Dict) : Action Unit :=
  change address fun content =>
    match content with
    | .dict dict => .dict (edit dict)
    | other => other

def countReaders (value : Value) (count : Nat → Nat) : Action Unit :=
  match value with
  | .list address | .dict address =>
      modify fun heap =>
        { heap with
          objects := heap.objects.modify address fun ⟨content, readers⟩ =>
            ⟨content, count readers⟩ }
  | _ => pure ()

end Action

def Action.setEntry (address : Nat) (key value : Value) : Action Unit := do
  let _ ← ((← get).dict address).look key
  let found ← orFail key.key?
  changeDict address fun dict => dict.insert found key value

def maxRoom : Nat := 0x100000000000

/-- Values that can be gone through, one after another. -/
structure Items where
  count : Nat
  item : Nat → Value

namespace Items

def ofArray (items : Array Value) : Items :=
  ⟨items.size, fun index => items[index]?.getD .none⟩

def toArray (items : Items) : Array Value :=
  items.count.fold (fun index _ (made : Array Value) => made.push (items.item index)) #[]

def ofView (view : View) (bytes : ByteArray) : Items :=
  match view with
  | .elements =>
      ⟨bytes.size, fun index => .text ⟨#[bytes[index]?.getD 0]⟩⟩
  | .elementOrds | .byteOrds =>
      ⟨bytes.size, fun index => .int ((bytes[index]?.getD 0).toNat : Int)⟩
  | .codepoints =>
      ofArray ((Glyphs.ofBytes bytes.toList).map fun glyph =>
        Value.ofBytes (String.utf8EncodeChar glyph.shown)).toArray
  | .codepointOrds =>
      ofArray ((Glyphs.ofBytes bytes.toList).map fun glyph =>
        Value.int (glyph.shown.toNat : Int)).toArray

/-- Do something with each item.  The first argument is the number of items that remain. -/
@[specialize]
def each {σ : Type} (items : Items) (act : σ → Value → Action (ForInStep σ)) :
    Nat → σ → Action σ
  | 0, state => pure state
  | remaining + 1, state => do
      match ← act state (items.item (items.count - (remaining + 1))) with
      | .done state => pure state
      | .yield state => items.each act remaining state

end Items

namespace Heap

def itemsOf? (heap : Heap) : Value → Option Items
  | .tuple items => some (.ofArray items)
  | .list address => some (.ofArray (heap.items address))
  | .dict address => some (.ofArray (heap.dict address).keys)
  | .range span => some ⟨span.length.toNat, fun index => .int (span.item index)⟩
  | .view view bytes => some (.ofView view bytes)
  | _ => none

def length? (heap : Heap) : Value → Option Nat
  | .text bytes => some bytes.size
  | .bytes bytes => some bytes.size
  | .tuple items => some items.size
  | .list address => some (heap.items address).size
  | .dict address => some (heap.dict address).size
  | .range span => if span.length < 0 then none else some span.length.toNat
  | .view .elements bytes | .view .elementOrds bytes => some bytes.size
  | _ => none

end Heap

namespace Action

def makeRoom (value : Value) : Action Unit := do
  if ((← get).itemsOf? value).any (maxRoom < ·.count) then throw (.misuse .capacityOutOfRange)

/-- All items of a value.  Room is made for them beforehand. -/
def itemsOf (value : Value) : Action (Array Value) := do
  makeRoom value
  return (← orFail ((← get).itemsOf? value)).toArray

@[specialize]
def forEach {σ : Type} (source : Value) (state : σ)
    (act : σ → Value → Action (ForInStep σ)) : Action σ := do
  let items ← orFail ((← get).itemsOf? source)
  countReaders source (· + 1)
  let state ← items.each act items.count state
  countReaders source (· - 1)
  return state

end Action
end Expression
end ReversibleMips
