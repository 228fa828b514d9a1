import ReversibleMips.Expression.Tree
import Std.Data.TreeMap
import Std.Data.TreeSet

/-!
# Values

The values of expressions.  Lists and dictionaries can be changed, so that a value only
has the address of one: several values may mean the same list.
-/

namespace ReversibleMips
namespace Expression

inductive Builtin where
  | abs
  | all
  | any
  | bool
  | bytes
  | chr
  | dict
  | dir
  | enumerate
  | fail
  | float
  | getattr
  | hasattr
  | hash
  | int
  | len
  | list
  | max
  | min
  | ord
  | print
  | range
  | repr
  | reversed
  | sorted
  | str
  | tuple
  | type
  | zip
deriving DecidableEq

def Builtin.table : List (String × Builtin) :=
  [("abs", abs), ("all", all), ("any", any), ("bool", bool), ("bytes", bytes), ("chr", chr),
    ("dict", dict), ("dir", dir), ("enumerate", enumerate), ("fail", fail), ("float", float),
    ("getattr", getattr), ("hasattr", hasattr), ("hash", hash), ("int", int), ("len", len),
    ("list", list), ("max", max), ("min", min), ("ord", ord), ("print", print),
    ("range", range), ("repr", repr), ("reversed", reversed), ("sorted", sorted), ("str", str),
    ("tuple", tuple), ("type", type), ("zip", zip)]

inductive TextMethod where
  | capitalize
  | codepointOrds
  | codepoints
  | count
  | elemOrds
  | elems
  | endsWith
  | find
  | format
  | index
  | isAlnum
  | isAlpha
  | isDigit
  | isLower
  | isSpace
  | isTitle
  | isUpper
  | join
  | lower
  | stripLeft
  | partition
  | dropStart
  | dropEnd
  | replace
  | findLast
  | indexLast
  | partitionLast
  | splitLast
  | stripRight
  | split
  | splitLines
  | startsWith
  | strip
  | title
  | upper
deriving DecidableEq

def TextMethod.table : List (String × TextMethod) :=
  [("capitalize", capitalize), ("codepoint_ords", codepointOrds), ("codepoints", codepoints),
    ("count", count), ("elem_ords", elemOrds), ("elems", elems), ("endswith", endsWith),
    ("find", find), ("format", format), ("index", index), ("isalnum", isAlnum),
    ("isalpha", isAlpha), ("isdigit", isDigit), ("islower", isLower), ("isspace", isSpace),
    ("istitle", isTitle), ("isupper", isUpper), ("join", join), ("lower", lower),
    ("lstrip", stripLeft), ("partition", partition), ("removeprefix", dropStart),
    ("removesuffix", dropEnd), ("replace", replace), ("rfind", findLast),
    ("rindex", indexLast), ("rpartition", partitionLast), ("rsplit", splitLast),
    ("rstrip", stripRight), ("split", split), ("splitlines", splitLines),
    ("startswith", startsWith), ("strip", strip), ("title", title), ("upper", upper)]

inductive ListMethod where
  | append
  | clear
  | extend
  | indexOf
  | insert
  | pop
  | remove
deriving DecidableEq

def ListMethod.table : List (String × ListMethod) :=
  [("append", append), ("clear", clear), ("extend", extend), ("index", indexOf),
    ("insert", insert), ("pop", pop), ("remove", remove)]

inductive DictMethod where
  | clear
  | lookUp
  | items
  | keys
  | pop
  | popItem
  | setDefault
  | update
  | values
deriving DecidableEq

def DictMethod.table : List (String × DictMethod) :=
  [("clear", clear), ("get", lookUp), ("items", items), ("keys", keys), ("pop", pop),
    ("popitem", popItem), ("setdefault", setDefault), ("update", update), ("values", values)]

inductive Method where
  | text (method : TextMethod)
  | elements
  | list (method : ListMethod)
  | dict (method : DictMethod)
deriving DecidableEq

namespace Method

def ofText : List (String × Method) :=
  TextMethod.table.map fun (name, method) => (name, text method)

def ofBytes : List (String × Method) := [("elems", elements)]

def ofList : List (String × Method) :=
  ListMethod.table.map fun (name, method) => (name, list method)

def ofDict : List (String × Method) :=
  DictMethod.table.map fun (name, method) => (name, dict method)

def name (method : Method) : String :=
  match (ofText ++ ofBytes ++ ofList ++ ofDict).find? fun entry => entry.2 = method with
  | some (name, _) => name
  | none => ""

end Method

def Builtin.name (function : Builtin) : String :=
  match table.find? fun entry => entry.2 = function with
  | some (name, _) => name
  | none => ""

/-- The names of a function that is being executed, or of a list or dictionary that loops
make.  The activation tells apart what is executed several times. -/
structure Frame where
  activation : Nat
  site : Nat
  names : Std.TreeSet String

structure Variable where
  activation : Nat
  site : Nat
  name : String
deriving Ord

structure Code where
  site : Nat
  name : String
  parameters : List Parameter
  body : List Statement

/-- Integers at equal distances, up to a bound. -/
structure Span where
  start : Int
  stop : Int
  step : Int
deriving DecidableEq

def wrapped (value : Int) : Int := value.bmod 0x10000000000000000

namespace Span

def length (span : Span) : Int :=
  if 0 < span.step then
    if span.start < span.stop then
      wrapped ((wrapped (span.stop - 1 - span.start)).tdiv span.step + 1)
    else 0
  else if span.stop < span.start then
    wrapped ((wrapped (span.start - 1 - span.stop)).tdiv (wrapped (-span.step)) + 1)
  else 0

def item (span : Span) (index : Int) : Int := wrapped (span.start + index * span.step)

def same (left right : Span) : Bool :=
  left.length = right.length &&
    (left.length = 0 ||
      left.start = right.start && (left.length = 1 || left.step = right.step))

/-- An integer occurs in a range.  Those beyond thirty-two bits do not. -/
def holds (span : Span) (value : Int) : Bool :=
  let distance := wrapped (value - span.start)
  let index := wrapped (distance.tdiv span.step)
  (-0x80000000 ≤ value && value < 0x80000000) && distance.tmod span.step = 0 &&
    (0 ≤ index && index < span.length)

end Span

/-- What is gone through of a text or of bytes. -/
inductive View where
  | elements
  | elementOrds
  | codepoints
  | codepointOrds
  | byteOrds
deriving DecidableEq

inductive Value where
  | none
  | bool (holds : Bool)
  | int (value : Int)
  | float (value : Float)
  | text (bytes : ByteArray)
  | bytes (bytes : ByteArray)
  | tuple (items : Array Value)
  | range (span : Span)
  | list (address : Nat)
  | dict (address : Nat)
  | view (view : View) (bytes : ByteArray)
  | builtin (function : Builtin)
  /-- A method of a value.  The identity tells apart what looks the same. -/
  | method (identity : Nat) (receiver : Value) (method : Method)
  | function (identity : Nat) (code : Code) (defaults : List Value) (frames : List Frame)
deriving Inhabited

namespace Value

def typeName : Value → String
  | none => "NoneType"
  | bool _ => "bool"
  | int _ => "int"
  | float _ => "float"
  | text _ => "string"
  | bytes _ => "bytes"
  | tuple _ => "tuple"
  | range _ => "range"
  | list _ => "list"
  | dict _ => "dict"
  | view .elements _ | view .elementOrds _ => "string.elems"
  | view .codepoints _ | view .codepointOrds _ => "string.codepoints"
  | view .byteOrds _ => "bytes.elems"
  | builtin _ | method _ _ _ => "builtin_function_or_method"
  | function _ _ _ _ => "function"

def ofString (string : String) : Value := text string.toUTF8

def ofBytes (content : List UInt8) : Value := text ⟨content.toArray⟩

def small? : Value → Option Int
  | int value => if -0x80000000 ≤ value ∧ value < 0x80000000 then some value else Option.none
  | _ => Option.none

def long? : Value → Option Int
  | int value =>
      if -0x8000000000000000 ≤ value ∧ value < 0x8000000000000000 then some value
      else Option.none
  | _ => Option.none

def methods : Value → List (String × Method)
  | text _ => Method.ofText
  | bytes _ => Method.ofBytes
  | list _ => Method.ofList
  | dict _ => Method.ofDict
  | _ => []

def isCallable : Value → Bool
  | builtin _ | method _ _ _ | function _ _ _ _ => true
  | _ => false

end Value
end Expression
end ReversibleMips
