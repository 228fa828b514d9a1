import ReversibleMips.Expression.Decimal
import ReversibleMips.Expression.Heap
import ReversibleMips.Text.Quoted

/-!
# Texts of values

How values are shown.  A list or dictionary that holds itself is not shown again inside.
-/

namespace ReversibleMips
namespace Expression

def bytesOfChars (chars : List Char) : ByteArray :=
  (String.ofList chars).toUTF8

def withReplacements (bytes : ByteArray) : ByteArray :=
  bytesOfChars (Glyphs.ofBytes bytes.toList).chars

def quotedBytes (bytes : ByteArray) : ByteArray :=
  bytesOfChars ('"' :: (Glyphs.ofBytes bytes.toList).flatMap Text.quotedGlyph ++ ['"'])

def commaSeparated : List ByteArray → ByteArray
  | [] => .empty
  | first :: rest => rest.foldl (fun made piece => made ++ ", ".toUTF8 ++ piece) first

def Span.shown (span : Span) : String :=
  if span.step ≠ 1 then s!"range({span.start}, {span.stop}, {span.step})"
  else if span.start ≠ 0 then s!"range({span.start}, {span.stop})"
  else s!"range({span.stop})"

def View.shown : View → String
  | elements | byteOrds => ".elems()"
  | elementOrds => ".elem_ords()"
  | codepoints => ".codepoints()"
  | codepointOrds => ".codepoint_ords()"

namespace Value

mutual

def showWith (inner : Value → ByteArray) : Value → ByteArray
  | none => "None".toUTF8
  | bool holds => (if holds then "True" else "False").toUTF8
  | int value => (toString value).toUTF8
  | float value => bytesOfChars (FloatStyle.shortest.shown 'e' value)
  | text content => quotedBytes content
  | bytes content => "b".toUTF8 ++ quotedBytes content
  | tuple items =>
      let close := if items.size = 1 then ",)" else ")"
      "(".toUTF8 ++ commaSeparated (showArrayWith inner items) ++ close.toUTF8
  | range span => span.shown.toUTF8
  | list address => inner (list address)
  | dict address => inner (dict address)
  | view kind content =>
      let mark := if kind = .byteOrds then "b" else ""
      mark.toUTF8 ++ quotedBytes content ++ kind.shown.toUTF8
  | builtin known => s!"<built-in function {known.name}>".toUTF8
  | method _ receiver called =>
      s!"<built-in method {called.name} of {receiver.typeName} value>".toUTF8
  | function _ code _ _ => s!"<function {code.name}>".toUTF8

def showArrayWith (inner : Value → ByteArray) : Array Value → List ByteArray
  | ⟨items⟩ => showAllWith inner items

def showAllWith (inner : Value → ByteArray) : List Value → List ByteArray
  | [] => []
  | value :: rest => value.showWith inner :: showAllWith inner rest

end

end Value

namespace Heap

/-- A list or dictionary as it is shown inside of others, whose addresses are given.  The
first argument bounds how deep they are nested. -/
def showObject (heap : Heap) : Nat → List Nat → Value → ByteArray
  | 0, _, _ => .empty
  | bound + 1, path, value =>
      match value with
      | .list address =>
          if path.contains address then "[...]".toUTF8
          else
            let inner := heap.showObject bound (address :: path)
            "[".toUTF8 ++ commaSeparated ((heap.items address).toList.map (·.showWith inner)) ++
              "]".toUTF8
      | .dict address =>
          if path.contains address then "\x7b...\x7d".toUTF8
          else
            let inner := heap.showObject bound (address :: path)
            let entries := (heap.dict address).toArray.toList.map fun (key, value) =>
              key.showWith inner ++ ": ".toUTF8 ++ value.showWith inner
            "\x7b".toUTF8 ++ commaSeparated entries ++ "\x7d".toUTF8
      | _ => .empty

def shown (heap : Heap) (value : Value) : ByteArray :=
  value.showWith (heap.showObject (heap.objects.size + 1) [])

/-- A value as a part of a text.  Texts stand for themselves. -/
def asText (heap : Heap) : Value → ByteArray
  | .text bytes => bytes
  | value => heap.shown value

end Heap
end Expression
end ReversibleMips
