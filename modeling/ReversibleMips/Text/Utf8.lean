import ReversibleMips.Text.Glyph

/-!
# Bytes as glyphs

Reading bytes as UTF-8.  A byte that belongs to no character stays as it is, so that
every sequence of bytes is a text and nothing of it is lost.
-/

namespace ReversibleMips
namespace Text

def continuation? (byte : UInt8) : Option Nat :=
  if 0x80 ≤ byte.toNat ∧ byte.toNat < 0xc0 then some (byte.toNat - 0x80) else none

/-- The character of a code point that needs more code units than a smaller bound would,
if there is one. -/
def wellFormed? (least point : Nat) : Option Char :=
  if valid : point.isValidChar then
    if least ≤ point then some (Char.ofNatAux point valid) else none
  else
    none

def twoBytes? (first second : UInt8) : Option Char := do
  let low ← continuation? second
  if 0xc0 ≤ first.toNat ∧ first.toNat < 0xe0 then
    wellFormed? 0x80 ((first.toNat - 0xc0) * 0x40 + low)
  else
    none

def threeBytes? (first second third : UInt8) : Option Char := do
  let middle ← continuation? second
  let low ← continuation? third
  if 0xe0 ≤ first.toNat ∧ first.toNat < 0xf0 then
    wellFormed? 0x800 ((first.toNat - 0xe0) * 0x1000 + middle * 0x40 + low)
  else
    none

def fourBytes? (first second third fourth : UInt8) : Option Char := do
  let high ← continuation? second
  let middle ← continuation? third
  let low ← continuation? fourth
  if 0xf0 ≤ first.toNat ∧ first.toNat < 0xf8 then
    wellFormed? 0x10000
      ((first.toNat - 0xf0) * 0x40000 + high * 0x1000 + middle * 0x40 + low)
  else
    none

/-- The glyph that bytes start with, and the number of its bytes. -/
def firstGlyph (first : UInt8) (rest : List UInt8) : Glyph × Nat :=
  if first.toNat < 0x80 then (.char (Char.ofNat first.toNat), 1)
  else
    match rest with
    | [] => (.stray first, 1)
    | [second] =>
        match twoBytes? first second with
        | some char => (.char char, 2)
        | none => (.stray first, 1)
    | [second, third] =>
        match twoBytes? first second, threeBytes? first second third with
        | some char, _ => (.char char, 2)
        | none, some char => (.char char, 3)
        | none, none => (.stray first, 1)
    | second :: third :: fourth :: _ =>
        match twoBytes? first second, threeBytes? first second third,
          fourBytes? first second third fourth with
        | some char, _, _ => (.char char, 2)
        | none, some char, _ => (.char char, 3)
        | none, none, some char => (.char char, 4)
        | none, none, none => (.stray first, 1)

/-- The glyphs of bytes, behind those already read, which come in reverse.  The second
argument is the number of bytes that belong to the glyph read last. -/
def decodeBehind (read : Glyphs) : Nat → List UInt8 → Glyphs
  | _, [] => read.reverse
  | skip + 1, _ :: rest => decodeBehind read skip rest
  | 0, first :: rest =>
      let (glyph, length) := firstGlyph first rest
      decodeBehind (glyph :: read) (length - 1) rest

end Text

def Glyphs.ofBytes (bytes : List UInt8) : Glyphs := Text.decodeBehind [] 0 bytes

def Glyph.toBytes : Glyph → List UInt8
  | char value => String.utf8EncodeChar value
  | stray byte => [byte]

def Glyphs.toBytes (text : Glyphs) : ByteArray :=
  text.foldl (fun bytes glyph => glyph.toBytes.foldl ByteArray.push bytes) .empty

end ReversibleMips
