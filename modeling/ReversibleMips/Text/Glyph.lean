import ReversibleMips.Text.Blank
import Std.Data.TreeMap

/-!
# Glyphs

A source is read from a file, and a file may hold bytes that belong to no character.
Such a byte is a glyph of its own: two of them are the same glyph only if they are the
same byte, although they look alike where they are shown.

Glyphs are ordered by their numbers, with the stray bytes behind all characters, so that
texts can be the keys of a map.
-/

namespace ReversibleMips

/-- A character, or a byte that belongs to none. -/
inductive Glyph where
  | char (value : Char)
  | stray (byte : UInt8)
deriving DecidableEq, Inhabited

/-- A text that may hold stray bytes. -/
abbrev Glyphs := List Glyph

namespace Glyph

/-- The character that is shown in place of a stray byte. -/
def replacement : Char := Char.ofNat 0xfffd

def shown : Glyph → Char
  | char value => value
  | stray _ => replacement

def isBlank : Glyph → Bool
  | char value => Text.isBlank value
  | stray _ => false

def byteLength : Glyph → Nat
  | char value => value.utf8Size
  | stray _ => 1

def code : Glyph → Nat
  | char value => value.toNat
  | stray byte => 0x110000 + byte.toNat

theorem code_char_lt (value : Char) : (char value).code < 0x110000 := by
  have valid : value.toNat < 0xd800 ∨ 0xdfff < value.toNat ∧ value.toNat < 0x110000 :=
    value.valid
  simp only [code]
  omega

theorem code_injective {left right : Glyph} (same : left.code = right.code) :
    left = right := by
  cases left with
  | char left =>
      cases right with
      | char right => exact congrArg char (Char.toNat_inj.1 same)
      | stray right =>
          have small := code_char_lt left
          rw [same] at small
          simp only [code] at small
          omega
  | stray left =>
      cases right with
      | char right =>
          have small := code_char_lt right
          rw [← same] at small
          simp only [code] at small
          omega
      | stray right =>
          simp only [code] at same
          exact congrArg stray (UInt8.toNat_inj.1 (by omega))

instance : Ord Glyph := ⟨compareOn code⟩

instance : Std.TransOrd Glyph := inferInstanceAs (Std.TransCmp (compareOn code))

instance : Std.LawfulEqOrd Glyph where
  eq_of_compare same := code_injective (Std.LawfulEqOrd.eq_of_compare same)

end Glyph

namespace Glyphs

def ofChars (chars : List Char) : Glyphs := chars.map .char

def ofString (text : String) : Glyphs := ofChars text.toList

instance : Coe String Glyphs := ⟨ofString⟩

def chars (text : Glyphs) : List Char := text.map Glyph.shown

def shown (text : Glyphs) : String := String.ofList text.chars

def byteLength (text : Glyphs) : Nat :=
  text.foldl (fun total glyph => total + glyph.byteLength) 0

def trim (text : Glyphs) : Glyphs := Text.trimBoth Glyph.isBlank text

def lines (text : Glyphs) : List Glyphs := Text.splitBefore (.char '\n') text

def dropCarriageReturn (line : Glyphs) : Glyphs :=
  if line.getLast? = some (.char '\r') then line.dropLast else line

def words (text : Glyphs) : List Glyphs :=
  (Text.splitOn (.char ' ') text).filter fun word => !word.isEmpty

@[simp]
theorem chars_ofChars (text : List Char) : (ofChars text).chars = text := by
  simp [chars, ofChars, Glyph.shown, Function.comp_def]

@[simp]
theorem shown_ofString (text : String) : shown (ofString text) = text := by
  simp [shown, chars, ofString, ofChars, Glyph.shown, Function.comp_def]

theorem ofString_injective {left right : String} (same : ofString left = ofString right) :
    left = right := by
  have shownSame := congrArg shown same
  simpa using shownSame

/-- Only stray bytes are shown as something else than what they are. -/
theorem eq_ofChars {text : Glyphs} (plain : Glyph.replacement ∉ text.chars) :
    text = ofChars text.chars := by
  induction text with
  | nil => rfl
  | cons glyph text ih =>
      rw [chars, List.map_cons, List.mem_cons, not_or] at plain
      cases glyph with
      | stray byte => exact absurd rfl plain.1
      | char value => exact congrArg (Glyph.char value :: ·) (ih plain.2)

end Glyphs
end ReversibleMips
