import ReversibleMips.Instruction
import ReversibleMips.Proofs.Numerals
import ReversibleMips.Proofs.SourceLines

/-!
# Reading operands back

The operands that instructions are written with are bare words, and each of them names
the register or the number that it was written for.  Equates do not get in the way as long
as all of them have names.
-/

namespace ReversibleMips
namespace Assembler

/-- A letter, a digit or a mark that belongs to numbers and places. -/
def isPlainChar (char : Char) : Bool := char.isAlphanum || "-.()".toList.contains char

theorem bareWord_ofString {text : String} (nonempty : text.toList ≠ [])
    (plain : text.toList.all isPlainChar = true) : BareWord (Glyphs.ofString text) where
  nonempty := Glyphs.ofString_ne_nil nonempty
  bare := by
    intro glyph member
    obtain ⟨char, inside, rfl⟩ := Glyphs.mem_ofString.mp member
    have marks : "-.()".toList.all (fun char => isBareGlyph (.char char)) = true := by decide
    have plainChar := List.all_eq_true.mp plain char inside
    rw [isPlainChar, Bool.or_eq_true] at plainChar
    rcases plainChar with alphanumeric | mark
    · simp [isBareGlyph, alphanumeric]
    · exact List.all_eq_true.mp marks char (List.contains_iff_mem.mp mark)
  inert := by
    apply inert_of_notMem
    intro member
    obtain ⟨char, inside, same⟩ := Glyphs.mem_ofString.mp member
    cases same
    exact absurd (List.all_eq_true.mp plain '$' inside) (by decide)

theorem bareWord_toString (number : Int) : BareWord (Glyphs.ofString (toString number)) := by
  apply bareWord_ofString
  · exact Text.toList_toString_ne_nil number
  · rw [List.all_eq_true]
    intro char member
    rcases Text.isAlphanum_of_mem_toString member with rfl | alphanumeric
    · decide
    · simp [isPlainChar, alphanumeric]

theorem bareWord_hexWord (number : Nat) : BareWord (Glyphs.ofString (Text.hexWord number)) := by
  apply bareWord_ofString
  · simp [Text.hexWord]
  · rw [List.all_eq_true]
    intro char member
    simp [isPlainChar, Text.isAlphanum_of_mem_hexWord member]

theorem ofString_registerText (register : Register) :
    Glyphs.ofString (Instruction.registerText register) =
      .char '$' :: Glyphs.ofString (toString (register.val : Int)) := by
  rw [Instruction.registerText, Glyphs.ofString_append]
  rfl

theorem isNameGlyph_of_mem_toString {number : Nat} {glyph : Glyph}
    (member : glyph ∈ Glyphs.ofString (toString (number : Int))) : isNameGlyph glyph = true := by
  obtain ⟨char, inside, rfl⟩ := Glyphs.mem_ofString.mp member
  rw [← Int.ofNat_eq_natCast, Text.toList_toString_ofNat] at inside
  simp [isNameGlyph, Text.isAlphanum_of_mem_toDigits (by omega : 1 < 10) (by omega) inside]

theorem bareWord_registerText (register : Register) :
    BareWord (Glyphs.ofString (Instruction.registerText register)) := by
  have number := bareWord_toString (register.val : Int)
  rw [ofString_registerText]
  refine ⟨List.cons_ne_nil _ _, ?_, ?_⟩
  · intro glyph member
    rcases List.mem_cons.mp member with rfl | digit
    · decide
    · exact number.bare glyph digit
  · intro rest inside
    rw [List.cons_append, List.infix_cons_iff] at inside
    rcases inside with here | later
    · -- A digit comes behind the dollar sign, and no parenthesis.
      exfalso
      obtain ⟨digit, digits, written⟩ := List.exists_cons_of_ne_nil number.nonempty
      rw [written] at here
      have parenthesis : .char '(' = digit :=
        (List.cons_prefix_cons.mp (List.cons_prefix_cons.mp here).2).1
      have member : .char '(' ∈ Glyphs.ofString (toString (register.val : Int)) := by
        rw [written, parenthesis]
        exact List.mem_cons_self
      exact absurd (isNameGlyph_of_mem_toString member) (by decide)
    · exact number.inert rest later

def startsName : Glyphs → Bool
  | .char first :: _ => first = '_' || first.isAlpha
  | _ => false

def Equates.Named (equates : Equates) : Prop :=
  ∀ word, equates.contains word = true → startsName word = true

theorem Equates.isLabel_eq_false (equates : Equates) {word : Glyphs}
    (other : startsName word = false) : equates.isLabel word = false := by
  unfold isLabel
  exact Bool.and_eq_false_iff.mpr (.inr other)

theorem startsName_toString (number : Int) :
    startsName (Glyphs.ofString (toString number)) = false := by
  cases number with
  | ofNat number =>
      obtain ⟨first, rest, written⟩ :=
        List.exists_cons_of_ne_nil (Nat.toDigits_ne_nil : Nat.toDigits 10 number ≠ [])
      obtain ⟨digit, small, rfl⟩ := Text.exists_digit_of_mem_toDigits (by omega : 1 < 10)
        (written ▸ List.mem_cons_self : first ∈ Nat.toDigits 10 number)
      have all : ∀ digit < 10,
          (Nat.digitChar digit = '_' || (Nat.digitChar digit).isAlpha) = false := by decide
      rw [Glyphs.ofString, Text.toList_toString_ofNat, written]
      exact all digit small
  | negSucc number =>
      rw [Glyphs.ofString, Text.toList_toString_negSucc]
      rfl

theorem startsName_hexWord (number : Nat) :
    startsName (Glyphs.ofString (Text.hexWord number)) = false := by
  simp [Glyphs.ofString, Glyphs.ofChars, Text.toList_hexWord, startsName]

theorem startsName_registerText (register : Register) :
    startsName (Glyphs.ofString (Instruction.registerText register)) = false := by
  rw [ofString_registerText]
  rfl

section Named

variable {equates : Equates} (named : equates.Named)
include named

theorem resolve_eq_self {word : Glyphs} (other : startsName word = false) :
    equates.resolve word = word := by
  have undefined : equates[word]? = none := by
    cases found : equates[word]? with
    | none => rfl
    | some text =>
        have defined : equates.contains word = true := by
          rw [Std.TreeMap.contains_eq_isSome_getElem?, found]
          rfl
        rw [named word defined] at other
        cases other
  rw [Equates.resolve, undefined]
  rfl

theorem registerOf_registerText {register : Register} (general : register.val < 32) :
    equates.registerOf (Glyphs.ofString (Instruction.registerText register)) = .ok register := by
  have number : Text.readDecimal? 255 (toString (register.val : Int)).toList = some register.val :=
    Text.readDecimal?_toString (by omega)
  have inside : register.val ≤ 31 := by omega
  rw [Equates.registerOf, resolve_eq_self named (startsName_registerText register),
    ofString_registerText]
  simp only [Glyphs.chars_ofString, number, inside, dite_true]

theorem valueOf_of_readInt {text : String} {value : Int}
    (other : startsName (Glyphs.ofString text) = false)
    (read : Text.readInt 64 text.toList = .ok value) (least : -0x80000000 ≤ value)
    (greatest : value ≤ 0xffffffff) :
    equates.valueOf (Glyphs.ofString text) = .ok (UInt32.ofInt value) := by
  rw [Equates.valueOf, resolve_eq_self named other]
  simp only [Glyphs.chars_ofString, read, least, greatest, and_self, if_true]

theorem valueOf_hexWord (word : Word) :
    equates.valueOf (Glyphs.ofString (Text.hexWord word.toNat)) = .ok word := by
  have bounded := word.toNat_lt
  have read : Text.readInt 64 (Text.hexWord word.toNat).toList = .ok (word.toNat : Int) :=
    Text.readInt_hexWord (by omega)
  have whole : UInt32.ofInt (word.toNat : Int) = word := by
    apply UInt32.toNat_inj.mp
    simp only [UInt32.ofInt, UInt32.toNat_ofNat']
    omega
  rw [valueOf_of_readInt named (startsName_hexWord _) read (by omega) (by omega), whole]

theorem immediateOf_toString (immediate : Int16) :
    equates.immediateOf (Glyphs.ofString (toString immediate.toInt)) = .ok immediate := by
  have least := immediate.le_toInt
  have greatest := immediate.toInt_lt
  have read : Text.readInt 64 (toString immediate.toInt).toList = .ok immediate.toInt :=
    Text.readInt_toString (by omega) (by omega)
  have value := valueOf_of_readInt named (startsName_toString _) read (by omega) (by omega)
  have signed : (UInt32.ofInt immediate.toInt).toInt32.toInt = immediate.toInt := by
    rw [UInt32.ofInt, UInt32.toInt32_ofNat', Int32.toInt_ofNat', Int.bmod_def]
    simp only [Int32.size]
    omega
  have inside : -0x8000 ≤ immediate.toInt ∧ immediate.toInt ≤ 0xffff := by omega
  simp only [Equates.immediateOf, value, signed, inside, and_self, if_true, Int16.ofInt_toInt]

end Named

def placeText (offset : Int) (base : Register) : String :=
  toString offset ++ "(" ++ Instruction.registerText base ++ ")"

theorem ofString_placeText (offset : Int) (base : Register) :
    Glyphs.ofString (placeText offset base) =
      Glyphs.ofString (toString offset) ++ .char '(' ::
        Glyphs.ofString (Instruction.registerText base) ++ [.char ')'] := by
  simp only [placeText, Glyphs.ofString_append, List.append_assoc, List.cons_append]
  rfl

theorem bareWord_placeText (offset : Int) (base : Register) :
    BareWord (Glyphs.ofString (placeText offset base)) := by
  have opening : BareWord (Glyphs.ofString "(") := bareWord_ofString (by decide) (by decide)
  have closing : BareWord (Glyphs.ofString ")") := bareWord_ofString (by decide) (by decide)
  simp only [placeText, Glyphs.ofString_append]
  exact (((bareWord_toString offset).append opening).append
    (bareWord_registerText base)).append closing

theorem isBaseName_registerText (register : Register) :
    isBaseName (Glyphs.ofString (Instruction.registerText register)) = true := by
  have number := bareWord_toString (register.val : Int)
  rw [ofString_registerText, isBaseName, Bool.and_eq_true, List.all_eq_true]
  refine ⟨?_, fun glyph member => isNameGlyph_of_mem_toString member⟩
  rw [Bool.not_eq_true', List.isEmpty_eq_false_iff]
  exact number.nonempty

theorem parenthesis_notMem_registerText (register : Register) :
    .char '(' ∉ Glyphs.ofString (Instruction.registerText register) := by
  rw [ofString_registerText, List.mem_cons, not_or]
  refine ⟨by decide, fun member => ?_⟩
  exact absurd (isNameGlyph_of_mem_toString member) (by decide)

/-- A place has its offset in front of its base register. -/
theorem indexed?_placeText (offset : Int) (base : Register) :
    indexed? (Glyphs.ofString (placeText offset base)) =
      some (Glyphs.ofString (toString offset),
        Glyphs.ofString (Instruction.registerText base)) := by
  rw [ofString_placeText, indexed?, List.reverse_append]
  simp only [List.reverse_singleton, List.singleton_append, List.reverse_reverse,
    Text.splitLast?_append_mark _ (parenthesis_notMem_registerText base),
    isBaseName_registerText, if_true]

end Assembler
end ReversibleMips
