import ReversibleMips.Emulator.Load
import ReversibleMips.Proofs.AddressArithmetic
import ReversibleMips.Proofs.ConsecutiveWords

/-!
# What a load leaves behind

A load that succeeds depends on nothing of the emulator but the size of its memory and what is
on its tape.  This file says so once for each kind of load, and reads the program and the
array back from memory.
-/

namespace ReversibleMips
namespace Emulator

/-- An image is a number of words that memory has room for. -/
structure Fits (emulator : Emulator) (image : List UInt8) : Prop where
  whole : image.length % 4 = 0
  sized : image.length ≤ 0xffffffff
  room : image.length / 4 ≤ emulator.ram.size

/-- An array with some number of elements has an address, and memory has a word below the stack
for the last of them. -/
structure ArrayFits (size base length : Nat) : Prop where
  based : base ≤ Address.maxIndex
  room : length = 0 ∨
    4 * (base + length - 1) ≤ Ram.maxAddress.toNat ∧ base + length - 1 < size

def withProgram (emulator : Emulator) (words : List Word) : Emulator :=
  { registers :=
      (Registers.empty.write .link Machine.returnAddress).write .stack Ram.maxAddress
    ram := (Ram.ofSize emulator.ram.size).writeFrom 0 words
    pc := .zero
    tape := emulator.tape.rewind
    journal := .empty }

def withArray (emulator : Emulator) (words : List Word) (base : Nat) (elements : List Int32) :
    Emulator :=
  let called :=
    (emulator.withProgram words).setArguments (Address.ofNat base).value
      (UInt32.ofNat elements.length)
  { called with ram := called.ram.writeFrom base (elements.map Int32.toUInt32) }

theorem index_wordPlace {number : Nat} (inside : number ≤ Address.maxIndex) :
    (wordPlace number).index = number := by
  rw [wordPlace, Address.ofIndex_natCast, if_pos inside]
  exact Address.index_ofNat inside

/-- The words of a program that memory has room for are all written, so that a load can only fail
before anything is changed. -/
theorem load_eq (emulator : Emulator) (image : List UInt8) :
    emulator.load image =
      if image.length % 4 ≠ 0 ∨ 0xffffffff < image.length then
        ⟨emulator, [], some (.programSize image.length)⟩
      else if emulator.ram.size < image.length / 4 then
        ⟨emulator, [], some (.programRange (image.length / 4))⟩
      else
        ⟨emulator.withProgram (Image.toWords image), [.loaded (image.length / 4)], none⟩ := by
  by_cases wrong : image.length % 4 ≠ 0 ∨ 0xffffffff < image.length
  · simp only [load, if_pos wrong]
  · by_cases small : emulator.ram.size < image.length / 4
    · simp only [load, if_neg wrong, if_pos small]
    · have length := Image.length_toWords image
      have sized : emulator.reset.ram.size = emulator.ram.size := Ram.size_ofSize _
      have written : emulator.reset.ram.writeAll wordPlace 0 (Image.toWords image) =
          ((Ram.ofSize emulator.ram.size).writeFrom 0 (Image.toWords image), none) := by
        apply Ram.writeAll_eq
        · intro offset inside
          rw [index_wordPlace]
          unfold Address.maxIndex
          omega
        · right
          omega
      simp only [load, if_neg wrong, if_neg small, written]
      rfl

theorem load_of_fits {emulator : Emulator} {image : List UInt8}
    (fits : emulator.Fits image) :
    emulator.load image =
      ⟨emulator.withProgram (Image.toWords image), [.loaded (image.length / 4)], none⟩ := by
  obtain ⟨whole, sized, room⟩ := fits
  rw [load_eq, if_neg (by omega), if_neg (by omega)]

theorem fits_of_load {emulator : Emulator} {image : List UInt8}
    (succeeds : (emulator.load image).error = none) : emulator.Fits image := by
  rw [load_eq] at succeeds
  split at succeeds
  · cases succeeds
  · split at succeeds
    · cases succeeds
    · constructor <;> omega

theorem loadTwoInts_of_fits {emulator : Emulator} {image : List UInt8}
    (fits : emulator.Fits image) (first second : Int32) :
    emulator.loadTwoInts image first second =
      ⟨(emulator.withProgram (Image.toWords image)).setArguments first.toUInt32 second.toUInt32,
        [.loaded (image.length / 4)], none⟩ := by
  rw [loadTwoInts, load_of_fits fits]

theorem fits_of_loadTwoInts {emulator : Emulator} {image : List UInt8} {first second : Int32}
    (succeeds : (emulator.loadTwoInts image first second).error = none) :
    emulator.Fits image := by
  apply fits_of_load
  unfold loadTwoInts at succeeds
  split at succeeds
  · cases succeeds
  · rename_i loaded
    rw [loaded]

theorem size_withProgram (emulator : Emulator) (words : List Word) :
    (emulator.withProgram words).ram.size = emulator.ram.size := by
  rw [withProgram, Ram.size_writeFrom, Ram.size_ofSize]

theorem index_elementPlace {base : Address} {number : Nat}
    (inside : base.index + number ≤ Address.maxIndex) :
    (elementPlace base number).index = base.index + number := by
  rw [elementPlace, Address.add_natCast, if_pos inside]
  exact Address.index_ofNat inside

theorem hasRoom_iff (ram : Ram) (base : Address) (length : Nat) :
    hasRoom ram base length = true ↔ ArrayFits ram.size base.index length := by
  have based := base.index_le_maxIndex
  have highest : Ram.maxAddress.toNat = 0x1000000 := rfl
  cases length with
  | zero => exact ⟨fun _ => ⟨based, .inl rfl⟩, fun _ => rfl⟩
  | succ before =>
      have last : base.add ((before + 1 : Nat) - 1) = base.add before := by
        congr 1
        omega
      simp only [hasRoom, last, Address.add_natCast, Nat.succ_ne_zero, decide_false, Bool.false_or]
      by_cases inside : base.index + before ≤ Address.maxIndex
      · simp only [if_pos inside, Bool.and_eq_true, decide_eq_true_eq, UInt32.le_iff_toNat_le,
          Address.index_ofNat inside, Address.toNat_ofNat inside]
        refine ⟨fun room => ⟨based, .inr room⟩, fun fits => ?_⟩
        have room := fits.room
        omega
      · rw [if_neg inside]
        refine ⟨fun room => (Bool.false_ne_true room).elim, fun fits => ?_⟩
        have room := fits.room
        unfold Address.maxIndex at inside
        omega

/-- The elements of an array that fits are all written. -/
theorem writeAll_elementPlace {ram : Ram} {base : Nat} {words : List Word}
    (fits : ArrayFits ram.size base words.length) :
    ram.writeAll (elementPlace (.ofNat base)) 0 words = (ram.writeFrom base words, none) := by
  have highest : Ram.maxAddress.toNat = 0x1000000 := rfl
  have indexEq := Address.index_ofNat fits.based
  have room := fits.room
  apply Ram.writeAll_eq
  · intro offset inside
    rw [index_elementPlace, indexEq, Nat.zero_add]
    rw [indexEq]
    unfold Address.maxIndex
    omega
  · cases words with
    | nil => exact .inl rfl
    | cons word words =>
        right
        rw [List.length_cons] at room ⊢
        omega

theorem loadArray_of_fits {emulator : Emulator} {image : List UInt8} {elements : List Int32}
    (fits : emulator.Fits image)
    (room : ArrayFits emulator.ram.size (image.length / 4 + arrayGap) elements.length) :
    emulator.loadArray image elements =
      ⟨emulator.withArray (Image.toWords image) (image.length / 4 + arrayGap) elements,
        [.loaded (image.length / 4)], none⟩ := by
  have size := size_withProgram emulator (Image.toWords image)
  have length : (elements.map Int32.toUInt32).length = elements.length := List.length_map _
  have roomy : hasRoom (emulator.withProgram (Image.toWords image)).ram
      (.ofNat (image.length / 4 + arrayGap)) elements.length = true := by
    rw [hasRoom_iff, size, Address.index_ofNat room.based]
    exact room
  rw [← size, ← length] at room
  have written := writeAll_elementPlace room
  simp only [loadArray, load_of_fits fits, Address.ofIndex_natCast, if_pos room.based, roomy,
    if_true]
  unfold setArguments
  simp only [written]
  rfl

theorem loadArray_of_not_fits {emulator : Emulator} {image : List UInt8} {elements : List Int32}
    (fits : emulator.Fits image)
    (noRoom : ¬ ArrayFits emulator.ram.size (image.length / 4 + arrayGap) elements.length) :
    emulator.loadArray image elements =
      ⟨emulator.withProgram (Image.toWords image), [.loaded (image.length / 4)],
        some .arrayRange⟩ := by
  by_cases based : image.length / 4 + arrayGap ≤ Address.maxIndex
  · have narrow : ¬ hasRoom (emulator.withProgram (Image.toWords image)).ram
        (.ofNat (image.length / 4 + arrayGap)) elements.length = true := by
      rw [hasRoom_iff, size_withProgram, Address.index_ofNat based]
      exact noRoom
    simp only [loadArray, load_of_fits fits, Address.ofIndex_natCast, if_pos based, if_neg narrow]
  · simp only [loadArray, load_of_fits fits, Address.ofIndex_natCast, if_neg based]

theorem fits_of_loadArray {emulator : Emulator} {image : List UInt8} {elements : List Int32}
    (succeeds : (emulator.loadArray image elements).error = none) :
    emulator.Fits image ∧
      ArrayFits emulator.ram.size (image.length / 4 + arrayGap) elements.length := by
  have fits : emulator.Fits image := by
    apply fits_of_load
    unfold loadArray at succeeds
    split at succeeds
    · cases succeeds
    · rename_i loaded
      rw [loaded]
  refine ⟨fits, Classical.byContradiction fun noRoom => ?_⟩
  rw [loadArray_of_not_fits fits noRoom] at succeeds
  cases succeeds

theorem read_withProgram {emulator : Emulator} {words : List Word} {address : Address}
    {word : Word} (found : words[address.index]? = some word)
    (inside : address.index < emulator.ram.size) :
    (emulator.withProgram words).ram.read address = .ok word := by
  apply Ram.read_writeFrom found (Nat.zero_add _).symm
  rw [Ram.size_ofSize]
  exact inside

theorem read_withArray {emulator : Emulator} {words : List Word} {base : Nat}
    {elements : List Int32} {address : Address} {word : Word}
    (found : words[address.index]? = some word) (inside : address.index < emulator.ram.size)
    (before : address.index < base) :
    (emulator.withArray words base elements).ram.read address = .ok word := by
  rw [← read_withProgram found inside]
  exact Ram.read_writeFrom_of_lt before _

theorem read_withArray_element {emulator : Emulator} {words : List Word} {base offset : Nat}
    {elements : List Int32} {element : Int32} {address : Address}
    (found : elements[offset]? = some element) (here : address.index = base + offset)
    (inside : address.index < emulator.ram.size) :
    (emulator.withArray words base elements).ram.read address = .ok element.toUInt32 := by
  have listed : (elements.map Int32.toUInt32)[offset]? = some element.toUInt32 := by
    rw [List.getElem?_map, found, Option.map_some]
  apply Ram.read_writeFrom listed here
  rw [← size_withProgram emulator words] at inside
  exact inside

theorem read_load {emulator : Emulator} {words : List Word}
    (succeeds : (emulator.load (Image.ofWords words)).error = none) {address : Address}
    {word : Word} (found : words[address.index]? = some word) :
    (emulator.load (Image.ofWords words)).emulator.ram.read address = .ok word := by
  have fits := fits_of_load succeeds
  have length := Image.length_ofWords words
  have inside : address.index < words.length := (List.getElem?_eq_some_iff.mp found).1
  have room := fits.room
  rw [load_of_fits fits, Image.toWords_ofWords]
  exact read_withProgram found (by omega)

end Emulator
end ReversibleMips
