import ReversibleMips.Emulator.Basic

/-!
# Loading programs

A program is an image of big-endian words that goes to the start of memory.  It
finds a return address and a stack in its registers, and its arguments are either
two integers in registers or an array behind the program.
-/

namespace ReversibleMips
namespace Image

def word (first second third fourth : UInt8) : Word :=
  UInt32.ofNat
    (first.toNat * 0x1000000 + second.toNat * 0x10000 + third.toNat * 0x100 + fourth.toNat)

/-- The words of an image.  Bytes that do not fill a word are left out. -/
def toWords : List UInt8 → List Word
  | first :: second :: third :: fourth :: rest =>
      word first second third fourth :: toWords rest
  | _ => []

def bytes (word : Word) : List UInt8 :=
  [UInt8.ofNat (word.toNat / 0x1000000), UInt8.ofNat (word.toNat / 0x10000),
    UInt8.ofNat (word.toNat / 0x100), UInt8.ofNat word.toNat]

def ofWords (words : List Word) : List UInt8 := words.flatMap bytes

theorem length_ofWords (words : List Word) : (ofWords words).length = 4 * words.length := by
  induction words with
  | nil => rfl
  | cons first rest ih =>
      simp only [ofWords, List.flatMap_cons, List.length_append, List.length_cons] at ih ⊢
      simp only [ih, bytes, List.length_cons, List.length_nil]
      omega

theorem length_toWords (image : List UInt8) : (toWords image).length = image.length / 4 := by
  fun_induction toWords image with
  | case1 first second third fourth rest ih =>
      simp only [List.length_cons, ih]
      omega
  | case2 image short =>
      rcases image with _ | ⟨first, _ | ⟨second, _ | ⟨third, _ | ⟨fourth, rest⟩⟩⟩⟩
      · simp
      · simp
      · simp
      · simp
      · exact absurd rfl (short first second third fourth rest)

@[simp]
theorem toWords_ofWords (words : List Word) : toWords (ofWords words) = words := by
  induction words with
  | nil => rfl
  | cons first rest ih =>
      have whole :
          word (UInt8.ofNat (first.toNat / 0x1000000)) (UInt8.ofNat (first.toNat / 0x10000))
            (UInt8.ofNat (first.toNat / 0x100)) (UInt8.ofNat first.toNat) = first := by
        apply UInt32.toNat_inj.mp
        have bounded := first.toNat_lt
        simp only [word, UInt32.toNat_ofNat', UInt8.toNat_ofNat']
        omega
      change word _ _ _ _ :: toWords (ofWords rest) = first :: rest
      rw [whole, ih]

end Image

namespace Emulator

/-- The number of words between a program and its array. -/
def arrayGap : Nat := 8

def firstArgument : Register := ⟨1, by decide⟩

def secondArgument : Register := ⟨2, by decide⟩

def wordPlace (number : Nat) : Address :=
  (Address.ofIndex number).toOption.getD .zero

/-- The address a number of words behind another, or the same address if there is none. -/
def elementPlace (base : Address) (number : Nat) : Address :=
  (base.add number).toOption.getD base

/-- Load the image of a program.  An image that does not fit changes nothing. -/
def load (emulator : Emulator) (image : List UInt8) : Outcome :=
  let size := image.length
  if size % 4 ≠ 0 ∨ 0xffffffff < size then
    ⟨emulator, [], some (.programSize size)⟩
  else if emulator.ram.size < size / 4 then
    ⟨emulator, [], some (.programRange (size / 4))⟩
  else
    let blank := emulator.reset
    match blank.ram.writeAll wordPlace 0 (Image.toWords image) with
    | (ram, some error) => ⟨{ blank with ram := ram }, [], some (.memory error)⟩
    | (ram, none) =>
        let registers :=
          (blank.registers.write .link Machine.returnAddress).write .stack Ram.maxAddress
        ⟨{ blank with registers := registers, ram := ram }, [.loaded (size / 4)], none⟩

def setArguments (emulator : Emulator) (first second : Word) : Emulator :=
  { emulator with
    registers :=
      (emulator.registers.write firstArgument first).write secondArgument second }

def loadTwoInts (emulator : Emulator) (image : List UInt8) (first second : Int32) : Outcome :=
  match emulator.load image with
  | ⟨emulator, events, some error⟩ => ⟨emulator, events, some error⟩
  | ⟨emulator, events, none⟩ =>
      ⟨emulator.setArguments first.toUInt32 second.toUInt32, events, none⟩

/-- Whether the last element of an array has an address that is not above the stack and that
memory has a word for. -/
def hasRoom (ram : Ram) (base : Address) (length : Nat) : Bool :=
  length = 0 ||
    match base.add (length - 1) with
    | .error _ => false
    | .ok last => last.value ≤ Ram.maxAddress && last.index < ram.size

/-- Load a program that takes an array of integers, which goes to memory some
words behind the program.  An array that does not fit leaves the program loaded
without arguments. -/
def loadArray (emulator : Emulator) (image : List UInt8) (elements : List Int32) : Outcome :=
  match emulator.load image with
  | ⟨emulator, events, some error⟩ => ⟨emulator, events, some error⟩
  | ⟨emulator, events, none⟩ =>
      match Address.ofIndex (image.length / 4 + arrayGap : Nat) with
      | .error _ => ⟨emulator, events, some .arrayRange⟩
      | .ok base =>
          if hasRoom emulator.ram base elements.length then
            let called := emulator.setArguments base.value (UInt32.ofNat elements.length)
            let (ram, error) :=
              called.ram.writeAll (elementPlace base) 0 (elements.map Int32.toUInt32)
            ⟨{ called with ram := ram }, events, error.map .memory⟩
          else
            ⟨emulator, events, some .arrayRange⟩

end Emulator
end ReversibleMips
