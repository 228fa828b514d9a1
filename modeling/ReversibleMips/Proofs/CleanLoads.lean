import ReversibleMips.Program
import ReversibleMips.Proofs.Reachability

/-!
# Clean loads

A load looks at the size of its image before it touches anything.  An image of a wrong size
leaves the emulator as it is.  Any other is loaded to the end, and nothing of what the emulator
did before is left: only the size of memory and what the tape is connected to stay.
-/

namespace ReversibleMips

namespace Image

theorem bytes_word (first second third fourth : UInt8) :
    bytes (word first second third fourth) = [first, second, third, fourth] := by
  have firstBound := first.toNat_lt
  have secondBound := second.toNat_lt
  have thirdBound := third.toNat_lt
  have fourthBound := fourth.toNat_lt
  have whole : (word first second third fourth).toNat =
      first.toNat * 0x1000000 + second.toNat * 0x10000 + third.toNat * 0x100 + fourth.toNat := by
    rw [word, UInt32.toNat_ofNat', Nat.mod_eq_of_lt]
    omega
  simp only [bytes, whole, List.cons.injEq, and_true]
  refine ⟨?_, ?_, ?_, ?_⟩
  all_goals
    apply UInt8.toNat_inj.mp
    rw [UInt8.toNat_ofNat']
    omega

/-- The bytes of an image are those of its words, the most significant first. -/
theorem bytes_of_getElem?_toWords {image : List UInt8} {index : Nat} {word : Word}
    (found : (toWords image)[index]? = some word) :
    (image.drop (4 * index)).take 4 = bytes word := by
  fun_induction toWords image generalizing index with
  | case1 first second third fourth rest ih =>
      cases index with
      | zero =>
          have here : Image.word first second third fourth = word := by simpa using found
          rw [← here, bytes_word]
          rfl
      | succ index =>
          rw [Nat.mul_succ]
          exact ih (by simpa using found)
  | case2 image short => simp at found

end Image

namespace Ram

theorem getElem?_ofSize (size index : Nat) :
    (ofSize size).words[index]? = if index < size then some 0 else none := by
  rw [ofSize, Array.getElem?_replicate]

end Ram

namespace Emulator

/-- An emulator as a load leaves it, whatever it was before. -/
structure Clean (image : List UInt8) (size : Nat) (emulator : Emulator) : Prop where
  sized : emulator.ram.size = size
  program : ∀ index < image.length / 4, ∃ word, emulator.ram.words[index]? = some word ∧
    (image.drop (4 * index)).take 4 = Image.bytes word
  blank : ∀ index < size, image.length / 4 ≤ index → emulator.ram.words[index]? = some 0
  instructions : ∀ address : Address, address.index < size →
    ∃ word, emulator.ram.read address = .ok word ∧
      emulator.ram.instruction address = .ok (.decode word address)
  link : emulator.registers.read .link = Machine.returnAddress
  stack : emulator.registers.read .stack = Ram.maxAddress
  registers : ∀ register, register ≠ .link → register ≠ .stack →
    emulator.registers.read register = 0
  pc : emulator.pc = .zero
  journal : emulator.journal = .empty
  bytesRead : emulator.tape.bytesRead = 0
  bytesWritten : emulator.tape.bytesWritten = 0

theorem getElem?_withProgram {emulator : Emulator} {words : List Word}
    (room : words.length ≤ emulator.ram.size) (index : Nat) :
    (emulator.withProgram words).ram.words[index]? =
      if index < words.length then words[index]?
      else if index < emulator.ram.size then some 0 else none := by
  rw [withProgram, Ram.getElem?_writeFrom, Ram.size_ofSize, Ram.getElem?_ofSize, Nat.sub_zero]
  by_cases inside : index < words.length
  · rw [if_pos (by omega), if_pos inside]
  · rw [if_neg (by omega), if_neg inside]

theorem clean_withProgram {emulator : Emulator} {image : List UInt8}
    (fits : emulator.Fits image) :
    Clean image emulator.ram.size (emulator.withProgram (Image.toWords image)) := by
  have length := Image.length_toWords image
  have room : (Image.toWords image).length ≤ emulator.ram.size := length ▸ fits.room
  have size := size_withProgram emulator (Image.toWords image)
  have coherent : (emulator.withProgram (Image.toWords image)).ram.Coherent :=
    (Ram.written_writeFrom _ 0 _).coherent (Ram.coherent_ofSize _)
  constructor
  case sized => exact size
  case program =>
    intro index inside
    have listed : index < (Image.toWords image).length := length ▸ inside
    refine ⟨(Image.toWords image)[index], ?_, ?_⟩
    · rw [getElem?_withProgram room, if_pos listed, List.getElem?_eq_getElem listed]
    · exact Image.bytes_of_getElem?_toWords (List.getElem?_eq_getElem listed)
  case blank =>
    intro index inside behind
    rw [getElem?_withProgram room, if_neg (by omega), if_pos inside]
  case instructions =>
    intro address inside
    rw [← size] at inside
    exact coherent.exists_instruction inside
  case link =>
    simp [withProgram, Registers.read_write, Register.zero, Register.link, Register.stack]
  case stack => simp [withProgram, Registers.read_write, Register.zero, Register.stack]
  case registers =>
    intro register notLink notStack
    simp [withProgram, Registers.read_write, notLink, notStack]
  case pc => rfl
  case journal => rfl
  case bytesRead => rfl
  case bytesWritten => rfl

theorem error_load (emulator : Emulator) (image : List UInt8) :
    (emulator.load image).error =
      if image.length % 4 ≠ 0 ∨ 0xffffffff < image.length then some (.programSize image.length)
      else if emulator.ram.size < image.length / 4 then some (.programRange (image.length / 4))
      else none := by
  rw [load_eq]
  split
  · rfl
  · split
    · rfl
    · rfl

/-- A load that fails changes nothing. -/
theorem load_of_error {emulator : Emulator} {image : List UInt8}
    (fails : (emulator.load image).error ≠ none) :
    (emulator.load image).emulator = emulator ∧ (emulator.load image).events = [] := by
  rw [load_eq] at fails ⊢
  split
  · exact ⟨rfl, rfl⟩
  · split
    · exact ⟨rfl, rfl⟩
    · rename_i whole room
      simp [whole, room] at fails

/-- Which error a load makes, by the size of the image. -/
theorem error_load_iff (emulator : Emulator) (image : List UInt8) :
    ((emulator.load image).error = some (.programSize image.length) ↔
      image.length % 4 ≠ 0 ∨ 0xffffffff < image.length) ∧
    ((emulator.load image).error = some (.programRange (image.length / 4)) ↔
      image.length % 4 = 0 ∧ image.length ≤ 0xffffffff ∧
        emulator.ram.size < image.length / 4) ∧
    ((emulator.load image).error = none ↔
      image.length % 4 = 0 ∧ image.length ≤ 0xffffffff ∧
        image.length / 4 ≤ emulator.ram.size) := by
  rw [error_load]
  by_cases wrong : image.length % 4 ≠ 0 ∨ 0xffffffff < image.length
  · rw [if_pos wrong]
    simp only [Option.some.injEq, reduceCtorEq, true_iff, false_iff]
    omega
  · rw [if_neg wrong]
    by_cases small : emulator.ram.size < image.length / 4
    · rw [if_pos small]
      simp only [Option.some.injEq, reduceCtorEq, true_iff, false_iff]
      omega
    · rw [if_neg small]
      simp only [reduceCtorEq, true_iff, false_iff]
      omega

/-- A load that succeeds gives the same emulator as on any other with a memory of the same size,
up to what their tapes are connected to. -/
theorem load_of_size {emulator other : Emulator} {image : List UInt8}
    (fits : emulator.Fits image) (sameSize : other.ram.size = emulator.ram.size) :
    (other.load image).error = none ∧
      (other.load image).emulator =
        { (emulator.load image).emulator with tape := other.tape.rewind } := by
  have otherFits : other.Fits image := ⟨fits.whole, fits.sized, sameSize ▸ fits.room⟩
  rw [load_of_fits fits, load_of_fits otherFits]
  refine ⟨rfl, ?_⟩
  simp only [withProgram, sameSize]

theorem length_image (program : Program) :
    program.image.length = 4 * program.opcodes.length := by
  rw [Program.image, Image.length_ofWords, List.length_map]

/-- A program that memory and the address space have room for is loaded, and each code has its
place. -/
theorem load_image (emulator : Emulator) {program : Program}
    (room : program.opcodes.length ≤ emulator.ram.size)
    (short : program.opcodes.length < 0x40000000) :
    (emulator.load program.image).error = none ∧
      ∀ (index : Nat) (opcode : Opcode), program.opcodes[index]? = some opcode →
        (emulator.load program.image).emulator.ram.words[index]? = some opcode.code := by
  have length := length_image program
  have fits : emulator.Fits program.image := by constructor <;> omega
  rw [load_of_fits fits, Program.image, Image.toWords_ofWords]
  refine ⟨rfl, fun index opcode found => ?_⟩
  have inside : index < program.opcodes.length := (List.getElem?_eq_some_iff.mp found).1
  rw [getElem?_withProgram (by simpa using room), if_pos (by simpa using inside),
    List.getElem?_map, found, Option.map_some]

/-- The image of a longer program is longer than an address can tell. -/
theorem load_long_image (emulator : Emulator) {program : Program}
    (long : 0x40000000 ≤ program.opcodes.length) :
    emulator.load program.image =
      ⟨emulator, [], some (.programSize (4 * program.opcodes.length))⟩ := by
  have length := length_image program
  rw [load_eq, if_pos (by omega), length]

/-- A load happens entirely or not at all, and forgets what was before.  It fails exactly if
the size of the image is not a number of words or more than an address can tell, or if memory
is too small, and then nothing has changed.  Otherwise what it leaves is determined by the
image and the size of memory alone, but for what the tape is connected to.  Each code of a
program gets to its place if memory and the address space have room for them all. -/
theorem load_entire_or_nothing (emulator : Emulator) (image : List UInt8) :
    let loading := emulator.load image
    (loading.error = some (.programSize image.length) ↔
      image.length % 4 ≠ 0 ∨ 0xffffffff < image.length) ∧
    (loading.error = some (.programRange (image.length / 4)) ↔
      image.length % 4 = 0 ∧ image.length ≤ 0xffffffff ∧
        emulator.ram.size < image.length / 4) ∧
    (loading.error = none ↔
      image.length % 4 = 0 ∧ image.length ≤ 0xffffffff ∧
        image.length / 4 ≤ emulator.ram.size) ∧
    (loading.error ≠ none → loading.emulator = emulator ∧ loading.events = []) ∧
    (loading.error = none →
      Clean image emulator.ram.size loading.emulator ∧
      loading.emulator.tape = emulator.tape.rewind ∧
      ∀ other : Emulator, other.ram.size = emulator.ram.size →
        (other.load image).error = none ∧
          (other.load image).emulator = { loading.emulator with tape := other.tape.rewind }) ∧
    (∀ program : Program, program.opcodes.length ≤ emulator.ram.size →
      (program.opcodes.length < 0x40000000 →
        (emulator.load program.image).error = none ∧
        ∀ (index : Nat) (opcode : Opcode), program.opcodes[index]? = some opcode →
          (emulator.load program.image).emulator.ram.words[index]? = some opcode.code) ∧
      (0x40000000 ≤ program.opcodes.length →
        emulator.load program.image =
          ⟨emulator, [], some (.programSize (4 * program.opcodes.length))⟩)) := by
  intro loading
  obtain ⟨wrongSize, tooLong, succeeding⟩ := error_load_iff emulator image
  refine ⟨wrongSize, tooLong, succeeding, load_of_error, fun succeeds => ?_,
    fun program room => ⟨load_image emulator room, load_long_image emulator⟩⟩
  have fits : emulator.Fits image := fits_of_load succeeds
  have loadedEq : loading.emulator = emulator.withProgram (Image.toWords image) :=
    congrArg Outcome.emulator (load_of_fits fits)
  refine ⟨?_, ?_, fun other sameSize => load_of_size fits sameSize⟩
  · rw [loadedEq]
    exact clean_withProgram fits
  · rw [loadedEq]
    rfl

/-- An emulator with two words of memory that has run its only instruction, `lis $3`. -/
def used : Emulator :=
  ((ofSize 2).load [0x00, 0x00, 0x18, 0x14, 0x00, 0x00, 0x00, 0x07]).emulator.step.emulator

theorem load_entire_or_nothing_used :
    used.history = 1 ∧ used.registers.read 3 = 7 ∧
      (used.load [0x01, 0x02, 0x03]).error = some (.programSize 3) ∧
      (used.load [0x01, 0x02, 0x03]).emulator = used ∧
      (used.load (List.replicate 12 0xff)).error = some (.programRange 3) ∧
      (used.load [0x80, 0x00, 0x00, 0x01]).error = none ∧
      Clean [0x80, 0x00, 0x00, 0x01] used.ram.size
        (used.load [0x80, 0x00, 0x00, 0x01]).emulator := by
  obtain ⟨wrongSize, -, -, unchanged, -⟩ := load_entire_or_nothing used [0x01, 0x02, 0x03]
  obtain ⟨-, tooLong, -⟩ := load_entire_or_nothing used (List.replicate 12 0xff)
  obtain ⟨-, -, succeeding, -, clean, -⟩ := load_entire_or_nothing used [0x80, 0x00, 0x00, 0x01]
  have fails := wrongSize.mpr (by decide)
  have loads := succeeding.mpr (by decide)
  refine ⟨by decide, by decide, fails, ?_, tooLong.mpr (by decide), loads, (clean loads).1⟩
  exact (unchanged (by rw [fails]; exact Option.some_ne_none _)).1

def repeatedWord (length : Nat) : Program :=
  ⟨List.replicate length ⟨1, 0, [Glyphs.ofString ".word"], 0x20, none⟩⟩

/-- Memory may have room for a program that is too long for the address space.  Nothing of it is
loaded. -/
theorem long_program_refused :
    (repeatedWord 0x40000000).opcodes.length ≤ (ofSize 0x40000000).ram.size ∧
      (repeatedWord 0x40000000).opcodes[0]?.map Opcode.code = some 0x20 ∧
      ((ofSize 0x40000000).load (repeatedWord 0x40000000).image).error =
        some (.programSize 0x100000000) ∧
      ((ofSize 0x40000000).load (repeatedWord 0x40000000).image).emulator.ram.words[0]? =
        some 0 := by
  have length : (repeatedWord 0x40000000).opcodes.length = 0x40000000 := List.length_replicate
  have size : (ofSize 0x40000000).ram.size = 0x40000000 := Ram.size_ofSize _
  have refused := load_long_image (ofSize 0x40000000) (Nat.le_of_eq length.symm)
  refine ⟨Nat.le_of_eq (length.trans size.symm), ?_, ?_, ?_⟩
  · rw [repeatedWord, List.getElem?_replicate, if_pos (by decide), Option.map_some]
  · rw [refused, length]
  · rw [refused]
    exact (Ram.getElem?_ofSize 0x40000000 0).trans (if_pos (by decide))

end Emulator
end ReversibleMips
