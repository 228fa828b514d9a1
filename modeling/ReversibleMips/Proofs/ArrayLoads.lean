import ReversibleMips.Proofs.CleanLoads

/-!
# Loading arrays

The place of an array is known before anything of it is written, and so is its end.  If the
last element has a place in the address space, below the stack and in memory, then all elements
have, and the array is written to the end.  Otherwise the program is loaded as if there was no
array.
-/

namespace ReversibleMips
namespace Emulator

/-- An emulator that a program and an array have been loaded into, beside the emulator that only
the program has been loaded into. -/
structure Furnished (image : List UInt8) (elements : List Int32) (loaded emulator : Emulator) :
    Prop where
  place : (emulator.registers.read firstArgument).toNat = 4 * (image.length / 4 + 8)
  length : (emulator.registers.read secondArgument).toNat = elements.length
  registers : ∀ register, register ≠ firstArgument → register ≠ secondArgument →
    emulator.registers.read register = loaded.registers.read register
  sized : emulator.ram.size = loaded.ram.size
  program : ∀ index < image.length / 4, ∃ word, emulator.ram.words[index]? = some word ∧
    (image.drop (4 * index)).take 4 = Image.bytes word
  gap : ∀ index < emulator.ram.size, image.length / 4 ≤ index → index < image.length / 4 + 8 →
    emulator.ram.words[index]? = some 0
  array : ∀ offset element, elements[offset]? = some element →
    ∃ word, emulator.ram.words[image.length / 4 + 8 + offset]? = some word ∧
      (word.toNat : Int) = element.toInt % 0x100000000
  blank : ∀ index < emulator.ram.size, image.length / 4 + 8 + elements.length ≤ index →
    emulator.ram.words[index]? = some 0
  instructions : ∀ address : Address, address.index < emulator.ram.size →
    ∃ word, emulator.ram.read address = .ok word ∧
      emulator.ram.instruction address = .ok (.decode word address)
  pc : emulator.pc = loaded.pc
  journal : emulator.journal = loaded.journal
  tape : emulator.tape = loaded.tape

theorem read_setArguments (emulator : Emulator) (first second : Word) (register : Register) :
    (emulator.setArguments first second).registers.read register =
      if register = secondArgument then second
      else if register = firstArgument then first
      else emulator.registers.read register := by
  have firstNotZero : firstArgument ≠ Register.zero := by decide
  have secondNotZero : secondArgument ≠ Register.zero := by decide
  simp only [setArguments, Registers.read_write, ne_eq, firstNotZero, secondNotZero,
    not_false_eq_true, and_true]

theorem getElem?_withArray (emulator : Emulator) (words : List Word) (base : Nat)
    (elements : List Int32) (index : Nat) :
    (emulator.withArray words base elements).ram.words[index]? =
      if index < emulator.ram.size ∧ base ≤ index ∧ index < base + elements.length then
        (elements.map Int32.toUInt32)[index - base]?
      else
        (emulator.withProgram words).ram.words[index]? := by
  have written := Ram.getElem?_writeFrom (emulator.withProgram words).ram base
    (elements.map Int32.toUInt32) index
  rw [size_withProgram, List.length_map] at written
  exact written

theorem coherent_withArray (emulator : Emulator) (words : List Word) (base : Nat)
    (elements : List Int32) : (emulator.withArray words base elements).ram.Coherent := by
  have program : (emulator.withProgram words).ram.Coherent :=
    (Ram.written_writeFrom _ 0 words).coherent (Ram.coherent_ofSize _)
  exact (Ram.written_writeFrom _ base _).coherent program

theorem size_withArray (emulator : Emulator) (words : List Word) (base : Nat)
    (elements : List Int32) :
    (emulator.withArray words base elements).ram.size = emulator.ram.size :=
  (Ram.size_writeFrom _ _ _).trans (size_withProgram emulator words)

theorem furnished_withArray {emulator : Emulator} {image : List UInt8} {elements : List Int32}
    (fits : emulator.Fits image)
    (fitting : ArrayFits emulator.ram.size (image.length / 4 + arrayGap) elements.length) :
    Furnished image elements (emulator.withProgram (Image.toWords image))
      (emulator.withArray (Image.toWords image) (image.length / 4 + arrayGap) elements) := by
  have gapEq : arrayGap = 8 := rfl
  have highest : Ram.maxAddress.toNat = 0x1000000 := rfl
  obtain ⟨based, room⟩ := fitting
  rw [highest, gapEq] at room
  have clean := clean_withProgram fits
  have size := size_withArray emulator (Image.toWords image) (image.length / 4 + arrayGap) elements
  have inside : elements.length ≠ 0 →
      image.length / 4 + 8 + elements.length ≤ emulator.ram.size := by omega
  have outside (index : Nat) (apart : index < image.length / 4 + 8 ∨
      image.length / 4 + 8 + elements.length ≤ index) :
      (emulator.withArray (Image.toWords image) (image.length / 4 + arrayGap)
          elements).ram.words[index]? =
        (emulator.withProgram (Image.toWords image)).ram.words[index]? := by
    rw [getElem?_withArray, if_neg (by rw [gapEq]; omega)]
  constructor
  case place =>
    change ((setArguments _ _ _).registers.read firstArgument).toNat = _
    rw [read_setArguments, if_neg (by decide), if_pos rfl]
    exact Address.toNat_ofNat based
  case length =>
    change ((setArguments _ _ _).registers.read secondArgument).toNat = _
    rw [read_setArguments, if_pos rfl, UInt32.toNat_ofNat', Nat.mod_eq_of_lt]
    omega
  case registers =>
    intro register notFirst notSecond
    change (setArguments _ _ _).registers.read register = _
    rw [read_setArguments, if_neg notSecond, if_neg notFirst]
  case sized => rw [size, size_withProgram]
  case program =>
    intro index before
    rw [outside index (.inl (by omega))]
    exact clean.program index before
  case gap =>
    intro index within behind before
    rw [size] at within
    rw [outside index (.inl before)]
    exact clean.blank index within behind
  case array =>
    intro offset element found
    have listed : offset < elements.length := (List.getElem?_eq_some_iff.mp found).1
    refine ⟨element.toUInt32, ?_, Word.toNat_toUInt32 element⟩
    rw [getElem?_withArray, gapEq, if_pos (by omega), Nat.add_sub_cancel_left, List.getElem?_map,
      found, Option.map_some]
  case blank =>
    intro index within behind
    rw [size] at within
    rw [outside index (.inr behind)]
    exact clean.blank index within (by omega)
  case instructions =>
    intro address within
    exact (coherent_withArray _ _ _ _).exists_instruction within
  case pc => rfl
  case journal => rfl
  case tape => rfl

/-- An array is loaded exactly or not at all.  Behind a program that can be loaded there is no
room for it exactly if its place is outside the address space, or if there is an element and the
last one would come above the stack or behind the end of memory.  Then the program is loaded
without it.  Otherwise every element is in its place, the registers tell where and how many
they are, and all else is as the program alone would find it. -/
theorem array_exact_or_absent (emulator : Emulator) (image : List UInt8) (elements : List Int32)
    (accepted : (emulator.load image).error = none) :
    let loaded := (emulator.load image).emulator
    let loading := emulator.loadArray image elements
    let base := image.length / 4 + 8
    let last := base + elements.length - 1
    (loading.error ≠ none ↔
      0x3fffffff < base ∨
        (0 < elements.length ∧ (Ram.maxAddress.toNat < 4 * last ∨ emulator.ram.size ≤ last))) ∧
    (loading.error ≠ none →
      loading.error = some .arrayRange ∧ loading.emulator = loaded ∧
        loaded.registers.read firstArgument = 0 ∧ loaded.registers.read secondArgument = 0) ∧
    (loading.error = none → Furnished image elements loaded loading.emulator) := by
  intro loaded loading base last
  have fits : emulator.Fits image := fits_of_load accepted
  have loadedEq : loaded = emulator.withProgram (Image.toWords image) :=
    congrArg Outcome.emulator (load_of_fits fits)
  by_cases room : ArrayFits emulator.ram.size base elements.length
  · have loadingEq : loading = _ := loadArray_of_fits fits room
    have succeeds : loading.error = none := by rw [loadingEq]
    refine ⟨?_, fun fails => absurd succeeds fails, fun _ => ?_⟩
    · have based : base ≤ 0x3fffffff := room.based
      have within := room.room
      refine ⟨fun fails => absurd succeeds fails, fun far => ?_⟩
      omega
    · rw [loadingEq, loadedEq]
      exact furnished_withArray fits room
  · have loadingEq : loading = _ := loadArray_of_not_fits fits room
    have fails : loading.error = some .arrayRange := by rw [loadingEq]
    have clean := clean_withProgram fits
    refine ⟨?_, fun _ => ⟨fails, ?_, ?_, ?_⟩, fun succeeds => ?_⟩
    · refine ⟨fun _ => ?_, fun _ => by rw [fails]; exact Option.some_ne_none _⟩
      apply Classical.byContradiction
      intro near
      apply room
      have based : base ≤ 0x3fffffff := by omega
      exact ⟨based, by omega⟩
    · rw [loadingEq, loadedEq]
    · rw [loadedEq]
      exact clean.registers firstArgument (by decide) (by decide)
    · rw [loadedEq]
      exact clean.registers secondArgument (by decide) (by decide)
    · rw [fails] at succeeds
      cases succeeds

/-- In a memory of twelve words there is room for three elements behind a program of one word,
but not for four. -/
theorem array_exact_or_absent_twelveWords :
    ((ofSize 12).load [0x03, 0xe0, 0x00, 0x08]).error = none ∧
      ((ofSize 12).loadArray [0x03, 0xe0, 0x00, 0x08] [1, -4, 7]).error = none ∧
      Furnished [0x03, 0xe0, 0x00, 0x08] [1, -4, 7]
        ((ofSize 12).load [0x03, 0xe0, 0x00, 0x08]).emulator
        ((ofSize 12).loadArray [0x03, 0xe0, 0x00, 0x08] [1, -4, 7]).emulator ∧
      ((ofSize 12).loadArray [0x03, 0xe0, 0x00, 0x08] [1, -4, 7, 2]).error = some .arrayRange ∧
      ((ofSize 12).loadArray [0x03, 0xe0, 0x00, 0x08] [1, -4, 7, 2]).emulator =
        ((ofSize 12).load [0x03, 0xe0, 0x00, 0x08]).emulator := by
  have accepted : ((ofSize 12).load [0x03, 0xe0, 0x00, 0x08]).error = none := by decide
  obtain ⟨-, -, furnished⟩ := array_exact_or_absent (ofSize 12) _ [1, -4, 7] accepted
  obtain ⟨failing, absent, -⟩ := array_exact_or_absent (ofSize 12) _ [1, -4, 7, 2] accepted
  have succeeds : ((ofSize 12).loadArray [0x03, 0xe0, 0x00, 0x08] [1, -4, 7]).error = none := by
    decide
  obtain ⟨error, unchanged, -⟩ := absent (failing.mpr (by decide))
  exact ⟨accepted, succeeds, furnished succeeds, error, unchanged⟩

end Emulator
end ReversibleMips
