import ReversibleMips.Proofs.Reachability

/-!
# The instructions that memory keeps

Memory is written by programs and from outside of them, cleared, filled by loads, and put
back when steps are undone.  Whatever is asked for, and whether it succeeds or fails,
memory comes from blank memory of its size by writes alone.  So it never keeps an
instruction other than the one that its word decodes to.
-/

namespace ReversibleMips
namespace Emulator

/-- A load either leaves memory alone or starts from blank memory. -/
theorem written_load (emulator : Emulator) (image : List UInt8) :
    (emulator.load image).emulator.ram = emulator.ram ∨
      (Ram.ofSize emulator.ram.size).Written (emulator.load image).emulator.ram := by
  rw [load_eq]
  split
  · exact .inl rfl
  · split
    · exact .inl rfl
    · exact .inr (Ram.written_writeFrom _ 0 _)

theorem ram_loadTwoInts (emulator : Emulator) (image : List UInt8) (first second : Int32) :
    (emulator.loadTwoInts image first second).emulator.ram =
      (emulator.load image).emulator.ram := by
  unfold loadTwoInts
  split
  · rename_i failed
    rw [failed]
  · rename_i loaded
    rw [loaded]
    rfl

/-- An array is written to the memory that the program was loaded into. -/
theorem written_loadArray (emulator : Emulator) (image : List UInt8)
    (elements : List Int32) :
    (emulator.load image).emulator.ram.Written
      (emulator.loadArray image elements).emulator.ram := by
  by_cases fails : (emulator.load image).error = none
  · have fits := fits_of_load fails
    rw [load_of_fits fits]
    by_cases room : ArrayFits emulator.ram.size (image.length / 4 + arrayGap) elements.length
    · rw [loadArray_of_fits fits room]
      exact Ram.written_writeFrom _ _ _
    · rw [loadArray_of_not_fits fits room]
      exact .same
  · unfold loadArray
    split
    · rename_i failed
      rw [failed]
      exact .same
    · rename_i loaded
      rw [loaded] at fails
      exact absurd rfl fails

section Requests

variable {size : Nat} {emulator : Emulator}

theorem ofSize_written_load (written : (Ram.ofSize size).Written emulator.ram)
    (image : List UInt8) :
    (Ram.ofSize size).Written (emulator.load image).emulator.ram := by
  rcases written_load emulator image with unchanged | fromBlank
  · rw [unchanged]
    exact written
  · rwa [written.size_eq, Ram.size_ofSize] at fromBlank

/-- One request leaves memory as blank memory with some words written. -/
theorem ofSize_written_ask (written : (Ram.ofSize size).Written emulator.ram)
    (request : Request) : (Ram.ofSize size).Written (emulator.ask request).emulator.ram := by
  have cleared : emulator.ram.reset = Ram.ofSize size := by
    rw [Ram.reset, written.size_eq, Ram.size_ofSize]
  cases request with
  | write address value =>
      simp only [ask, Ram.write]
      split
      · exact written
      · rename_i accepted
        split at accepted
        · cases accepted
          exact written.setIndex address.index value
        · cases accepted
  | clear =>
      simp only [ask, cleared]
      exact .same
  | reset =>
      simp only [ask, reset, cleared]
      exact .same
  | load image => exact ofSize_written_load written image
  | loadTwoInts image first second =>
      simp only [ask, ram_loadTwoInts]
      exact ofSize_written_load written image
  | loadArray image elements =>
      exact (ofSize_written_load written image).trans
        (written_loadArray emulator image elements)
  | move move =>
      cases move with
      | step => exact written.trans (written_step emulator)
      | back count => exact written.trans (written_stepBack emulator count)
      | exchange change => exact written
  | replace other => exact written

theorem ofSize_written_askAll (written : (Ram.ofSize size).Written emulator.ram)
    (requests : List Request) : (Ram.ofSize size).Written (emulator.askAll requests).ram :=
  (@askAll_invariant (fun current => (Ram.ofSize size).Written current.ram) emulator requests
    written fun _ request _ earlier => ofSize_written_ask earlier request).2

end Requests

/-- Memory never keeps a stale instruction.  After any requests, reading a word, fetching it
as an instruction and showing it as a cell fail together, exactly beyond the size that
memory was made with; otherwise the instruction is the word decoded at its address, and the
cell shows the word. -/
theorem kept_instruction_current (start : Emulator) (size : Nat) (requests : List Request)
    (address : Address) :
    let ram := (askAll { start with ram := .ofSize size } requests).ram
    (size ≤ address.index →
      ram.read address = .error ⟨address⟩ ∧ ram.instruction address = .error ⟨address⟩ ∧
        ram.cell address = .error ⟨address⟩) ∧
    (address.index < size →
      ∃ word, ram.read address = .ok word ∧
        ram.instruction address = .ok (.decode word address) ∧
        ∃ cell, ram.cell address = .ok cell ∧ cell.word = word) := by
  intro ram
  have written : (Ram.ofSize size).Written ram :=
    @ofSize_written_askAll size { start with ram := .ofSize size } .same requests
  have sizeEq : ram.size = size := by rw [written.size_eq, Ram.size_ofSize]
  have fetched := (written.coherent (Ram.coherent_ofSize size)).instruction_eq address
  constructor
  · intro outside
    have missing : ram.read address = .error ⟨address⟩ :=
      (ram.read_eq_error_iff address ⟨address⟩).mpr ⟨by rwa [sizeEq], rfl⟩
    rw [missing] at fetched
    refine ⟨missing, fetched, ?_⟩
    rw [Ram.cell, fetched]
    rfl
  · intro inside
    cases found : ram.read address with
    | error error =>
        have outside := ((ram.read_eq_error_iff address error).mp found).1
        omega
    | ok word =>
        rw [found] at fetched
        refine ⟨word, rfl, fetched, ?_⟩
        rw [Ram.cell, fetched]
        exact ⟨_, rfl, Instruction.word_decode word address⟩

/-- A program that overwrites its first instruction is loaded and run.  From outside, a
word is written that is then cleared, and another is refused.  At last the step is undone. -/
def patchedFromOutside : List Request :=
  [.write (.ofNat 0) 0x20, .load [0xac, 0x1f, 0, 0, 3, 0xe0, 0, 9], .move .step,
    .write (.ofNat 2) 0x20, .write (.ofNat 2) 0, .write (.ofNat 3) 0x20,
    .move (.back 1)]

theorem kept_instruction_current_patched :
    let ram := (askAll { ofSize 0 with ram := .ofSize 3 } patchedFromOutside).ram
    ram.words = #[0xac1f0000, 0x03e00009, 0] ∧
      (∃ word, ram.read (.ofNat 0) = .ok word ∧
        ram.instruction (.ofNat 0) = .ok (.decode word (.ofNat 0)) ∧
        ∃ cell, ram.cell (.ofNat 0) = .ok cell ∧ cell.word = word) ∧
      ram.instruction (.ofNat 3) = .error ⟨.ofNat 3⟩ := by
  have first := kept_instruction_current (ofSize 0) 3 patchedFromOutside (.ofNat 0)
  have outside := kept_instruction_current (ofSize 0) 3 patchedFromOutside (.ofNat 3)
  refine ⟨by decide +kernel, first.2 (by decide), ?_⟩
  exact (outside.1 (by decide)).2.1

end Emulator
end ReversibleMips
