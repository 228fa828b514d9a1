import ReversibleMips.Proofs.KeptInstructions
import ReversibleMips.Proofs.Numerals

/-!
# Dumps of the machine

A dump shows the registers and the words of memory that are not zero.  Which words are shown is
read off the words, and what is shown of them off the instructions that are kept beside the
words, so a dump is right because memory is coherent.  A dump leaves out nothing but zeros and
tells the addresses apart, so it determines what it was made of.
-/

namespace ReversibleMips

namespace Text

theorem hex_injective {left right : Nat} (same : hex left = hex right) : left = right := by
  have sameDigits : digits 16 1 left = digits 16 1 right := by
    simpa [hex, ← String.toList_inj] using same
  have leftRead : readDigits 16 (max left right) 0 (digits 16 1 left) = .ok left :=
    readDigits_digits (by omega) (by omega) (Nat.le_max_left left right)
  have rightRead : readDigits 16 (max left right) 0 (digits 16 1 right) = .ok right :=
    readDigits_digits (by omega) (by omega) (Nat.le_max_right left right)
  rw [sameDigits, rightRead] at leftRead
  exact (Except.ok.inj leftRead).symm

end Text

namespace Address

def tag (address : Address) : String := "M[" ++ address.hex ++ "]"

theorem tag_injective {left right : Address} (same : left.tag = right.tag) : left = right := by
  have sameHex : left.hex = right.hex := by
    simpa [tag, ← String.toList_inj] using same
  exact Address.ext (UInt32.toNat_inj.mp (Text.hex_injective sameHex))

end Address

namespace Cell

def contents (cell : Cell) : String × Word := (cell.tag, cell.word)

def ofWord (place : Address × Word) : Cell :=
  { tag := place.1.tag
    word := place.2
    details := (Instruction.decode place.2 place.1).text }

end Cell

namespace Ram

theorem read_of_getElem? {ram : Ram} {address : Address} {word : Word}
    (found : ram.words[address.index]? = some word) : ram.read address = .ok word := by
  obtain ⟨inside, isWord⟩ := Array.getElem?_eq_some_iff.mp found
  rw [read, dif_pos inside, isWord]

def nonzeroAt? (ram : Ram) (index : Nat) : Option (Address × Word) :=
  (ram.words[index]?.filter (· ≠ 0)).map fun word => (.ofNat index, word)

theorem nonzeroAt?_eq {ram : Ram} {index : Nat} (inside : index < ram.words.size) :
    ram.nonzeroAt? index =
      if ram.words[index] = 0 then none else some (.ofNat index, ram.words[index]) := by
  rw [nonzeroAt?, Array.getElem?_eq_getElem inside]
  by_cases isZero : ram.words[index] = 0
  · simp [isZero]
  · simp [isZero]

theorem nonzero_eq (ram : Ram) :
    ram.nonzero = (List.range ram.size).filterMap ram.nonzeroAt? := by
  have partly : ∀ (count : Nat) (inside : count ≤ ram.words.size) (found : List (Address × Word)),
      count.foldRev
        (fun index below found =>
          let word := ram.words[index]
          if word = 0 then found else (Address.ofNat index, word) :: found) found =
        (List.range count).filterMap ram.nonzeroAt? ++ found := by
    intro count inside found
    induction count generalizing found with
    | zero => rfl
    | succ count ih =>
        rw [Nat.foldRev_succ, ih (by omega), List.range_succ, List.filterMap_append,
          List.append_assoc]
        simp only [List.filterMap_cons, List.filterMap_nil, nonzeroAt?_eq inside]
        by_cases isZero : ram.words[count] = 0
        · simp [isZero]
        · simp [isZero]
  have whole := partly ram.words.size (Nat.le_refl _) []
  rwa [List.append_nil] at whole

/-- Memory whose words all have addresses of their own. -/
def Addressable (ram : Ram) : Prop := ram.size ≤ 0x40000000

section Nonzero

variable {ram : Ram} (addressable : ram.Addressable)
include addressable

theorem of_nonzeroAt? {index : Nat} (inside : index < ram.size) {place : Address × Word}
    (found : ram.nonzeroAt? index = some place) :
    place.1.index = index ∧ ram.words[index]? = some place.2 ∧ place.2 ≠ 0 := by
  rw [nonzeroAt?_eq inside] at found
  split at found
  · cases found
  · rename_i notZero
    cases found
    refine ⟨Address.index_ofNat ?_, Array.getElem?_eq_getElem inside, notZero⟩
    have small : ram.size ≤ 0x40000000 := addressable
    unfold Address.maxIndex
    omega

/-- All words that are not zero are shown, and no others. -/
theorem mem_nonzero_iff (address : Address) (word : Word) :
    (address, word) ∈ ram.nonzero ↔ ram.read address = .ok word ∧ word ≠ 0 := by
  rw [nonzero_eq, List.mem_filterMap]
  constructor
  · rintro ⟨index, member, found⟩
    obtain ⟨indexEq, isWord, notZero⟩ := of_nonzeroAt? addressable (List.mem_range.mp member) found
    rw [← indexEq] at isWord
    exact ⟨read_of_getElem? isWord, notZero⟩
  · rintro ⟨read, notZero⟩
    refine ⟨address.index, List.mem_range.mpr (lt_size_of_read read), ?_⟩
    rw [nonzeroAt?, getElem?_of_read read]
    simp [notZero]

theorem pairwise_nonzero :
    ram.nonzero.Pairwise fun first second => first.1.value < second.1.value := by
  rw [nonzero_eq, List.pairwise_filterMap]
  apply List.Pairwise.imp_of_mem _ List.pairwise_lt_range
  intro index later member laterMember below place found laterPlace laterFound
  have indexEq := (of_nonzeroAt? addressable (List.mem_range.mp member) found).1
  have laterEq := (of_nonzeroAt? addressable (List.mem_range.mp laterMember) laterFound).1
  rw [UInt32.lt_iff_toNat_lt, ← Address.four_mul_index, ← Address.four_mul_index, indexEq, laterEq]
  omega

/-- The words that are not zero determine all words of a memory of a known size. -/
theorem words_eq_of_nonzero {other : Ram} (sameSize : ram.size = other.size)
    (same : ram.nonzero = other.nonzero) : ram.words = other.words := by
  have otherAddressable : other.Addressable := by
    rw [Addressable, ← sameSize]
    exact addressable
  apply Array.ext sameSize
  intro index inside otherInside
  have indexEq : (Address.ofNat index).index = index := by
    apply Address.index_ofNat
    have small : ram.words.size ≤ 0x40000000 := addressable
    unfold Address.maxIndex
    omega
  have read : ram.read (.ofNat index) = .ok ram.words[index] :=
    read_of_getElem? (by rw [indexEq, Array.getElem?_eq_getElem inside])
  have otherRead : other.read (.ofNat index) = .ok other.words[index] :=
    read_of_getElem? (by rw [indexEq, Array.getElem?_eq_getElem otherInside])
  have shown := mem_nonzero_iff addressable (.ofNat index)
  have otherShown := mem_nonzero_iff otherAddressable (.ofNat index)
  rw [← same] at otherShown
  by_cases isZero : ram.words[index] = 0
  · -- A word of the other memory that is not zero would be shown of this one.
    by_cases otherZero : other.words[index] = 0
    · rw [isZero, otherZero]
    · have member := (otherShown other.words[index]).mpr ⟨otherRead, otherZero⟩
      have found := ((shown other.words[index]).mp member).1
      exact Except.ok.inj (read.symm.trans found)
  · have member := (shown ram.words[index]).mpr ⟨read, isZero⟩
    have found := ((otherShown ram.words[index]).mp member).1
    exact (Except.ok.inj (otherRead.symm.trans found)).symm

end Nonzero

/-- In coherent memory the rendering of a word is what has to be shown of it. -/
theorem Coherent.cell_eq {ram : Ram} (coherent : ram.Coherent) {address : Address} {word : Word}
    (read : ram.read address = .ok word) : ram.cell address = .ok (.ofWord (address, word)) := by
  rw [cell, coherent.instruction_eq, read, Cell.ofWord]
  change (.ok ⟨_, (Instruction.decode word address).word, _⟩ : Except RamError Cell) = _
  rw [Instruction.word_decode]
  rfl

end Ram

namespace Emulator

section Cells

variable {emulator : Emulator} (coherent : emulator.ram.Coherent)
    (addressable : emulator.ram.Addressable)
include coherent addressable

theorem cells_eq :
    emulator.cells =
      (List.finRange 34).map emulator.registers.cell ++ emulator.ram.nonzero.map Cell.ofWord := by
  rw [cells, Registers.toList, List.map_map]
  refine congrArg (List.map emulator.registers.cell (List.finRange 34) ++ ·) ?_
  apply List.map_congr_left
  rintro ⟨address, word⟩ member
  have read := ((Ram.mem_nonzero_iff addressable address word).mp member).1
  simp only [coherent.cell_eq read, Except.toOption, Option.getD_some]

/-- The registers and the words that a dump is made of. -/
theorem contents_cells :
    emulator.cells.map Cell.contents =
      (List.finRange 34).map (fun register => (register.tag, emulator.registers.read register)) ++
        emulator.ram.nonzero.map fun place => (place.1.tag, place.2) := by
  rw [cells_eq coherent addressable, List.map_append, List.map_map, List.map_map]
  rfl

theorem eq_of_contents {other : Emulator} (otherCoherent : other.ram.Coherent)
    (sameSize : emulator.ram.size = other.ram.size)
    (same : emulator.cells.map Cell.contents = other.cells.map Cell.contents) :
    emulator.registers = other.registers ∧ emulator.ram = other.ram := by
  have otherAddressable : other.ram.Addressable := by
    rw [Ram.Addressable, ← sameSize]
    exact addressable
  rw [contents_cells coherent addressable, contents_cells otherCoherent otherAddressable] at same
  obtain ⟨sameRegisters, sameWords⟩ := List.append_inj same (by simp)
  constructor
  · apply Registers.ext
    apply Vector.ext
    intro index inside
    have here := List.map_inj_left.mp sameRegisters ⟨index, inside⟩ (List.mem_finRange _)
    exact (Prod.mk.inj here).2
  · apply coherent.eq_of_words otherCoherent
    apply Ram.words_eq_of_nonzero addressable sameSize
    refine (List.map_inj_right ?_).mp sameWords
    rintro ⟨address, word⟩ ⟨otherAddress, otherWord⟩ samePlace
    obtain ⟨sameTag, sameWord⟩ := Prod.mk.inj samePlace
    exact Prod.ext (Address.tag_injective sameTag) sameWord

end Cells

theorem ram_askAll (start : Emulator) (size : Nat) (requests : List Request) :
    let ram := (askAll { start with ram := .ofSize size } requests).ram
    ram.Coherent ∧ ram.size = size := by
  intro ram
  have written : (Ram.ofSize size).Written ram :=
    @ofSize_written_askAll size { start with ram := .ofSize size } .same requests
  exact ⟨written.coherent (Ram.coherent_ofSize size), by rw [written.size_eq, Ram.size_ofSize]⟩

/-- A dump is faithful.  After any requests, loads, steps and steps back among them, it shows the
registers with their words in the order of their indices, and behind them the words of memory
that are not zero, by increasing addresses and disassembled.  Two emulators whose memories were
made with the same size agree in all registers and in all of memory if their dumps agree in the
names of places and in the words. -/
theorem dump_faithful (start : Emulator) {size : Nat} (small : size ≤ 0x40000000)
    (requests : List Request) :
    let emulator := askAll { start with ram := .ofSize size } requests
    (emulator.cells.take 34).map Cell.contents =
      (List.finRange 34).map (fun register => (register.tag, emulator.registers.read register)) ∧
    (∃ shown : List (Address × Word),
      emulator.cells.drop 34 = shown.map Cell.ofWord ∧
      shown.Pairwise (fun first second => first.1.value < second.1.value) ∧
      ∀ address word,
        (address, word) ∈ shown ↔ emulator.ram.read address = .ok word ∧ word ≠ 0) ∧
    ∀ (otherStart : Emulator) (otherRequests : List Request),
      let other := askAll { otherStart with ram := .ofSize size } otherRequests
      emulator.cells.map Cell.contents = other.cells.map Cell.contents →
        emulator.registers = other.registers ∧ emulator.ram = other.ram := by
  intro emulator
  obtain ⟨coherent, sizeEq⟩ := ram_askAll start size requests
  have addressable : emulator.ram.Addressable := by
    rw [Ram.Addressable, sizeEq]
    exact small
  have cells := cells_eq coherent addressable
  refine ⟨?_, ⟨emulator.ram.nonzero, ?_, Ram.pairwise_nonzero addressable,
    Ram.mem_nonzero_iff addressable⟩, ?_⟩
  · rw [cells, List.take_left' (by simp), List.map_map]
    rfl
  · rw [cells, List.drop_left' (by simp)]
  · intro otherStart otherRequests other same
    obtain ⟨otherCoherent, otherSize⟩ := ram_askAll otherStart size otherRequests
    exact eq_of_contents coherent addressable otherCoherent (sizeEq.trans otherSize.symm) same

def clearsNext : Request := .load [0xac, 0, 0, 4, 0, 0, 0, 0x20]

/-- The cleared word is left out of a dump.  Once the step is undone, the dump and the machine are
as they were after the load. -/
theorem dump_faithful_undone :
    let made := askAll { ofSize 0 with ram := .ofSize 3 } [clearsNext]
    let cleared := askAll { ofSize 0 with ram := .ofSize 3 } [clearsNext, .move .step]
    let undone := askAll { ofSize 0 with ram := .ofSize 3 } [clearsNext, .move .step, .move (.back 1)]
    cleared.cells.drop 34 = [⟨"M[0x0]", 0xac000004, "sw $0, 4($0)"⟩] ∧
      undone.cells.drop 34 =
        [⟨"M[0x0]", 0xac000004, "sw $0, 4($0)"⟩, ⟨"M[0x4]", 0x20, "add $0, $0, $0"⟩] ∧
      undone.registers = made.registers ∧ undone.ram = made.ram := by
  intro made cleared undone
  have faithful := dump_faithful (ofSize 0) (by decide : 3 ≤ 0x40000000)
    [clearsNext, .move .step, .move (.back 1)]
  have same : undone.cells.map Cell.contents = made.cells.map Cell.contents := by decide +kernel
  exact ⟨by decide +kernel, by decide +kernel, faithful.2.2 (ofSize 0) [clearsNext] same⟩

end Emulator
end ReversibleMips
