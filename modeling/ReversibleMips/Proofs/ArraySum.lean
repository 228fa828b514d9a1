import ReversibleMips.Assembler.Assembly
import ReversibleMips.Proofs.Execution

/-!
# Summing an array

A program that adds up the array it is called with.  It is followed from its source to the
end of its run: the words it is assembled to, the place of the array in memory, and the loop,
of which every turn takes one element off the array.
-/

namespace ReversibleMips
namespace ArraySum

open Assembler Emulator Machine

theorem toUInt32_eq_ofInt (value : Int32) : value.toUInt32 = UInt32.ofInt value.toInt := by
  apply UInt32.toNat_inj.mp
  apply Int.ofNat_inj.mp
  rw [Word.toNat_toUInt32, Word.toNat_ofInt]

def source : Glyphs :=
  Glyphs.ofString ("\n".intercalate
    ["  add $3, $0, $0 ; sum",
      "  lis $4",
      "  .word 4",
      "loop:",
      "  beq $2, $0, done",
      "  lw $5, 0($1)",
      "  add $3, $3, $5",
      "  add $1, $1, $4",
      "  lis $5",
      "  .word -1",
      "  add $2, $2, $5",
      "  beq $0, $0, loop",
      "done:",
      "  jr $31"])

def code : List Word :=
  [0x00001820, 0x00002014, 4, 0x10400007, 0x8c250000, 0x00651820, 0x00240820, 0x00002814,
    0xffffffff, 0x00451020, 0x1000fff8, 0x03e00008]

theorem assemble_source :
    (assemble [] source).2 = none ∧
      (assemble [] source).1.program.opcodes.map Opcode.code = code := by
  decide +kernel

theorem image_source : (assemble [] source).1.program.image = Image.ofWords code :=
  congrArg Image.ofWords assemble_source.2

/-- What the program is called with: the place of an array, and how many elements it has. -/
structure Called (registers : Registers) (place left : Nat) : Prop where
  zero : registers.read 0 = 0
  place : registers.read 1 = (Address.ofNat place).value
  left : registers.read 2 = UInt32.ofNat left
  link : registers.read 31 = returnAddress

/-- At the start of a turn, the program is as if called with the rest of the array, and has
the sum of the elements before. -/
structure Summing (registers : Registers) (place left : Nat) (total : Int) : Prop
    extends Called registers place left where
  total : registers.read 3 = UInt32.ofInt total
  width : registers.read 4 = 4

/-- What a turn that finds an element in memory does to the registers. -/
structure Turns (before : Registers) (element : Word) (after : Registers) : Prop where
  zero : after.read 0 = before.read 0
  place : after.read 1 = before.read 1 + before.read 4
  left : after.read 2 = before.read 2 + 0xffffffff
  total : after.read 3 = before.read 3 + element
  width : after.read 4 = before.read 4
  link : after.read 31 = before.read 31

theorem Summing.turn {registers later : Registers} {place left : Nat} {total : Int}
    {element : Int32} (summing : Summing registers place (left + 1) total)
    (turns : Turns registers element.toUInt32 later) :
    Summing later (place + 1) left (total + element.toInt) where
  zero := turns.zero.trans summing.zero
  place := by
    rw [turns.place, summing.place, summing.width]
    exact (UInt32.ofNat_add (4 * place) 4).symm
  left := by
    rw [turns.left, summing.left, UInt32.ofNat_add, UInt32.add_assoc]
    exact UInt32.add_zero _
  total := by
    rw [turns.total, summing.total, toUInt32_eq_ofInt, UInt32.ofInt_add]
  width := turns.width.trans summing.width
  link := turns.link.trans summing.link

def home : Address := .ofNat 0x2048d15b

section Loop

variable {ram : Ram} (holds : ram.Holds code) (tape : Tape) {registers : Registers}
    {place left : Nat} {total : Int}
include holds

theorem reaches_turn (summing : Summing registers place (left + 1) total) {element : Word}
    (held : ram.read (.ofNat place) = .ok element) (low : place ≤ 0x400000)
    (few : left ≤ 0x400000) :
    ∃ later, Reaches 7 ⟨registers, ram, .ofNat 3, tape⟩ ⟨later, ram, .ofNat 3, tape⟩ ∧
      Turns registers element later := by
  have notDone : registers.read 2 ≠ registers.read 0 := by
    rw [summing.left, summing.zero]
    intro isZero
    have none : (left + 1) % 2 ^ 32 = 0 := congrArg UInt32.toNat isZero
    omega
  have accesses : registers.read 1 + 0 = (Address.ofNat place).value := by
    rw [summing.place, UInt32.add_zero]
  have notInput : (Address.ofNat place).value ≠ inputAddress := by
    intro isInput
    have far := congrArg UInt32.toNat isInput
    rw [Address.toNat_ofNat (by unfold Address.maxIndex; omega)] at far
    change 4 * place = 0xffff0004 at far
    omega
  let loaded := registers.write 5 element
  let added := loaded.write 3 (loaded.read 3 + loaded.read 5)
  let moved := added.write 1 (added.read 1 + added.read 4)
  let minusOne := moved.write 5 0xffffffff
  let counted := minusOne.write 2 (minusOne.read 2 + minusOne.read 5)
  have test : Reaches 1 ⟨registers, ram, .ofNat 3, tape⟩ ⟨registers, ram, .ofNat 4, tape⟩ :=
    (fetches_of_holds holds 3 0x10400007 rfl registers tape).beq_through rfl notDone
  have load : Reaches 1 ⟨registers, ram, .ofNat 4, tape⟩ ⟨loaded, ram, .ofNat 5, tape⟩ :=
    (fetches_of_holds holds 4 0x8c250000 rfl registers tape).lw rfl accesses notInput held
  have add : Reaches 1 ⟨loaded, ram, .ofNat 5, tape⟩ ⟨added, ram, .ofNat 6, tape⟩ :=
    (fetches_of_holds holds 5 0x00651820 rfl loaded tape).add rfl
  have move : Reaches 1 ⟨added, ram, .ofNat 6, tape⟩ ⟨moved, ram, .ofNat 7, tape⟩ :=
    (fetches_of_holds holds 6 0x00240820 rfl added tape).add rfl
  have one : Reaches 1 ⟨moved, ram, .ofNat 7, tape⟩ ⟨minusOne, ram, .ofNat 9, tape⟩ :=
    (fetches_of_holds holds 7 0x00002814 rfl moved tape).lis rfl (holds.read 8 _ rfl) rfl
  have count : Reaches 1 ⟨minusOne, ram, .ofNat 9, tape⟩ ⟨counted, ram, .ofNat 10, tape⟩ :=
    (fetches_of_holds holds 9 0x00451020 rfl minusOne tape).add rfl
  have again : Reaches 1 ⟨counted, ram, .ofNat 10, tape⟩ ⟨counted, ram, .ofNat 3, tape⟩ :=
    (fetches_of_holds holds 10 0x1000fff8 rfl counted tape).beq rfl rfl rfl
  refine ⟨counted,
    test.trans (load.trans (add.trans (move.trans (one.trans (count.trans again))))), ?_⟩
  constructor
  all_goals
    simp [counted, minusOne, moved, added, loaded, Registers.read_write, Register.zero]

theorem reaches_home (summing : Summing registers place 0 total) :
    Reaches 2 ⟨registers, ram, .ofNat 3, tape⟩ ⟨registers, ram, home, tape⟩ := by
  have done : registers.read 2 = registers.read 0 := by
    rw [summing.left, summing.zero]
    rfl
  have leave : Reaches 1 ⟨registers, ram, .ofNat 3, tape⟩ ⟨registers, ram, .ofNat 11, tape⟩ :=
    (fetches_of_holds holds 3 0x10400007 rfl registers tape).beq rfl done rfl
  have back : Reaches 1 ⟨registers, ram, .ofNat 11, tape⟩ ⟨registers, ram, home, tape⟩ :=
    (fetches_of_holds holds 11 0x03e00008 rfl registers tape).jr rfl summing.link
  exact leave.trans back

/-- The loop takes the elements one by one and then returns. -/
theorem reaches_sum {elements : List Int32}
    (summing : Summing registers place elements.length total)
    (stored : ∀ offset element, elements[offset]? = some element →
      ram.read (.ofNat (place + offset)) = .ok element.toUInt32)
    (room : place + elements.length ≤ 0x400001) :
    ∃ later, Reaches (7 * elements.length + 2) ⟨registers, ram, .ofNat 3, tape⟩
        ⟨later, ram, home, tape⟩ ∧
      Summing later (place + elements.length) 0
        (elements.foldl (fun total element => total + element.toInt) total) := by
  induction elements generalizing registers place total with
  | nil =>
      exact ⟨registers, reaches_home holds tape summing, summing⟩
  | cons element elements ih =>
      rw [List.length_cons] at summing room
      obtain ⟨next, reachesNext, turns⟩ :=
        reaches_turn holds tape summing (stored 0 element rfl) (by omega) (by omega)
      have rest (offset : Nat) (other : Int32) (found : elements[offset]? = some other) :
          ram.read (.ofNat (place + 1 + offset)) = .ok other.toUInt32 := by
        rw [Nat.add_assoc, Nat.add_comm 1]
        exact stored (offset + 1) other found
      obtain ⟨later, reaches, summed⟩ := ih (summing.turn turns) rest (by omega)
      refine ⟨later, ?_, ?_⟩
      · have counted := reachesNext.trans reaches
        rwa [← Nat.add_assoc, Nat.add_comm 7] at counted
      · rwa [List.length_cons, List.foldl_cons, Nat.add_comm elements.length, ← Nat.add_assoc]

theorem reaches_loop (called : Called registers place left) :
    ∃ later, Reaches 2 ⟨registers, ram, .ofNat 0, tape⟩ ⟨later, ram, .ofNat 3, tape⟩ ∧
      Summing later place left 0 := by
  let cleared := registers.write 3 (registers.read 0 + registers.read 0)
  let started := cleared.write 4 4
  have clear : Reaches 1 ⟨registers, ram, .ofNat 0, tape⟩ ⟨cleared, ram, .ofNat 1, tape⟩ :=
    (fetches_of_holds holds 0 0x00001820 rfl registers tape).add rfl
  have four : Reaches 1 ⟨cleared, ram, .ofNat 1, tape⟩ ⟨started, ram, .ofNat 3, tape⟩ :=
    (fetches_of_holds holds 1 0x00002014 rfl cleared tape).lis rfl (holds.read 2 _ rfl) rfl
  have none : UInt32.ofInt 0 = 0 := rfl
  refine ⟨started, clear.trans four, ?_⟩
  constructor
  · constructor
    all_goals
      simp [started, cleared, Registers.read_write, Register.zero, called.zero, called.place,
        called.left, called.link]
  · simp [started, cleared, Registers.read_write, Register.zero, called.zero, none]
  · simp [started, Registers.read_write, Register.zero]

end Loop

def base : Nat := code.length + arrayGap

theorem holds_withArray {earlier : Emulator} (fits : earlier.Fits (Image.ofWords code))
    (elements : List Int32) : (earlier.withArray code base elements).ram.Holds code where
  read := by
    intro index word found
    have inside : index < code.length := (List.getElem?_eq_some_iff.mp found).1
    have indexEq : (Address.ofNat index).index = index := by
      apply Address.index_ofNat
      exact Nat.le_of_lt (Nat.lt_trans inside (by decide))
    have room := fits.room
    rw [Image.length_ofWords] at room
    apply read_withArray
    · rwa [indexEq]
    · rw [indexEq]
      omega
    · rw [indexEq]
      exact Nat.lt_add_right arrayGap inside
  low := by decide

theorem called_withArray (earlier : Emulator) (elements : List Int32) :
    Called (earlier.withArray code base elements).registers base elements.length := by
  constructor
  all_goals
    simp [withArray, setArguments, withProgram, Registers.read_write, Register.zero, Register.link,
      Register.stack, firstArgument, secondArgument]

theorem room_of_arrayFits {size length : Nat} (room : ArrayFits size base length) :
    base + length ≤ 0x400001 ∧ (length ≠ 0 → base + length ≤ size) := by
  have baseEq : base = 20 := rfl
  have maxEq : Ram.maxAddress.toNat = 0x1000000 := rfl
  have within := room.room
  omega

theorem reaches_withArray {earlier : Emulator} {elements : List Int32}
    (fits : earlier.Fits (Image.ofWords code))
    (room : ArrayFits earlier.ram.size base elements.length) :
    let loaded := earlier.withArray code base elements
    ∃ registers, Reaches (7 * elements.length + 4) loaded.toMachine
        ⟨registers, loaded.ram, home, loaded.tape⟩ ∧
      Summing registers (base + elements.length) 0
        (elements.foldl (fun total element => total + element.toInt) 0) := by
  intro loaded
  obtain ⟨low, inside⟩ := room_of_arrayFits room
  have holds : loaded.ram.Holds code := holds_withArray fits elements
  have stored (offset : Nat) (element : Int32) (found : elements[offset]? = some element) :
      loaded.ram.read (.ofNat (base + offset)) = .ok element.toUInt32 := by
    have listed : offset < elements.length := (List.getElem?_eq_some_iff.mp found).1
    have sized := inside (Nat.ne_of_gt (Nat.zero_lt_of_lt listed))
    have indexEq : (Address.ofNat (base + offset)).index = base + offset := by
      apply Address.index_ofNat
      unfold Address.maxIndex
      omega
    apply read_withArray_element found indexEq
    omega
  obtain ⟨started, starts, summing⟩ := reaches_loop holds loaded.tape
    (called_withArray earlier elements)
  obtain ⟨last, sums, summed⟩ := reaches_sum holds loaded.tape summing stored low
  have reaches := starts.trans sums
  rw [Nat.add_comm, Nat.add_assoc] at reaches
  exact ⟨last, reaches, summed⟩

/-- A run of the program, whatever its image came from. -/
theorem runFor_loadArray {image : List UInt8} (imageEq : image = Image.ofWords code)
    {earlier : Emulator} {elements : List Int32}
    (succeeds : (earlier.loadArray image elements).error = none) (fuel : Nat) :
    let loaded := (earlier.loadArray image elements).emulator
    let run := runFor fuel loaded
    (fuel < 7 * elements.length + 4 → run.ending = .unfinished) ∧
    (7 * elements.length + 4 ≤ fuel →
      run.ending = .returned ∧
      run.emulator.history = 7 * elements.length + 4 ∧
      run.emulator.ram = loaded.ram ∧
      loaded.registers.read 1 = (Address.ofNat base).value ∧
      base + elements.length ≤ 0x400001 ∧
      Summing run.emulator.registers (base + elements.length) 0
        (elements.foldl (fun total element => total + element.toInt) 0)) := by
  subst imageEq
  intro loaded run
  have fresh := (Loaded.array earlier (Image.ofWords code) elements succeeds).fresh
  obtain ⟨fits, room⟩ := fits_of_loadArray succeeds
  have loadedEq : loaded = earlier.withArray code base elements := by
    have load := congrArg Outcome.emulator (loadArray_of_fits fits room)
    rwa [Image.toWords_ofWords] at load
  obtain ⟨registers, reaches, summing⟩ := reaches_withArray fits room
  rw [← loadedEq] at reaches
  obtain ⟨unfinished, returned⟩ := runFor_of_reaches fresh.coherent reaches rfl fuel
  refine ⟨unfinished, fun enough => ?_⟩
  obtain ⟨ending, final, history⟩ := returned enough
  have registersEq : run.emulator.registers = registers := congrArg Machine.registers final
  have ramEq := congrArg Machine.ram final
  refine ⟨ending, ?_, ramEq, ?_, (room_of_arrayFits room).1, ?_⟩
  · rw [history, Emulator.history, fresh.journal]
    exact Nat.zero_add _
  · rw [loadedEq]
    exact (called_withArray earlier elements).place
  · rwa [registersEq]

/-- The program returns the sum of any array that memory has room for.  It takes seven steps
for each element and four more.  Then `$3` is the sum modulo the size of a word, nothing is
left of the array, `$1` is behind it, and memory is what it was when the program was
loaded. -/
theorem array_sum_returns (earlier : Emulator) (elements : List Int32) :
    let assembled := assemble [] source
    let loading := earlier.loadArray assembled.1.program.image elements
    assembled.2 = none ∧
    (loading.error = none → ∀ fuel,
      let run := runFor fuel loading.emulator
      let registers := run.emulator.registers
      (fuel < 7 * elements.length + 4 → run.ending = .unfinished) ∧
      (7 * elements.length + 4 ≤ fuel →
        run.ending = .returned ∧
        run.emulator.history = 7 * elements.length + 4 ∧
        ((registers.read 3).toNat : Int) =
          elements.foldl (fun total element => total + element.toInt) 0 % 0x100000000 ∧
        registers.read 2 = 0 ∧
        (registers.read 1).toNat =
          (loading.emulator.registers.read 1).toNat + 4 * elements.length ∧
        (loading.emulator.registers.read 1).toNat = 4 * (code.length + arrayGap) ∧
        run.emulator.ram = loading.emulator.ram)) := by
  refine ⟨assemble_source.1, fun succeeds fuel => ?_⟩
  obtain ⟨unfinished, returned⟩ := runFor_loadArray image_source succeeds fuel
  refine ⟨unfinished, fun enough => ?_⟩
  obtain ⟨ending, history, ram, start, low, summing⟩ := returned enough
  have bottom : (Address.ofNat base).value.toNat = 4 * base := rfl
  have top : (Address.ofNat (base + elements.length)).value.toNat =
      4 * (base + elements.length) := by
    apply Address.toNat_ofNat
    unfold Address.maxIndex
    omega
  refine ⟨ending, history, ?_, summing.left, ?_, ?_, ram⟩
  · rw [summing.total, Word.toNat_ofInt]
  · rw [summing.place, start, bottom, top, Nat.mul_add]
  · rw [start]
    rfl

theorem array_sum_returns_four :
    let loading := full.loadArray (assemble [] source).1.program.image [1, 2, 3, -4]
    let run := runFor 32 loading.emulator
    loading.error = none ∧ run.ending = .returned ∧ run.emulator.history = 32 ∧
      (run.emulator.registers.read 3).toNat = 2 := by
  have size : full.ram.size = 0x400001 := Ram.size_ofSize Ram.fullSize
  have fits : full.Fits (Image.ofWords code) := by
    refine ⟨by decide, by decide, ?_⟩
    rw [size]
    decide
  have room : ArrayFits full.ram.size ((Image.ofWords code).length / 4 + arrayGap)
      [1, 2, 3, (-4 : Int32)].length := by
    rw [size]
    exact ⟨by decide, .inr ⟨by decide, by decide⟩⟩
  have two : [1, 2, 3, (-4 : Int32)].foldl (fun total element => total + element.toInt) 0 %
      0x100000000 = 2 := by
    decide
  have succeeds :
      (full.loadArray (assemble [] source).1.program.image [1, 2, 3, -4]).error = none := by
    rw [image_source]
    exact congrArg Outcome.error (loadArray_of_fits fits room)
  obtain ⟨ending, history, sum, -⟩ :=
    ((array_sum_returns full [1, 2, 3, -4]).2 succeeds 32).2 (by decide)
  exact ⟨succeeds, ending, history, Int.ofNat_inj.mp (sum.trans two)⟩

end ArraySum
end ReversibleMips
