import ReversibleMips.Assembler.Assembly
import ReversibleMips.Proofs.Execution
import ReversibleMips.Proofs.TapeAccounts

/-!
# Echoing the input

A program that writes every byte of its input to its output and returns at the end of the
input.  A byte is at most 255, so no byte is taken for the word of all ones that marks the
end, and every turn of the loop passes one byte on.
-/

namespace ReversibleMips

namespace Tape

/-- There is an output, and it has no limit. -/
def Unlimited (tape : Tape) : Prop := ∃ sink, tape.output = some sink ∧ sink.limit = none

theorem Unlimited.read {tape : Tape} (unlimited : tape.Unlimited) {bytes : List UInt8}
    (carries : tape.Carries bytes) : tape.read.2.Unlimited := by
  obtain ⟨-, input, readEq, -⟩ := carries.read
  rw [readEq]
  exact unlimited

theorem Unlimited.write {tape : Tape} (unlimited : tape.Unlimited) (value : UInt8) :
    ∃ later, tape.write value = .ok later ∧ later.Unlimited := by
  obtain ⟨input, output, bytesRead, bytesWritten⟩ := tape
  obtain ⟨sink, ⟨⟩, noLimit⟩ := unlimited
  have accepted :
      sink.accept value = .ok { sink with bytes := sink.bytes ++ sink.stored value } := by
    simp [Sink.accept, Sink.hasRoom, noLimit]
  refine ⟨⟨input, some { sink with bytes := sink.bytes ++ sink.stored value }, bytesRead,
    bytesWritten + 1⟩, ?_, _, rfl, noLimit⟩
  simp only [Tape.write, accepted]
  rfl

end Tape

def Emulator.attach (emulator : Emulator) (input : List Delivery) (output : Sink) : Emulator :=
  { emulator with tape := { emulator.tape with input := some input, output := some output } }

namespace Echo

open Assembler Emulator Machine

/-- A byte goes through `$3`, and `$5` has the word that marks the end of the input. -/
def source : Glyphs :=
  Glyphs.ofString ("\n".intercalate
    ["  lis $1",
      "  .word STDIN",
      "  lis $2",
      "  .word STDOUT",
      "  lis $5",
      "  .word -1",
      "loop:",
      "  lw $3, 0($1)",
      "  beq $3, $5, done",
      "  sw $3, 0($2)",
      "  beq $0, $0, loop",
      "done:",
      "  jr $31"])

def code : List Word :=
  [0x00000814, 0xffff0004, 0x00001014, 0xffff000c, 0x00002814, 0xffffffff, 0x8c230000, 0x10650002,
    0xac430000, 0x1000fffc, 0x03e00008]

theorem assemble_source :
    (assemble [] source).2 = none ∧
      (assemble [] source).1.program.opcodes.map Opcode.code = code := by
  decide +kernel

theorem image_source : (assemble [] source).1.program.image = Image.ofWords code :=
  congrArg Image.ofWords assemble_source.2

/-- At the start of a turn, the addresses of the input and of the output and the mark of the
end are in their registers. -/
structure Echoing (registers : Registers) : Prop where
  input : registers.read 1 = inputAddress
  output : registers.read 2 = outputAddress
  mark : registers.read 5 = 0xffffffff
  link : registers.read 31 = returnAddress

theorem Echoing.received {registers : Registers} (echoing : Echoing registers) (value : Word) :
    Echoing (registers.write 3 value) := by
  constructor
  all_goals
    simp [Registers.read_write, echoing.input, echoing.output, echoing.mark, echoing.link]

theorem read_received (registers : Registers) (value : Word) :
    (registers.write 3 value).read 3 = value := by
  simp [Registers.read_write, Register.zero]

/-- No byte looks like the end of the input. -/
theorem inputWord_ne_mark (byte : UInt8) : inputWord (some byte) ≠ 0xffffffff := by
  intro same
  have large : byte.toUInt32.toNat = 0xffffffff := congrArg UInt32.toNat same
  have small := byte.toNat_lt
  rw [UInt8.toNat_toUInt32] at large
  omega

section Loop

variable {ram : Ram} (holds : ram.Holds code) {tape : Tape} {registers : Registers}
    {bytes : List UInt8}
include holds

theorem reaches_received (echoing : Echoing registers) {value : Option UInt8}
    (received : tape.read.1 = value) :
    Reaches 1 ⟨registers, ram, .ofNat 6, tape⟩
      ⟨registers.write 3 (inputWord value), ram, .ofNat 7, tape.read.2⟩ := by
  have accesses : registers.read 1 + 0 = inputAddress := by
    rw [echoing.input]
    rfl
  rw [← received]
  exact (fetches_of_holds holds 6 0x8c230000 rfl registers tape).lw_input rfl accesses

theorem reaches_turn (echoing : Echoing registers) {byte : UInt8}
    (carries : tape.Carries (byte :: bytes)) (unlimited : tape.Unlimited) :
    ∃ later,
      Reaches 4 ⟨registers, ram, .ofNat 6, tape⟩
        ⟨registers.write 3 byte.toUInt32, ram, .ofNat 6, later⟩ ∧
      Passed tape (byte :: bytes) 1 [byte] later ∧ later.Unlimited := by
  have received : tape.read.1 = some byte := carries.read.1
  have passed := Passed.read carries
  let next := registers.write 3 (inputWord (some byte))
  have echoingNext : Echoing next := echoing.received _
  have low : (next.read 3).toUInt8 = byte := by
    rw [read_received]
    exact UInt8.toUInt8_toUInt32 byte
  have accesses : next.read 2 + 0 = outputAddress := by
    rw [echoingNext.output]
    rfl
  have goesOn : next.read 3 ≠ next.read 5 := by
    rw [read_received, echoingNext.mark]
    exact inputWord_ne_mark byte
  obtain ⟨later, written, laterUnlimited⟩ := (unlimited.read carries).write byte
  rw [← low] at written
  have load : Reaches 1 ⟨registers, ram, .ofNat 6, tape⟩ ⟨next, ram, .ofNat 7, tape.read.2⟩ :=
    reaches_received holds echoing received
  have test : Reaches 1 ⟨next, ram, .ofNat 7, tape.read.2⟩ ⟨next, ram, .ofNat 8, tape.read.2⟩ :=
    (fetches_of_holds holds 7 0x10650002 rfl next _).beq_through rfl goesOn
  have store : Reaches 1 ⟨next, ram, .ofNat 8, tape.read.2⟩ ⟨next, ram, .ofNat 9, later⟩ :=
    (fetches_of_holds holds 8 0xac430000 rfl next _).sw_output rfl accesses written
  have again : Reaches 1 ⟨next, ram, .ofNat 9, later⟩ ⟨next, ram, .ofNat 6, later⟩ :=
    (fetches_of_holds holds 9 0x1000fffc rfl next later).beq rfl rfl rfl
  rw [low] at written
  exact ⟨later, load.trans (test.trans (store.trans again)),
    passed.trans (Passed.write passed.carries written), laterUnlimited⟩

theorem reaches_home (echoing : Echoing registers) (carries : tape.Carries []) :
    ∃ home : Address, home.value = returnAddress ∧
      Reaches 3 ⟨registers, ram, .ofNat 6, tape⟩
        ⟨registers.write 3 0xffffffff, ram, home, tape.read.2⟩ := by
  have received : tape.read.1 = none := carries.read.1
  let last := registers.write 3 (inputWord none)
  have echoingLast : Echoing last := echoing.received _
  have done : last.read 3 = last.read 5 := by
    rw [read_received, echoingLast.mark]
    rfl
  have load : Reaches 1 ⟨registers, ram, .ofNat 6, tape⟩ ⟨last, ram, .ofNat 7, tape.read.2⟩ :=
    reaches_received holds echoing received
  have leave : Reaches 1 ⟨last, ram, .ofNat 7, tape.read.2⟩ ⟨last, ram, .ofNat 10, tape.read.2⟩ :=
    (fetches_of_holds holds 7 0x10650002 rfl last _).beq rfl done rfl
  obtain ⟨home, isHome, back⟩ :=
    (fetches_of_holds holds 10 0x03e00008 rfl last tape.read.2).jr_home rfl echoingLast.link
  exact ⟨home, isHome, load.trans (leave.trans back)⟩

/-- The loop passes the bytes on one by one and then returns. -/
theorem reaches_echo (echoing : Echoing registers) (carries : tape.Carries bytes)
    (unlimited : tape.Unlimited) :
    ∃ (home : Address) (last : Registers) (later : Tape), home.value = returnAddress ∧
      Reaches (4 * bytes.length + 3) ⟨registers, ram, .ofNat 6, tape⟩ ⟨last, ram, home, later⟩ ∧
      last.read 3 = 0xffffffff ∧ Passed tape bytes (bytes.length + 1) bytes later := by
  induction bytes generalizing registers tape with
  | nil =>
      obtain ⟨home, isHome, reaches⟩ := reaches_home holds echoing carries
      exact ⟨home, _, _, isHome, reaches, read_received registers _, Passed.read carries⟩
  | cons byte bytes ih =>
      obtain ⟨next, turn, passed, nextUnlimited⟩ := reaches_turn holds echoing carries unlimited
      obtain ⟨home, last, later, isHome, rest, mark, passedRest⟩ :=
        ih (echoing.received byte.toUInt32) passed.carries nextUnlimited
      refine ⟨home, last, later, isHome, ?_, mark, ?_⟩
      · have counted := turn.trans rest
        rwa [← Nat.add_assoc, Nat.add_comm 4] at counted
      · have total := passed.trans passedRest
        rwa [Nat.add_comm 1] at total

theorem reaches_loop (link : registers.read 31 = returnAddress) :
    ∃ later, Reaches 3 ⟨registers, ram, .ofNat 0, tape⟩ ⟨later, ram, .ofNat 6, tape⟩ ∧
      Echoing later := by
  let input := registers.write 1 0xffff0004
  let output := input.write 2 0xffff000c
  let mark := output.write 5 0xffffffff
  have first : Reaches 1 ⟨registers, ram, .ofNat 0, tape⟩ ⟨input, ram, .ofNat 2, tape⟩ :=
    (fetches_of_holds holds 0 0x00000814 rfl registers tape).lis rfl (holds.read 1 _ rfl) rfl
  have second : Reaches 1 ⟨input, ram, .ofNat 2, tape⟩ ⟨output, ram, .ofNat 4, tape⟩ :=
    (fetches_of_holds holds 2 0x00001014 rfl input tape).lis rfl (holds.read 3 _ rfl) rfl
  have third : Reaches 1 ⟨output, ram, .ofNat 4, tape⟩ ⟨mark, ram, .ofNat 6, tape⟩ :=
    (fetches_of_holds holds 4 0x00002814 rfl output tape).lis rfl (holds.read 5 _ rfl) rfl
  refine ⟨mark, first.trans (second.trans third), ?_⟩
  constructor
  all_goals
    simp [mark, output, input, Registers.read_write, Register.zero, link, inputAddress,
      outputAddress]

end Loop

theorem fits_code {earlier : Emulator} (room : code.length ≤ earlier.ram.size) :
    earlier.Fits (Image.ofWords code) := by
  refine ⟨by decide, by decide, ?_⟩
  rw [Image.length_ofWords]
  omega

theorem holds_withProgram {earlier : Emulator} (room : code.length ≤ earlier.ram.size) :
    (earlier.withProgram code).ram.Holds code where
  read := by
    intro index word found
    have inside : index < code.length := (List.getElem?_eq_some_iff.mp found).1
    have indexEq : (Address.ofNat index).index = index := by
      apply Address.index_ofNat
      exact Nat.le_of_lt (Nat.lt_trans inside (by decide))
    apply read_withProgram
    · rwa [indexEq]
    · rw [indexEq]
      exact Nat.lt_of_lt_of_le inside room
  low := by decide

/-- A run of the program, whatever its image came from. -/
theorem runFor_load {image : List UInt8} (imageEq : image = Image.ofWords code)
    {earlier : Emulator} (room : code.length ≤ earlier.ram.size) {input : List Delivery}
    {bytes : List UInt8} (delivers : Delivers input bytes) {sink : Sink}
    (unlimited : sink.limit = none) (fuel : Nat) :
    let loading := earlier.load image
    let start := loading.emulator.attach input sink
    let run := runFor fuel start
    loading.error = none ∧
      (fuel < 4 * bytes.length + 6 → run.ending = .unfinished) ∧
      (4 * bytes.length + 6 ≤ fuel →
        run.ending = .returned ∧
        run.emulator.history = 4 * bytes.length + 6 ∧
        run.emulator.registers.read 3 = 0xffffffff ∧
        start.tape.bytesRead = 0 ∧ start.tape.bytesWritten = 0 ∧
        Passed start.tape bytes (bytes.length + 1) bytes run.emulator.tape) := by
  subst imageEq
  intro loading start run
  have loaded := load_of_fits (fits_code room)
  have succeeds : loading.error = none := congrArg Outcome.error loaded
  have fresh := (Loaded.image earlier (Image.ofWords code) succeeds).fresh
  have startEq : start = (earlier.withProgram code).attach input sink := by
    have load := congrArg Outcome.emulator loaded
    rw [Image.toWords_ofWords] at load
    exact congrArg (fun emulator => emulator.attach input sink) load
  have holds := holds_withProgram room
  have link : (earlier.withProgram code).registers.read 31 = returnAddress := by
    simp [withProgram, Registers.read_write, Register.zero, Register.link, Register.stack]
  obtain ⟨registers, begins, echoing⟩ := reaches_loop holds link
  have carries : ((earlier.withProgram code).attach input sink).tape.Carries bytes := delivers
  obtain ⟨home, last, later, isHome, echoes, mark, passed⟩ :=
    reaches_echo holds echoing carries ⟨sink, rfl, unlimited⟩
  have reaches := begins.trans echoes
  rw [Nat.add_comm, Nat.add_assoc] at reaches
  have returns : Machine.terminated ⟨last, (earlier.withProgram code).ram, home, later⟩ = true :=
    decide_eq_true isHome
  have coherent : start.ram.Coherent := fresh.coherent
  rw [startEq] at coherent
  obtain ⟨unfinished, returned⟩ := runFor_of_reaches coherent reaches returns fuel
  rw [← startEq] at unfinished returned passed
  refine ⟨succeeds, unfinished, fun enough => ?_⟩
  obtain ⟨ending, final, history⟩ := returned enough
  have registersEq : run.emulator.registers = last := congrArg Machine.registers final
  have tapeEq : run.emulator.tape = later := congrArg Machine.tape final
  have rewound : start.tape.bytesRead = 0 ∧ start.tape.bytesWritten = 0 := by
    rw [startEq]
    exact ⟨rfl, rfl⟩
  refine ⟨ending, ?_, ?_, rewound.1, rewound.2, ?_⟩
  · rw [history, startEq]
    exact Nat.zero_add _
  · rw [registersEq]
    exact mark
  · rw [tapeEq]
    exact passed

/-- The program echoes any input, byte for byte.  It takes four steps for each byte and six
more, and does not fail.  Then the output has the bytes of the input behind what it had before,
`$3` has the mark of the end, and as many bytes were read as written. -/
theorem echo_returns (earlier : Emulator) (room : code.length ≤ earlier.ram.size)
    {input : List Delivery} {bytes : List UInt8} (delivers : Delivers input bytes) {sink : Sink}
    (unlimited : sink.limit = none) (plain : sink.carriageReturns = false) :
    let assembled := assemble [] source
    let loading := earlier.load assembled.1.program.image
    assembled.2 = none ∧ loading.error = none ∧
    ∀ fuel,
      let run := runFor fuel (loading.emulator.attach input sink)
      let tape := run.emulator.tape
      (fuel < 4 * bytes.length + 6 → run.ending = .unfinished) ∧
      (4 * bytes.length + 6 ≤ fuel →
        run.ending = .returned ∧
        run.emulator.history = 4 * bytes.length + 6 ∧
        (∃ last, tape.output = some last ∧ last.bytes.toList = sink.bytes.toList ++ bytes) ∧
        run.emulator.registers.read 3 = 0xffffffff ∧
        tape.bytesRead = bytes.length ∧ tape.bytesWritten = bytes.length) := by
  have image := image_source
  refine ⟨assemble_source.1, (runFor_load image room delivers unlimited 0).1, fun fuel => ?_⟩
  obtain ⟨-, unfinished, returned⟩ := runFor_load image room delivers unlimited fuel
  refine ⟨unfinished, fun enough => ?_⟩
  obtain ⟨ending, history, mark, read, written, passed⟩ := returned enough
  obtain ⟨last, isOpen, -, stored⟩ := passed.output sink rfl
  refine ⟨ending, history, ⟨last, isOpen, ?_⟩, mark, ?_, ?_⟩
  · rw [stored, Sink.flatMap_stored plain]
  · rw [passed.bytesRead, read, Nat.zero_add, Nat.min_eq_right (Nat.le_succ _)]
  · rw [passed.bytesWritten, written, Nat.zero_add]

/-- An input that pauses, with the least and the greatest byte, whose last byte comes together
with the end. -/
def pausing : List Delivery := [.empty, .byte 0x00, .byte 0xff, .empty, .byteAndFailure 0x0a]

theorem delivers_pausing : Delivers pausing [0x00, 0xff, 0x0a] := by
  have last : Delivers [.empty, .byteAndFailure 0x0a] [0x0a] :=
    @Delivers.next 1 _ _ _ _ (by decide) (.inr rfl) (.ended (by simp))
  have middle : Delivers [.byte 0xff, .empty, .byteAndFailure 0x0a] [0xff, 0x0a] :=
    @Delivers.next 0 _ _ _ _ (by decide) (.inl rfl) last
  exact @Delivers.next 1 _ _ _ _ (by decide) (.inl rfl) middle

theorem echo_returns_pausing :
    let loading := full.load (assemble [] source).1.program.image
    let run := runFor 18 (loading.emulator.attach pausing .unlimited)
    code.length ≤ full.ram.size ∧ Delivers pausing [0x00, 0xff, 0x0a] ∧
      Sink.unlimited.limit = none ∧ Sink.unlimited.carriageReturns = false ∧
      loading.error = none ∧ run.ending = .returned ∧ run.emulator.history = 18 ∧
      ∃ last, run.emulator.tape.output = some last ∧ last.bytes.toList = [0x00, 0xff, 0x0a] := by
  have room : code.length ≤ full.ram.size := by
    have size : full.ram.size = 0x400001 := Ram.size_ofSize Ram.fullSize
    rw [size]
    decide
  obtain ⟨-, loads, runs⟩ :=
    @echo_returns full room pausing [0x00, 0xff, 0x0a] delivers_pausing .unlimited rfl rfl
  obtain ⟨ending, history, echoed, -⟩ := (runs 18).2 (by decide)
  exact ⟨room, delivers_pausing, rfl, rfl, loads, ending, history, echoed⟩

end Echo
end ReversibleMips
