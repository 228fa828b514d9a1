import Mathlib.Data.List.Basic
import ReversibleMips.Proofs.Listening
import ReversibleMips.Proofs.TapeAccess
import ReversibleMips.Proofs.TapeAccounts

/-!
# What goes over the tape

The bytes that a program reads are the bytes of the input, one after another, and the bytes that
it writes are all that is added to the output.  Going back takes nothing of this back: a load
that is made again gets the next byte, and a store that is made again adds another.

Every move accounts for what it does to the tape, and accounts add up over moves.
-/

namespace ReversibleMips
namespace Emulator

/-- A tape changes at most in what its sink is ready to hold and what it says when it refuses
more.  So a sink may accept and refuse bytes as it likes. -/
structure Resettled (tape later : Tape) : Prop where
  input : later.input = tape.input
  bytesRead : later.bytesRead = tape.bytesRead
  bytesWritten : later.bytesWritten = tape.bytesWritten
  output : ∀ sink, tape.output = some sink → ∃ laterSink, later.output = some laterSink ∧
    laterSink.carriageReturns = sink.carriageReturns ∧ laterSink.bytes = sink.bytes

/-- A move that leaves to programs what goes over the tape. -/
def Move.Settles : Move → Prop
  | .exchange change => ∀ tape, Resettled tape (change tape)
  | _ => True

namespace Visit

def isMove (visit : Visit) : Bool :=
  match visit.request with
  | .move .step | .move (.back _) => true
  | _ => false

def reading? (visit : Visit) : Option (Register × Outcome) :=
  match visit.request with
  | .move .step => visit.before.inputRegister?.map fun register => (register, visit.outcome)
  | _ => none

def sent? (visit : Visit) : Option UInt8 :=
  match visit.request with
  | .move .step => if visit.outcome.error = none then visit.before.outputByte? else none
  | _ => none

end Visit

section Visit

variable {emulator : Emulator} (coherent : emulator.ram.Coherent)
include coherent

/-- A visit passes on what it reads and what it sends, and nothing else. -/
theorem passed_visit {move : Move} (settles : move.Settles) {bytes : List UInt8}
    (carries : emulator.tape.Carries bytes) :
    let visit : Visit := ⟨emulator, .move move⟩
    Passed emulator.tape bytes visit.reading?.toList.length visit.sent?.toList
      (emulator.make move).emulator.tape := by
  cases move with
  | exchange change =>
      have resettled := settles emulator.tape
      exact .nothing carries resettled.input resettled.bytesRead resettled.bytesWritten
        resettled.output
  | back count =>
      change Passed emulator.tape bytes 0 [] (emulator.stepBack count).emulator.tape
      rw [tape_stepBack]
      exact .same carries
  | step =>
      change Passed emulator.tape bytes
        (emulator.inputRegister?.map fun register => (register, emulator.step)).toList.length
        (if emulator.step.error = none then emulator.outputByte? else none).toList
        emulator.step.emulator.tape
      cases reads : emulator.inputRegister? with
      | some register =>
          obtain ⟨-, tapeEq, -⟩ := step_of_input coherent reads
          rw [outputByte?_of_input reads, ite_self, tapeEq]
          exact .read carries
      | none =>
          cases stores : emulator.outputByte? with
          | none =>
              rw [ite_self, tape_step_of_unused coherent reads stores]
              exact .same carries
          | some value =>
              have stored := step_of_output coherent stores
              cases written : emulator.tape.write value with
              | ok tape =>
                  rw [written] at stored
                  rw [stored.1, stored.2, if_pos rfl]
                  exact .write carries written
              | error error =>
                  rw [written] at stored
                  rw [if_neg stored.1, stored.2]
                  exact .same carries

/-- The register that a visit reads into gets the first byte that is left. -/
theorem reading_visit {move : Move} {bytes : List UInt8}
    (carries : emulator.tape.Carries bytes) {register : Register} {outcome : Outcome}
    (reads : Visit.reading? ⟨emulator, .move move⟩ = some (register, outcome)) :
    outcome.error = none ∧
      (register ≠ .zero → outcome.emulator.registers.read register =
        (bytes[0]?.map UInt8.toUInt32).getD 0xffffffff) := by
  cases move with
  | exchange change => cases reads
  | back count => cases reads
  | step =>
      obtain ⟨found, isInput, same⟩ := Option.map_eq_some_iff.mp reads
      cases same
      obtain ⟨noError, -, registersEq⟩ := step_of_input coherent isInput
      refine ⟨noError, fun notZero => ?_⟩
      have first := carries.read.1
      change emulator.step.emulator.registers.read register = _
      rw [registersEq, Registers.read_write, if_pos ⟨rfl, notZero⟩]
      rw [first, List.head?_eq_getElem?]
      cases bytes[0]? with
      | none => rfl
      | some value => rfl

theorem tape_step_of_unsent (noInput : emulator.inputRegister? = none)
    (notSent : (if emulator.step.error = none then emulator.outputByte? else none) = none) :
    emulator.step.emulator.tape = emulator.tape := by
  cases stores : emulator.outputByte? with
  | none => exact tape_step_of_unused coherent noInput stores
  | some value =>
      have stored := step_of_output coherent stores
      cases written : emulator.tape.write value with
      | ok tape =>
          rw [written] at stored
          rw [stored.1, if_pos rfl, stores] at notSent
          cases notSent
      | error error =>
          rw [written] at stored
          exact stored.2

end Visit

theorem tape_of_unused_visit {visit : Visit} (coherent : visit.before.ram.Coherent)
    (isMove : visit.isMove = true) (noReading : visit.reading? = none)
    (notSent : visit.sent? = none) : visit.outcome.emulator.tape = visit.before.tape := by
  obtain ⟨emulator, request⟩ := visit
  cases request with
  | move move =>
      cases move with
      | step => exact tape_step_of_unsent coherent (Option.map_eq_none_iff.mp noReading) notSent
      | back count => exact tape_stepBack emulator count
      | exchange change => cases isMove
  | _ => cases isMove

/-- A store to the output succeeds if the sink accepts the byte. -/
theorem store_visit_iff {visit : Visit} (coherent : visit.before.ram.Coherent)
    (isStep : visit.request = .move .step) {value : UInt8}
    (stores : visit.before.outputByte? = some value) :
    visit.outcome.error = none ↔ ∃ sink, visit.before.tape.output = some sink ∧
      sink.hasRoom (sink.stored value).length = true := by
  obtain ⟨emulator, request⟩ := visit
  cases isStep
  rw [← Tape.write_ok_iff]
  have stored := step_of_output coherent stores
  change emulator.step.error = none ↔ ∃ later, emulator.tape.write value = .ok later
  cases written : emulator.tape.write value with
  | ok tape =>
      rw [written] at stored
      exact ⟨fun _ => ⟨tape, rfl⟩, fun _ => stored.1⟩
  | error error =>
      rw [written] at stored
      constructor
      · intro noError
        exact absurd noError stored.1
      · rintro ⟨later, ⟨⟩⟩

/-- What visits have passed on since the start, and what the readings among them got. -/
structure Served (origin : Emulator) (bytes : List UInt8) (past : List Visit)
    (emulator : Emulator) : Prop where
  coherent : emulator.ram.Coherent
  passed : Passed origin.tape bytes (past.filterMap Visit.reading?).length
    (past.filterMap Visit.sent?) emulator.tape
  readings : ∀ (index : Nat) (register : Register) (outcome : Outcome),
    (past.filterMap Visit.reading?)[index]? = some (register, outcome) →
      outcome.error = none ∧
        (register ≠ .zero → outcome.emulator.registers.read register =
          (bytes[index]?.map UInt8.toUInt32).getD 0xffffffff)

/-- One more visit adds its account to those before it. -/
theorem Served.visit {origin emulator : Emulator} {bytes : List UInt8} {past : List Visit}
    (served : Served origin bytes past emulator) {move : Move} (settles : move.Settles) :
    Served origin bytes (past ++ [⟨emulator, .move move⟩]) (emulator.make move).emulator where
  coherent := coherent_make served.coherent move
  passed := by
    have all := served.passed.trans (passed_visit served.coherent settles served.passed.carries)
    simpa only [List.filterMap_eq_flatMap_toList, List.flatMap_append, List.flatMap_singleton,
      List.length_append] using all
  readings := by
    intro index register outcome found
    rw [List.filterMap_append] at found
    by_cases earlier : index < (past.filterMap Visit.reading?).length
    · rw [List.getElem?_append_left earlier] at found
      exact served.readings index register outcome found
    · rw [List.getElem?_append_right (Nat.le_of_not_lt earlier)] at found
      cases reads : Visit.reading? ⟨emulator, .move move⟩ with
      | none =>
          rw [List.filterMap_cons_none reads] at found
          cases found
      | some reading =>
          rw [List.filterMap_cons_some reads, List.filterMap_nil] at found
          have last : index = (past.filterMap Visit.reading?).length := by
            have inside := (List.getElem?_eq_some_iff.mp found).1
            rw [List.length_singleton] at inside
            omega
          rw [last, Nat.sub_self, List.getElem?_cons_zero] at found
          cases found
          have read := reading_visit served.coherent served.passed.carries reads
          rwa [List.getElem?_drop, Nat.add_zero, ← last] at read

theorem served_play {origin : Emulator} (coherent : origin.ram.Coherent) {bytes : List UInt8}
    (carries : origin.tape.Carries bytes) {moves : List Move}
    (settles : ∀ move ∈ moves, move.Settles) :
    Served origin bytes (origin.course moves) (origin.play moves) := by
  apply @play_induction (Served origin bytes)
  · exact ⟨coherent, .same carries, by simp⟩
  · intro past current move member served
    exact served.visit (settles move member)

/-- After a load, steps go forwards and back, while the sink accepts and refuses bytes as it
likes.  The bytes that successful steps store to the output are what is added to it, in
order.  The loads from the input get the bytes that the input delivers, in order, and then
the end mark; they all succeed, and one into register zero takes its byte like the others.
The tape counts these bytes.  A store to the output succeeds if the sink accepts the byte.
No other step and no step back changes the tape. -/
theorem tape_traffic_exact {origin : Emulator} (loaded : Loaded origin) {bytes : List UInt8}
    (carries : origin.tape.Carries bytes) (moves : List Move)
    (settles : ∀ move ∈ moves, move.Settles) :
    let visits := origin.course moves
    let final := origin.play moves
    let sent := visits.filterMap Visit.sent?
    let readings := visits.filterMap Visit.reading?
    (∀ sink, origin.tape.output = some sink → ∃ finalSink, final.tape.output = some finalSink ∧
      finalSink.bytes.toList = sink.bytes.toList ++ sent.flatMap sink.stored ∧
      (sink.carriageReturns = false →
        finalSink.bytes.toList = sink.bytes.toList ++ sent)) ∧
    (∀ (index : Nat) (register : Register) (outcome : Outcome),
      readings[index]? = some (register, outcome) →
      outcome.error = none ∧
      (register ≠ .zero → outcome.emulator.registers.read register =
        (bytes[index]?.map UInt8.toUInt32).getD 0xffffffff)) ∧
    final.tape.bytesRead = min readings.length bytes.length ∧
    final.tape.bytesWritten = sent.length ∧
    (∀ visit ∈ visits, visit.request = .move .step →
      ∀ value, visit.before.outputByte? = some value →
        (visit.outcome.error = none ↔ ∃ sink, visit.before.tape.output = some sink ∧
          sink.hasRoom (sink.stored value).length = true)) ∧
    ∀ visit ∈ visits, visit.isMove = true → visit.reading? = none → visit.sent? = none →
      visit.outcome.emulator.tape = visit.before.tape := by
  intro visits final sent readings
  have coherent := loaded.fresh.coherent
  have served := served_play coherent carries settles
  have coherentBefore : ∀ visit ∈ visits, visit.before.ram.Coherent :=
    (@play_invariant (fun current => current.ram.Coherent) origin moves coherent
      fun _ move _ now => coherent_make now move).1
  have rewound : origin.tape.bytesRead = 0 ∧ origin.tape.bytesWritten = 0 := by
    obtain ⟨earlier, words, registers, ram, rfl, -⟩ := loaded.prepared
    exact ⟨rfl, rfl⟩
  refine ⟨?_, served.readings, ?_, ?_, ?_, ?_⟩
  · intro sink isOpen
    obtain ⟨finalSink, stillOpen, -, stored⟩ := served.passed.output sink isOpen
    refine ⟨finalSink, stillOpen, stored, fun plain => ?_⟩
    rw [stored, Sink.flatMap_stored plain]
  · rw [served.passed.bytesRead, rewound.1, Nat.zero_add]
  · rw [served.passed.bytesWritten, rewound.2, Nat.zero_add]
  · intro visit member isStep value stores
    exact store_visit_iff (coherentBefore visit member) isStep stores
  · intro visit member isMove noReading notSent
    exact tape_of_unused_visit (coherentBefore visit member) isMove noReading notSent

/-- A byte is read into register zero, another one into a register, and that one is written. -/
def copiesSecondByte : Emulator :=
  let tape : Tape :=
    { Tape.detached with
      input := some [.empty, .byte 0x61, .byteAndFailure 0x62, .failure]
      output := some .unlimited }
  let image : List UInt8 := [0x8c, 0x20, 0, 4, 0x8c, 0x23, 0, 4, 0xac, 0x23, 0, 0xc]
  ({ ofSize 3 with tape := tape }.loadTwoInts image (-0x10000) 0).emulator

/-- Set how many bytes the sink is ready to hold. -/
def setLimit (limit : Option Nat) (tape : Tape) : Tape :=
  { tape with output := tape.output.map fun sink => { sink with limit := limit } }

theorem resettled_setLimit (limit : Option Nat) (tape : Tape) :
    Resettled tape (setLimit limit tape) := by
  refine ⟨rfl, rfl, rfl, fun sink isOpen => ?_⟩
  exact ⟨{ sink with limit := limit }, by rw [setLimit, isOpen, Option.map_some], rfl, rfl⟩

/-- The byte is refused at first.  After it has been written, the last two steps are undone
and made again. -/
def refusedThenCopiedTwice : List Move :=
  [.step, .step, .exchange (setLimit (some 0)), .step, .back 1, .exchange (setLimit none),
    .step, .back 2, .step, .step]

theorem tape_traffic_exact_copied :
    let visits := copiesSecondByte.course refusedThenCopiedTwice
    let final := copiesSecondByte.play refusedThenCopiedTwice
    Loaded copiesSecondByte ∧ copiesSecondByte.tape.Carries [0x61, 0x62] ∧
    visits.filterMap Visit.sent? = [0x62, 0xff] ∧
    (visits.filterMap Visit.reading?).map Prod.fst = [0, 3, 3] ∧
    (∃ sink, final.tape.output = some sink ∧ sink.bytes.toList = [0x62, 0xff]) ∧
    final.tape.bytesRead = 2 ∧ final.tape.bytesWritten = 2 ∧
    (∃ outcome, (visits.filterMap Visit.reading?)[2]? = some (3, outcome) ∧
      outcome.emulator.registers.read 3 = 0xffffffff) := by
  intro visits final
  have loaded : Loaded copiesSecondByte := .twoInts _ _ _ _ (by decide +kernel)
  have carries : copiesSecondByte.tape.Carries [0x61, 0x62] :=
    @Delivers.next 1 _ _ _ _ (by decide) (.inl rfl)
      (@Delivers.next 0 _ _ _ _ (by decide) (.inr rfl) (.ended (by simp)))
  have evaluated : visits.filterMap Visit.sent? = [0x62, 0xff] ∧
      (visits.filterMap Visit.reading?).map Prod.fst = [0, 3, 3] := by decide +kernel
  obtain ⟨sent, registers⟩ := evaluated
  have readings : (visits.filterMap Visit.reading?).length = 3 := by
    rw [← List.length_map Prod.fst, registers]
    rfl
  have settles : ∀ move ∈ refusedThenCopiedTwice, move.Settles := by
    simpa [refusedThenCopiedTwice, Move.Settles] using
      ⟨resettled_setLimit (some 0), resettled_setLimit none⟩
  obtain ⟨output, read, bytesRead, bytesWritten, -, -⟩ :=
    tape_traffic_exact loaded carries refusedThenCopiedTwice settles
  refine ⟨loaded, carries, sent, registers, ?_, ?_, ?_, ?_⟩
  · obtain ⟨sink, isOpen, -, plain⟩ := output .unlimited rfl
    exact ⟨sink, isOpen, (plain rfl).trans sent⟩
  · exact bytesRead.trans (by rw [readings]; rfl)
  · exact bytesWritten.trans (by rw [sent]; rfl)
  · have third : ((visits.filterMap Visit.reading?).map Prod.fst)[2]? = some 3 := by
      rw [registers]
      rfl
    rw [List.getElem?_map] at third
    obtain ⟨⟨register, outcome⟩, found, isThird⟩ := Option.map_eq_some_iff.mp third
    cases isThird
    exact ⟨outcome, found, (read 2 3 outcome found).2 (by decide)⟩

end Emulator
end ReversibleMips
