import ReversibleMips.Proofs.StepCases

/-!
# Steady tapes

A tape without input, and without an output that may refuse bytes, answers every read and
every write alike, however much has passed before.  A step then does not depend on the
tape: on two tapes that are alike it makes the same writes, records the same frame, tells
the same events and ends the same way.
-/

namespace ReversibleMips

namespace Sink

/-- Whatever is written, the sink accepts it. -/
def Tireless (sink : Sink) : Prop :=
  ∀ values : List UInt8, ∃ last, values.foldlM accept sink = .ok last

theorem Tireless.accept {sink : Sink} (tireless : sink.Tireless) (value : UInt8) :
    ∃ next, sink.accept value = .ok next ∧ next.Tireless := by
  cases accepted : sink.accept value with
  | error error =>
      obtain ⟨last, accepts⟩ := tireless [value]
      rw [List.foldlM_cons, accepted] at accepts
      cases accepts
  | ok next =>
      refine ⟨next, rfl, ?_⟩
      intro values
      obtain ⟨last, accepts⟩ := tireless (value :: values)
      rw [List.foldlM_cons, accepted] at accepts
      exact ⟨last, accepts⟩

theorem tireless_of_unlimited {sink : Sink} (unlimited : sink.limit = none) :
    sink.Tireless := by
  intro values
  induction values generalizing sink with
  | nil => exact ⟨sink, rfl⟩
  | cons value values ih =>
      have accepted :
          sink.accept value = .ok { sink with bytes := sink.bytes ++ sink.stored value } := by
        simp [accept, hasRoom, unlimited]
      rw [List.foldlM_cons, accepted]
      exact @ih { sink with bytes := sink.bytes ++ sink.stored value } unlimited

end Sink

namespace Tape

/-- There is no input, and no output that may refuse a byte. -/
structure Steady (tape : Tape) : Prop where
  noInput : tape.input = none
  tireless : ∀ sink, tape.output = some sink → sink.Tireless

/-- Two steady tapes of which either both or none have an output. -/
structure Alike (first second : Tape) : Prop where
  firstSteady : first.Steady
  secondSteady : second.Steady
  outputs : first.output.isSome = second.output.isSome

theorem Alike.trans {first second third : Tape} (before : first.Alike second)
    (after : second.Alike third) : first.Alike third :=
  ⟨before.firstSteady, after.secondSteady, before.outputs.trans after.outputs⟩

theorem Alike.symm {first second : Tape} (alike : first.Alike second) :
    second.Alike first :=
  ⟨alike.secondSteady, alike.firstSteady, alike.outputs.symm⟩

theorem Steady.alike {tape : Tape} (steady : tape.Steady) : tape.Alike tape :=
  ⟨steady, steady, rfl⟩

theorem Steady.read_eq {tape : Tape} (steady : tape.Steady) : tape.read = (none, tape) := by
  rw [read, steady.noInput]

theorem write_of_closed {tape : Tape} (closed : tape.output = none) (value : UInt8) :
    tape.write value = .error .closed := by
  obtain ⟨input, output, bytesRead, bytesWritten⟩ := tape
  cases closed
  rfl

theorem Steady.write {tape : Tape} (steady : tape.Steady) {sink : Sink}
    (isOpen : tape.output = some sink) (value : UInt8) :
    ∃ next, tape.write value = .ok next ∧ next.Alike tape := by
  obtain ⟨nextSink, accepted, tireless⟩ := (steady.tireless sink isOpen).accept value
  obtain ⟨input, output, bytesRead, bytesWritten⟩ := tape
  cases isOpen
  refine ⟨⟨input, some nextSink, bytesRead, bytesWritten + 1⟩, ?_, ?_, steady, rfl⟩
  · simp only [Tape.write, accepted]
    rfl
  · constructor
    · exact steady.noInput
    · rintro _ ⟨⟩
      exact tireless

/-- Writing a byte fails on both of two tapes that are alike, or on neither. -/
theorem Alike.write {first second : Tape} (alike : first.Alike second) (value : UInt8) :
    (first.write value = .error .closed ∧ second.write value = .error .closed) ∨
      ∃ firstNext secondNext, first.write value = .ok firstNext ∧
        second.write value = .ok secondNext ∧ firstNext.Alike second := by
  cases opened : first.output with
  | none =>
      have closed : second.output = none := by
        rw [← Option.not_isSome_iff_eq_none, ← alike.outputs, opened]
        decide
      exact .inl ⟨write_of_closed opened value, write_of_closed closed value⟩
  | some sink =>
      have isOpen : second.output.isSome = true := by rw [← alike.outputs, opened]; rfl
      obtain ⟨other, otherEq⟩ := Option.isSome_iff_exists.mp isOpen
      obtain ⟨firstNext, firstEq, firstAlike⟩ := alike.firstSteady.write opened value
      obtain ⟨secondNext, secondEq, -⟩ := alike.secondSteady.write otherEq value
      exact .inr ⟨firstNext, secondNext, firstEq, secondEq, firstAlike.trans alike⟩

end Tape

namespace Performance

def withTape (performance : Performance) (tape : Tape) : Performance :=
  { performance with emulator := { performance.emulator with tape := tape } }

end Performance

namespace Outcome

def withTape (outcome : Outcome) (tape : Tape) : Outcome :=
  { outcome with emulator := { outcome.emulator with tape := tape } }

end Outcome

namespace Emulator

/-- What an instruction asks for does not depend on the tape. -/
theorem effect_withTape (instruction : Instruction) (machine : Machine) (tape : Tape) :
    instruction.effect { machine with tape := tape } = instruction.effect machine := by
  obtain ⟨op, word, address⟩ := instruction
  cases op <;> rfl

section

variable {emulator : Emulator} {tape : Tape} (alike : tape.Alike emulator.tape)

include alike

theorem perform_alike (effect : Effect) :
    ∃ next, { emulator with tape := tape }.perform effect =
        (emulator.perform effect).withTape next ∧ next.Alike emulator.tape := by
  cases effect with
  | write register value => exact ⟨tape, rfl, alike⟩
  | writePair high low => exact ⟨tape, rfl, alike⟩
  | store address value =>
      refine ⟨tape, ?_, alike⟩
      simp only [perform, setMemory]
      cases emulator.ram.read address with
      | error error => rfl
      | ok prior => rfl
  | receive register =>
      refine ⟨tape, ?_, alike⟩
      simp only [perform, alike.firstSteady.read_eq, alike.secondSteady.read_eq]
      rfl
  | send value =>
      rcases alike.write value with ⟨first, second⟩ | ⟨firstNext, secondNext, first, second, next⟩
      · refine ⟨tape, ?_, alike⟩
        simp only [perform, first, second]
        rfl
      · refine ⟨firstNext, ?_, next⟩
        simp only [perform, first, second]
        rfl
  | jump link target =>
      refine ⟨tape, ?_, alike⟩
      cases link <;> cases target <;> rfl

theorem execute_alike (instruction : Instruction) :
    ∃ next, { emulator with tape := tape }.execute instruction =
        (emulator.execute instruction).withTape next ∧ next.Alike emulator.tape := by
  have effectEq := effect_withTape instruction emulator.toMachine tape
  unfold execute
  simp only [effectEq]
  cases instruction.effect emulator.toMachine with
  | error fault => exact ⟨tape, rfl, alike⟩
  | ok effect => exact perform_alike alike effect

theorem advance_alike (instruction : Instruction) :
    ∃ next, { emulator with tape := tape }.advance instruction =
        (emulator.advance instruction).withTape next ∧ next.Alike emulator.tape := by
  simp only [advance_eq]
  cases emulator.pc.add 1 with
  | error error => exact ⟨tape, rfl, alike⟩
  | ok place =>
      have moved : tape.Alike { emulator with pc := place }.tape := alike
      obtain ⟨next, executed, nextAlike⟩ := execute_alike moved instruction
      refine ⟨next, ?_, nextAlike⟩
      simp only [executed]
      rfl

/-- On two tapes that are alike a step does the same. -/
theorem step_alike :
    ∃ next, { emulator with tape := tape }.step = emulator.step.withTape next ∧
      next.Alike emulator.tape := by
  unfold step Machine.terminated
  simp only
  split
  · exact ⟨tape, rfl, alike⟩
  · cases emulator.ram.instruction emulator.pc with
    | error error => exact ⟨tape, rfl, alike⟩
    | ok instruction =>
        obtain ⟨next, advanced, nextAlike⟩ := advance_alike alike instruction
        refine ⟨next, ?_, nextAlike⟩
        simp only [advanced]
        rfl

end

theorem alike_step {emulator : Emulator} (steady : emulator.tape.Steady) :
    emulator.step.emulator.tape.Alike emulator.tape := by
  obtain ⟨next, stepEq, nextAlike⟩ := step_alike steady.alike
  have tapeEq : emulator.step.emulator.tape = next :=
    congrArg (fun outcome : Outcome => outcome.emulator.tape) stepEq
  rw [tapeEq]
  exact nextAlike

end Emulator
end ReversibleMips
