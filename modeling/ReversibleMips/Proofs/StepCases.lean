import ReversibleMips.Emulator.Step

/-!
# What a step can do

A step of a program that has not returned fails to fetch, fails to move on, fails
to find an effect, or makes the writes of an effect.  This file says so once, so that
what holds of every step can be shown case by case.

The writes of an instruction go into a frame of their own, which reaches the journal
only when the step is over.
-/

namespace ReversibleMips

namespace Performance

def afterMove (performance : Performance) (pc next : Address) : Performance :=
  ⟨performance.emulator, .ofPc pc :: performance.frame, .pc next :: performance.events,
    performance.fault⟩

end Performance

namespace Emulator

/-- What becomes of the instruction at the program counter, and which instruction that
is. -/
inductive Performs (emulator : Emulator) : Instruction → Performance → Prop
  | unfetched {error : RamError}
      (missing : emulator.ram.instruction emulator.pc = .error error) :
      Performs emulator (.decode 0 emulator.pc) ⟨emulator, [], [], some (.memory error)⟩
  | stuck {instruction : Instruction} {error : AddressError}
      (fetched : emulator.ram.instruction emulator.pc = .ok instruction)
      (last : emulator.pc.add 1 = .error error) :
      Performs emulator instruction
        ⟨emulator, [.ofPc emulator.pc], [], some (.address error)⟩
  | faulty {instruction : Instruction} {next : Address} {fault : Fault}
      (fetched : emulator.ram.instruction emulator.pc = .ok instruction)
      (moved : emulator.pc.add 1 = .ok next)
      (fails : instruction.effect { emulator with pc := next }.toMachine = .error fault) :
      Performs emulator instruction
        ⟨{ emulator with pc := next }, [.ofPc emulator.pc], [.pc next], some fault⟩
  | effective {instruction : Instruction} {next : Address} {effect : Effect}
      (fetched : emulator.ram.instruction emulator.pc = .ok instruction)
      (moved : emulator.pc.add 1 = .ok next)
      (found : instruction.effect { emulator with pc := next }.toMachine = .ok effect) :
      Performs emulator instruction
        (({ emulator with pc := next }.perform effect).afterMove emulator.pc next)

/-- Moving on comes first, and the instruction is executed only if there is a place to
move on to. -/
theorem advance_eq (emulator : Emulator) (instruction : Instruction) :
    emulator.advance instruction =
      match emulator.pc.add 1 with
      | .error error => ⟨emulator, [.ofPc emulator.pc], [], some (.address error)⟩
      | .ok next =>
          ({ emulator with pc := next }.execute instruction).afterMove emulator.pc next := by
  unfold advance
  cases emulator.pc.add 1 with
  | error error => rfl
  | ok next => rfl

theorem performs_advance {emulator : Emulator} {instruction : Instruction}
    (fetched : emulator.ram.instruction emulator.pc = .ok instruction) :
    Performs emulator instruction (emulator.advance instruction) := by
  rw [advance_eq]
  cases moved : emulator.pc.add 1 with
  | error error => exact .stuck fetched moved
  | ok next =>
      simp only [execute]
      cases found : instruction.effect { emulator with pc := next }.toMachine with
      | error fault => exact .faulty fetched moved found
      | ok effect => exact .effective fetched moved found

/-- The step of a program that has returned does nothing. -/
theorem step_of_terminated {emulator : Emulator} (terminated : emulator.terminated = true) :
    emulator.step = ⟨emulator, [], some (.step .terminated)⟩ := by
  simp [step, terminated]

/-- Every other step closes with what becomes of the instruction at the program
counter. -/
theorem step_of_running {emulator : Emulator} (running : emulator.terminated = false) :
    ∃ instruction performance, Performs emulator instruction performance ∧
      emulator.step = conclude emulator.pc instruction performance := by
  cases fetched : emulator.ram.instruction emulator.pc with
  | error error =>
      refine ⟨_, _, .unfetched fetched, ?_⟩
      simp [step, running, fetched]
  | ok instruction =>
      refine ⟨instruction, _, performs_advance fetched, ?_⟩
      simp [step, running, fetched]

/-- An instruction that is fetched is executed when the program counter has moved on. -/
theorem step_of_fetched {emulator : Emulator} {instruction : Instruction} {next : Address}
    (running : emulator.terminated = false)
    (fetched : emulator.ram.instruction emulator.pc = .ok instruction)
    (moved : emulator.pc.add 1 = .ok next) :
    emulator.step =
      conclude emulator.pc instruction
        (({ emulator with pc := next }.execute instruction).afterMove emulator.pc next) := by
  simp only [step, running, fetched, advance_eq, moved]
  rfl

theorem journal_setPc (emulator : Emulator) (link : Option (Register × Word))
    (target : Except Fault Address) :
    (emulator.setPc link target).emulator.journal = emulator.journal := by
  cases link <;> cases target <;> rfl

theorem journal_perform (emulator : Emulator) (effect : Effect) :
    (emulator.perform effect).emulator.journal = emulator.journal := by
  cases effect with
  | write register value => rfl
  | writePair high low => rfl
  | store address value =>
      simp only [perform, setMemory]
      split
      · rfl
      · rfl
  | receive register => rfl
  | send value =>
      simp only [perform]
      split
      · rfl
      · rfl
  | jump link target => exact journal_setPc emulator link target

theorem Performs.journal_eq {emulator : Emulator} {instruction : Instruction}
    {performance : Performance} (performs : Performs emulator instruction performance) :
    performance.emulator.journal = emulator.journal := by
  cases performs with
  | unfetched missing => rfl
  | stuck fetched last => rfl
  | faulty fetched moved fails => rfl
  | @effective _ next effect fetched moved found =>
      exact journal_perform { emulator with pc := next } effect

end Emulator
end ReversibleMips
