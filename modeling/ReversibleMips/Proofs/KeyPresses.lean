import ReversibleMips.Emulator.Stepper
import ReversibleMips.Proofs.Reversal
import ReversibleMips.Proofs.SteadyTape

/-!
# Pressing keys

Stepping forward and back by keys moves along the states that a program goes through when
it just runs.  These states and a position among them are all that there is to know about
the emulator after any keys: stepping forward from a position does what it did the first
time, because the tape is steady, and stepping back finds the journal of a plain run.
-/

namespace ReversibleMips
namespace Emulator

def trace (origin : Emulator) : Nat → Emulator
  | 0 => origin
  | steps + 1 => (origin.trace steps).step.emulator

/-- Where a key leads to from a position of the trace.  The key `n` goes to the next
state, unless the program has returned, and the key `r` to the state before, if there is
one. -/
def follow (origin : Emulator) (position : Nat) (key : UInt8) : Nat :=
  if key = 0x6e then
    if (origin.trace position).terminated then position else position + 1
  else if key = 0x72 then
    position - 1
  else
    position

def position (origin : Emulator) (keys : List UInt8) : Nat :=
  keys.foldl origin.follow 0

def pressAll (emulator : Emulator) (keys : List UInt8) : Emulator :=
  keys.foldl (fun emulator key => (emulator.press key).emulator) emulator

theorem press_next (emulator : Emulator) : emulator.press 0x6e = emulator.pressNext :=
  rfl

theorem press_reverse (emulator : Emulator) : emulator.press 0x72 = emulator.pressReverse :=
  rfl

/-- Every other key leaves the emulator alone, and only two of them quit. -/
theorem press_other (emulator : Emulator) {key : UInt8} (notNext : key ≠ 0x6e)
    (notReverse : key ≠ 0x72) :
    (emulator.press key).emulator = emulator ∧ (emulator.press key).error = none ∧
      ((emulator.press key).quit = true ↔ key = 0x71 ∨ key = 0x03) := by
  have code (number : UInt8) : key.toNat = number.toNat ↔ key = number := UInt8.toNat_inj
  unfold press
  split
  · rename_i isNext
    exact absurd ((code 0x6e).mp isNext) notNext
  · rename_i isReverse
    exact absurd ((code 0x72).mp isReverse) notReverse
  · rename_i isDump
    exact ⟨rfl, rfl, by simp [(code 0x64).mp isDump]⟩
  · rename_i isQuit
    exact ⟨rfl, rfl, by simp [(code 0x71).mp isQuit]⟩
  · rename_i isInterrupt
    exact ⟨rfl, rfl, by simp [(code 0x03).mp isInterrupt]⟩
  · rename_i notQuit notInterrupt
    refine ⟨rfl, rfl, ?_⟩
    have neither : ¬ (key = 0x71 ∨ key = 0x03) := by
      rintro (rfl | rfl)
      · exact notQuit rfl
      · exact notInterrupt rfl
    simp [neither]

theorem pressNext_of_terminated {emulator : Emulator}
    (terminated : emulator.terminated = true) :
    emulator.pressNext =
      ⟨emulator, false, StepError.message .terminated ++ "\n", [], none⟩ := by
  rw [pressNext, step_of_terminated terminated]

/-- The error of a step of a program that has not returned is about an instruction. -/
theorem step_error_of_running {emulator : Emulator} (running : emulator.terminated = false)
    {error : EmulatorError} (failed : emulator.step.error = some error) :
    ∃ pc instruction fault, error = .step (.failed pc instruction fault) := by
  obtain ⟨instruction, performance, -, stepEq⟩ := step_of_running running
  rw [stepEq] at failed
  cases faultEq : performance.fault with
  | none => simp [conclude, faultEq] at failed
  | some fault =>
      simp only [conclude, faultEq, Option.map_some, Option.some.injEq] at failed
      exact ⟨emulator.pc, instruction, fault, failed.symm⟩

theorem pressNext_of_running {emulator : Emulator} (running : emulator.terminated = false) :
    emulator.pressNext =
      ⟨emulator.step.emulator, false, "", emulator.step.events, emulator.step.error⟩ := by
  have failure := @step_error_of_running emulator running
  unfold pressNext
  split
  · rename_i stepEq
    rw [stepEq] at failure
    obtain ⟨pc, instruction, fault, impossible⟩ := failure rfl
    cases impossible
  · rename_i stepEq
    rw [stepEq]

theorem pressReverse_of_unused {emulator : Emulator} (unused : emulator.history = 0) :
    emulator.pressReverse =
      ⟨emulator, false, EmulatorError.message .noHistory ++ "\n", [], none⟩ := by
  have refused : emulator.stepBack 1 = ⟨emulator, [], some .noHistory⟩ := by
    rw [stepBack, unused]
    rfl
  rw [pressReverse, refused]

theorem pressReverse_of_recorded {emulator earlier : Emulator} {past : List Emulator}
    (recorded : Recorded emulator (earlier :: past)) :
    (emulator.pressReverse).emulator = { earlier with tape := emulator.tape } ∧
      (emulator.pressReverse).quit = false ∧ (emulator.pressReverse).error = none := by
  obtain ⟨events, undone⟩ := recorded.undo
  have inside : ¬ ((1 : Int) < 0 ∨ (emulator.history : Int) < 1) := by
    rw [recorded.history_eq, List.length_cons]
    omega
  have back : emulator.stepBack 1 =
      ⟨{ earlier with tape := emulator.tape }, events ++ [], none⟩ := by
    rw [stepBack, if_neg inside]
    change undoAll 1 emulator = _
    rw [undoAll, undone]
    rfl
  rw [pressReverse, back]
  exact ⟨rfl, rfl, rfl⟩

section Trace

variable {origin : Emulator}

/-- The states before a position of the trace, the latest first. -/
def before (origin : Emulator) : Nat → List Emulator
  | 0 => []
  | steps + 1 => origin.trace steps :: origin.before steps

theorem coherent_trace (loaded : Loaded origin) (steps : Nat) :
    (origin.trace steps).ram.Coherent := by
  induction steps with
  | zero => exact loaded.fresh.coherent
  | succ steps ih => exact coherent_step ih

/-- Up to where the program returns, the journal records every state of the trace. -/
theorem recorded_trace (loaded : Loaded origin) {steps : Nat}
    (running : ∀ earlier < steps, (origin.trace earlier).terminated = false) :
    Recorded (origin.trace steps) (origin.before steps) := by
  induction steps with
  | zero => exact .origin loaded.fresh.journal
  | succ steps ih =>
      have recorded := ih fun earlier below => running earlier (Nat.lt_succ_of_lt below)
      exact recorded.step (coherent_trace loaded steps) (running steps (Nat.lt_succ_self steps))

theorem alike_trace (steady : origin.tape.Steady) (steps : Nat) :
    (origin.trace steps).tape.Alike origin.tape := by
  induction steps with
  | zero => exact steady.alike
  | succ steps ih => exact (alike_step ih.firstSteady).trans ih

end Trace

/-- An emulator is at a position of the trace, except for its tape. -/
structure Follows (origin : Emulator) (position : Nat) (emulator : Emulator) : Prop where
  state : emulator = { origin.trace position with tape := emulator.tape }
  alike : emulator.tape.Alike origin.tape
  running : ∀ earlier < position, (origin.trace earlier).terminated = false

namespace Follows

variable {origin emulator : Emulator} {position : Nat}

theorem terminated_eq (follows : Follows origin position emulator) :
    emulator.terminated = (origin.trace position).terminated := by
  rw [follows.state]
  rfl

/-- A step from a position of the trace leads to the next one, and ends as it does there. -/
theorem step (steady : origin.tape.Steady) (follows : Follows origin position emulator)
    (notReturned : (origin.trace position).terminated = false) :
    Follows origin (position + 1) emulator.step.emulator ∧
      emulator.step.error = (origin.trace position).step.error := by
  have here := alike_trace steady position
  obtain ⟨next, stepEq, nextAlike⟩ := step_alike (follows.alike.trans here.symm)
  rw [← follows.state] at stepEq
  rw [stepEq]
  refine ⟨⟨rfl, nextAlike.trans here, ?_⟩, rfl⟩
  intro earlier below
  rcases Nat.lt_succ_iff_lt_or_eq.mp below with earlier | isLast
  · exact follows.running _ earlier
  · rw [isLast]
    exact notReturned

theorem recorded (loaded : Loaded origin) (follows : Follows origin position emulator) :
    Recorded emulator (origin.before position) := by
  rw [follows.state]
  exact (recorded_trace loaded follows.running).withTape emulator.tape

theorem pressNext (steady : origin.tape.Steady) (follows : Follows origin position emulator) :
    Follows origin (origin.follow position 0x6e) emulator.pressNext.emulator ∧
      emulator.pressNext.quit = false ∧
      ∀ error, emulator.pressNext.error = some error ↔
        (∃ pc instruction fault, error = .step (.failed pc instruction fault)) ∧
          (origin.trace position).step.error = some error := by
  have terminatedEq := follows.terminated_eq
  cases returned : (origin.trace position).terminated with
  | true =>
      have stays : origin.follow position 0x6e = position := by simp [follow, returned]
      rw [pressNext_of_terminated (terminatedEq.trans returned), stays,
        step_of_terminated returned]
      refine ⟨follows, rfl, fun error => ?_⟩
      constructor
      · rintro ⟨⟩
      · rintro ⟨⟨pc, instruction, fault, rfl⟩, ⟨⟩⟩
  | false =>
      have moves : origin.follow position 0x6e = position + 1 := by simp [follow, returned]
      obtain ⟨next, errorEq⟩ := follows.step steady returned
      rw [pressNext_of_running (terminatedEq.trans returned), moves]
      refine ⟨next, rfl, fun error => ?_⟩
      simp only [errorEq]
      constructor
      · intro failed
        exact ⟨step_error_of_running returned failed, failed⟩
      · exact And.right

theorem pressReverse (loaded : Loaded origin) (follows : Follows origin position emulator) :
    Follows origin (origin.follow position 0x72) emulator.pressReverse.emulator ∧
      emulator.pressReverse.quit = false ∧ emulator.pressReverse.error = none := by
  have recorded := follows.recorded loaded
  cases position with
  | zero =>
      rw [pressReverse_of_unused recorded.history_eq]
      exact ⟨follows, rfl, rfl⟩
  | succ position =>
      obtain ⟨stateEq, quitEq, errorEq⟩ := pressReverse_of_recorded recorded
      refine ⟨?_, quitEq, errorEq⟩
      rw [stateEq]
      refine ⟨rfl, follows.alike, ?_⟩
      intro earlier below
      exact follows.running earlier (Nat.lt_succ_of_lt below)

/-- One key press moves along the trace. -/
theorem press (loaded : Loaded origin) (steady : origin.tape.Steady)
    (follows : Follows origin position emulator) (key : UInt8) :
    Follows origin (origin.follow position key) (emulator.press key).emulator := by
  by_cases isNext : key = 0x6e
  · rw [isNext, press_next]
    exact (follows.pressNext steady).1
  · by_cases isReverse : key = 0x72
    · rw [isReverse, press_reverse]
      exact (follows.pressReverse loaded).1
    · have stays : origin.follow position key = position := by
        simp [follow, isNext, isReverse]
      rw [stays, (press_other emulator isNext isReverse).1]
      exact follows

/-- Any keys move along the trace. -/
theorem pressAll (loaded : Loaded origin) (steady : origin.tape.Steady)
    (follows : Follows origin position emulator) (keys : List UInt8) :
    Follows origin (keys.foldl origin.follow position) (emulator.pressAll keys) := by
  induction keys generalizing emulator position with
  | nil => exact follows
  | cons key keys ih => exact ih (follows.press loaded steady key)

end Follows

/-- Stepping back and forth only moves along one trace.  After any keys the registers,
memory, program counter and journal are those of the state that the keys lead to, and a
further key quits exactly if it is `q` or an interrupt.  It has an error exactly if it is
`n` and the step from this state fails on an instruction; that the program has returned, or
that there is nothing to undo, is never one. -/
theorem keys_follow_trace {origin : Emulator} (loaded : Loaded origin)
    (steady : origin.tape.Steady) (keys : List UInt8) (key : UInt8) :
    let emulator := origin.pressAll keys
    let state := origin.trace (origin.position keys)
    let pressed := emulator.press key
    emulator = { state with tape := emulator.tape } ∧
      (pressed.quit = true ↔ key = 0x71 ∨ key = 0x03) ∧
      pressed.error ≠ some (.step .terminated) ∧ pressed.error ≠ some .noHistory ∧
      ∀ error, pressed.error = some error ↔
        key = 0x6e ∧ (∃ pc instruction fault, error = .step (.failed pc instruction fault)) ∧
          state.step.error = some error := by
  intro emulator state pressed
  have follows : Follows origin (origin.position keys) emulator :=
    Follows.pressAll loaded steady ⟨rfl, steady.alike, by simp⟩ keys
  have errors : (pressed.quit = true ↔ key = 0x71 ∨ key = 0x03) ∧
      ∀ error, pressed.error = some error ↔
        key = 0x6e ∧ (∃ pc instruction fault, error = .step (.failed pc instruction fault)) ∧
          state.step.error = some error := by
    by_cases isNext : key = 0x6e
    · subst isNext
      obtain ⟨-, quitEq, errorIff⟩ := follows.pressNext steady
      simp only [pressed, press_next, quitEq, errorIff]
      exact ⟨by decide, fun error => by simp [state]⟩
    · by_cases isReverse : key = 0x72
      · subst isReverse
        obtain ⟨-, quitEq, errorEq⟩ := follows.pressReverse loaded
        simp only [pressed, press_reverse, quitEq, errorEq]
        exact ⟨by decide, fun error => by simp⟩
      · obtain ⟨-, errorEq, quitIff⟩ := press_other emulator isNext isReverse
        exact ⟨quitIff, fun error => by simp [pressed, errorEq, isNext]⟩
  obtain ⟨quitIff, errorIff⟩ := errors
  refine ⟨follows.state, quitIff, ?_, ?_, errorIff⟩
  · intro isTerminated
    obtain ⟨-, ⟨pc, instruction, fault, impossible⟩, -⟩ := (errorIff _).mp isTerminated
    cases impossible
  · intro isUnused
    obtain ⟨-, ⟨pc, instruction, fault, impossible⟩, -⟩ := (errorIff _).mp isUnused
    cases impossible

/-- A program that writes a byte to an output without a limit, and returns. -/
def sending : Emulator :=
  ({ ofSize 4 with tape := { Tape.detached with output := some .unlimited } }.load
    [0, 0, 8, 0x14, 0xff, 0xff, 0, 0x0c, 0xac, 0x22, 0, 0, 3, 0xe0, 0, 8]).emulator

/-- The byte is written, taken back and written again; the last two keys go back. -/
def sendingKeys : List UInt8 := [0x6e, 0x6e, 0x72, 0x6e, 0x6e, 0x6e, 0x72, 0x72]

theorem keys_follow_trace_sending :
    Loaded sending ∧ sending.tape.Steady ∧ sending.position sendingKeys = 1 ∧
      (sending.pressAll sendingKeys).tape.bytesWritten = 2 ∧
      sending.pressAll sendingKeys =
        { sending.trace 1 with tape := (sending.pressAll sendingKeys).tape } ∧
      ((sending.pressAll sendingKeys).press 0x71).quit = true := by
  have loaded : Loaded sending := .image _ _ (by decide +kernel)
  have steady : sending.tape.Steady := by
    refine ⟨by decide +kernel, ?_⟩
    intro sink isOpen
    have unlimited : sending.tape.output = some .unlimited := by decide +kernel
    rw [unlimited] at isOpen
    cases isOpen
    exact Sink.tireless_of_unlimited rfl
  have here : sending.position sendingKeys = 1 := by decide +kernel
  obtain ⟨stateEq, quitIff, -⟩ := keys_follow_trace loaded steady sendingKeys 0x71
  rw [here] at stateEq
  exact ⟨loaded, steady, here, by decide +kernel, stateEq, quitIff.mpr (.inl rfl)⟩

end Emulator
end ReversibleMips
