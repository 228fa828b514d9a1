import ReversibleMips.Proofs.Refinement

/-!
# How a program reaches the tape

A load from one address reads a byte of the input, and a store to another writes a byte to the
output.  Which of them a step makes can be told from the word that it executes and from the
registers.  All other steps, and all that goes back, leave the tape alone.
-/

namespace ReversibleMips

namespace Effect

def usesTape : Effect → Bool
  | .receive _ | .send _ => true
  | _ => false

end Effect

namespace Instruction

variable {word : Word} {address : Address} {machine : Machine}

/-- The byte that a load or a store accesses: a register plus the immediate, which wraps
around. -/
def accessed (word : Word) (registers : Registers) : Word :=
  registers.read word.regS + UInt32.ofInt word.immediate.toInt

theorem effectiveAddress_decode (registers : Registers) :
    (decode word address).effectiveAddress registers =
      Address.ofValue (accessed word registers) := by
  rw [decode_eq]
  rfl

theorem effect_of_input (isLoad : word.op = .lw)
    (place : accessed word machine.registers = Machine.inputAddress) :
    (decode word address).effect machine = .ok (.receive word.regT) := by
  have here : (decode word address).effectiveAddress machine.registers =
      .ok ⟨Machine.inputAddress, rfl⟩ := by
    rw [effectiveAddress_decode, place]
    rfl
  have opEq : (decode word address).op = .lw := by rw [op_decode, isLoad]
  unfold effect
  simp only [opEq, loadEffect, here, word_decode]
  rfl

theorem effect_of_output (isStore : word.op = .sw)
    (place : accessed word machine.registers = Machine.outputAddress) :
    (decode word address).effect machine =
      .ok (.send (machine.registers.read word.regT).toUInt8) := by
  have here : (decode word address).effectiveAddress machine.registers =
      .ok ⟨Machine.outputAddress, rfl⟩ := by
    rw [effectiveAddress_decode, place]
    rfl
  have opEq : (decode word address).op = .sw := by rw [op_decode, isStore]
  unfold effect
  simp only [opEq, storeEffect, here, word_decode]
  rfl

theorem accessed_of_effectiveAddress {place : Address}
    (found : (decode word address).effectiveAddress machine.registers = .ok place) :
    accessed word machine.registers = place.value := by
  rw [effectiveAddress_decode] at found
  unfold Address.ofValue at found
  split at found
  · cases found
    rfl
  · cases found

/-- Only loads from one place and stores to another use the tape. -/
theorem tape_of_effect {effect : Effect} (found : (decode word address).effect machine = .ok effect)
    (uses : effect.usesTape = true) :
    word.op = .lw ∧ accessed word machine.registers = Machine.inputAddress ∨
      word.op = .sw ∧ accessed word machine.registers = Machine.outputAddress := by
  have opEq : (decode word address).op = word.op := op_decode word address
  unfold Instruction.effect at found
  cases operation : word.op
  all_goals simp only [opEq, operation] at found
  case lw =>
    unfold loadEffect at found
    split at found
    · cases found
    · rename_i place isPlace
      split at found
      · rename_i isInput
        exact .inl ⟨rfl, (accessed_of_effectiveAddress isPlace).trans isInput⟩
      · split at found
        · cases found
        · cases found
          cases uses
  case sw =>
    unfold storeEffect at found
    split at found
    · cases found
    · rename_i place isPlace
      simp only at found
      split at found
      · rename_i isOutput
        exact .inr ⟨rfl, (accessed_of_effectiveAddress isPlace).trans isOutput⟩
      · cases found
        cases uses
  case jr | jalr =>
    unfold jumpEffect at found
    split at found
    · cases found
    · cases found
      cases uses
  case lis =>
    cases found
    unfold lisEffect at uses
    split at uses
    · cases uses
    · cases uses
  case beq | bne =>
    cases found
    unfold branch at uses
    split at uses
    · cases uses
    · cases uses
  case div | divu =>
    split at found
    · cases found
    · cases found
      cases uses
  case word | other => cases found
  all_goals
    cases found
    cases uses

end Instruction

namespace Emulator

theorem tape_perform {emulator : Emulator} {effect : Effect} (unused : effect.usesTape = false) :
    (emulator.perform effect).emulator.tape = emulator.tape := by
  cases effect with
  | write register value => rfl
  | writePair high low => rfl
  | store address value =>
      simp only [perform, setMemory]
      split
      · rfl
      · rfl
  | receive register => cases unused
  | send value => cases unused
  | jump link target =>
      cases link <;> cases target <;> rfl

/-- The word of the instruction that a step executes.  There has to be a word, and a place
behind it to move on to. -/
def executed? (emulator : Emulator) : Option Word :=
  if emulator.terminated = true ∨ emulator.pc.index = Address.maxIndex then none
  else emulator.ram.words[emulator.pc.index]?

def inputRegister? (emulator : Emulator) : Option Register :=
  emulator.executed?.bind fun word =>
    if word.op = .lw ∧ Instruction.accessed word emulator.registers = Machine.inputAddress then
      some word.regT
    else none

def outputByte? (emulator : Emulator) : Option UInt8 :=
  emulator.executed?.bind fun word =>
    if word.op = .sw ∧ Instruction.accessed word emulator.registers = Machine.outputAddress then
      some (emulator.registers.read word.regT).toUInt8
    else none

section Step

variable {emulator : Emulator} (coherent : emulator.ram.Coherent)
include coherent

theorem step_of_executed {word : Word} (executes : emulator.executed? = some word) :
    ∃ next, emulator.step =
      conclude emulator.pc (.decode word emulator.pc)
        (({ emulator with pc := next }.execute (.decode word emulator.pc)).afterMove
          emulator.pc next) := by
  unfold executed? at executes
  split at executes
  · cases executes
  · rename_i goesOn
    rw [not_or] at goesOn
    have running : emulator.terminated = false := by simpa using goesOn.1
    have before : emulator.pc.index < Address.maxIndex :=
      Nat.lt_of_le_of_ne emulator.pc.index_le_maxIndex goesOn.2
    have inside : emulator.pc.index < emulator.ram.words.size :=
      (Array.getElem?_eq_some_iff.mp executes).1
    have read : emulator.ram.read emulator.pc = .ok word := by
      rw [Ram.read, dif_pos inside]
      exact congrArg Except.ok (Array.getElem?_eq_some_iff.mp executes).2
    have fetched : emulator.ram.instruction emulator.pc = .ok (.decode word emulator.pc) := by
      rw [coherent.instruction_eq, read]
      rfl
    exact ⟨.ofNat (emulator.pc.index + 1),
      step_of_fetched running fetched (Address.add_one_eq before)⟩

/-- A step that executes nothing leaves the tape alone. -/
theorem tape_step_of_unexecuted (nothing : emulator.executed? = none) :
    emulator.step.emulator.tape = emulator.tape := by
  cases terminated : emulator.terminated with
  | true => rw [step_of_terminated terminated]
  | false =>
      obtain ⟨instruction, performance, performs, stepEq⟩ := step_of_running terminated
      have unmoved {found : Instruction} {next : Address}
          (fetched : emulator.ram.instruction emulator.pc = .ok found)
          (moved : emulator.pc.add 1 = .ok next) : False := by
        obtain ⟨word, read, -⟩ := read_of_fetched coherent fetched
        have last : emulator.pc.index ≠ Address.maxIndex := by
          intro isLast
          simp [Address.add, isLast, Address.ofIndex, Address.maxIndex] at moved
        have goesOn : ¬ (emulator.terminated = true ∨ emulator.pc.index = Address.maxIndex) := by
          simp [terminated, last]
        rw [executed?, if_neg goesOn, Ram.getElem?_of_read read] at nothing
        cases nothing
      rw [stepEq]
      cases performs with
      | unfetched missing => rfl
      | stuck fetched last => rfl
      | faulty fetched moved fails => exact (unmoved fetched moved).elim
      | effective fetched moved found => exact (unmoved fetched moved).elim

/-- A step that reads the input succeeds, and its register gets what was read. -/
theorem step_of_input {register : Register} (reads : emulator.inputRegister? = some register) :
    emulator.step.error = none ∧ emulator.step.emulator.tape = emulator.tape.read.2 ∧
      emulator.step.emulator.registers =
        emulator.registers.write register (inputWord emulator.tape.read.1) := by
  obtain ⟨word, executes, isInput⟩ := Option.bind_eq_some_iff.mp reads
  split at isInput
  · rename_i load
    cases isInput
    obtain ⟨next, stepEq⟩ := step_of_executed coherent executes
    have effect := @Instruction.effect_of_input word emulator.pc
      { emulator.toMachine with pc := next } load.1 load.2
    rw [stepEq]
    simp only [execute, effect]
    exact ⟨rfl, rfl, rfl⟩
  · cases isInput

/-- A step that writes to the output does what becomes of the byte. -/
theorem step_of_output {value : UInt8} (stores : emulator.outputByte? = some value) :
    match emulator.tape.write value with
    | .ok tape => emulator.step.error = none ∧ emulator.step.emulator.tape = tape
    | .error _ => emulator.step.error ≠ none ∧ emulator.step.emulator.tape = emulator.tape := by
  obtain ⟨word, executes, isOutput⟩ := Option.bind_eq_some_iff.mp stores
  split at isOutput
  · rename_i store
    cases isOutput
    obtain ⟨next, stepEq⟩ := step_of_executed coherent executes
    have effect := @Instruction.effect_of_output word emulator.pc
      { emulator.toMachine with pc := next } store.1 store.2
    rw [stepEq]
    simp only [execute, effect, perform]
    cases emulator.tape.write (emulator.registers.read word.regT).toUInt8 with
    | ok tape => exact ⟨rfl, rfl⟩
    | error error => exact ⟨Option.some_ne_none _, rfl⟩
  · cases isOutput

/-- No other step changes the tape. -/
theorem tape_step_of_unused (noInput : emulator.inputRegister? = none)
    (noOutput : emulator.outputByte? = none) :
    emulator.step.emulator.tape = emulator.tape := by
  cases executes : emulator.executed? with
  | none => exact tape_step_of_unexecuted coherent executes
  | some word =>
      obtain ⟨next, stepEq⟩ := step_of_executed coherent executes
      rw [inputRegister?, executes, Option.bind_some, ite_eq_right_iff] at noInput
      rw [outputByte?, executes, Option.bind_some, ite_eq_right_iff] at noOutput
      rw [stepEq]
      change ({ emulator with pc := next }.execute (.decode word emulator.pc)).emulator.tape = _
      unfold execute
      split
      · rfl
      · rename_i effect found
        apply tape_perform
        rw [← Bool.not_eq_true]
        intro uses
        rcases Instruction.tape_of_effect found uses with load | store
        · exact Option.some_ne_none _ (noInput load)
        · exact Option.some_ne_none _ (noOutput store)

end Step

theorem outputByte?_of_input {emulator : Emulator} {register : Register}
    (reads : emulator.inputRegister? = some register) : emulator.outputByte? = none := by
  obtain ⟨word, executes, isInput⟩ := Option.bind_eq_some_iff.mp reads
  split at isInput
  · rename_i load
    rw [outputByte?, executes, Option.bind_some, load.1]
    simp
  · cases isInput

/-- Undoing steps leaves the tape alone. -/
theorem tape_stepBack (emulator : Emulator) (count : Int) :
    (emulator.stepBack count).emulator.tape = emulator.tape := by
  have restored (emulator : Emulator) (mutation : Mutation) :
      (emulator.restore mutation).emulator.tape = emulator.tape := by
    unfold restore
    split
    · split
      · rfl
      · rfl
    · split
      · rfl
      · rfl
    · rfl
    · rfl
  exact @related_stepBack (fun earlier later => later.tape = earlier.tape) (fun _ => rfl)
    (fun before after => after.trans before) restored (fun _ _ => rfl) emulator count

end Emulator
end ReversibleMips
