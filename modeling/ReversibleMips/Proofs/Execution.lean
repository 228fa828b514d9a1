import ReversibleMips.Proofs.Refinement

/-!
# Running code

What a piece of code does is put together from what its instructions do.  `Reaches` counts the
steps from one state of a machine to another, none of which fails or finds the program
returned.  There is a rule for each kind of instruction, and code that has been shown to
return is what a run of an emulator does, with exactly as many steps.
-/

namespace ReversibleMips

namespace Ram

/-- Memory starts with some words, which all lie below the place that programs return to. -/
structure Holds (ram : Ram) (words : List Word) : Prop where
  read : ∀ index word, words[index]? = some word → ram.read (.ofNat index) = .ok word
  low : words.length ≤ 0x20000000

end Ram

namespace Machine

/-- A number of steps leads from one state to another. -/
inductive Reaches : Nat → Machine → Machine → Prop
  | none {machine : Machine} : Reaches 0 machine machine
  | step {machine next last : Machine} {count : Nat} (running : machine.terminated = false)
      (succeeds : machine.step = (next, .none)) (later : Reaches count next last) :
      Reaches (count + 1) machine last

theorem Reaches.trans {first second third : Machine} {before after : Nat}
    (reaches : Reaches before first second) (later : Reaches after second third) :
    Reaches (before + after) first third := by
  induction reaches with
  | none => rwa [Nat.zero_add]
  | step running succeeds rest ih =>
      rw [Nat.add_right_comm]
      exact .step running succeeds (ih later)

/-- The program counter is at a word, and there is a place behind it. -/
structure Fetches (machine : Machine) (word : Word) (next : Address) : Prop where
  running : machine.terminated = false
  read : machine.ram.read machine.pc = .ok word
  moves : machine.pc.add 1 = .ok next

theorem fetches_of_holds {ram : Ram} {words : List Word} (holds : ram.Holds words) (index : Nat)
    (word : Word) (found : words[index]? = some word) (registers : Registers) (tape : Tape) :
    Fetches ⟨registers, ram, .ofNat index, tape⟩ word (.ofNat (index + 1)) := by
  have inside : index < words.length := (List.getElem?_eq_some_iff.mp found).1
  have low := holds.low
  have small : index ≤ Address.maxIndex := by
    unfold Address.maxIndex
    omega
  constructor
  · rw [terminated, decide_eq_false_iff_not]
    intro returns
    have place := congrArg UInt32.toNat returns
    rw [Address.toNat_ofNat small] at place
    change 4 * index = 0x8123456c at place
    omega
  · exact holds.read index word found
  · have indexEq := Address.index_ofNat small
    change (Address.ofNat index).add 1 = _
    rw [Address.add_one_eq (by rw [indexEq]; unfold Address.maxIndex; omega), indexEq]

namespace Fetches

variable {registers : Registers} {ram : Ram} {pc next : Address} {tape : Tape} {word : Word}
    (fetches : Fetches ⟨registers, ram, pc, tape⟩ word next)
include fetches

theorem reaches {op : Op} (opEq : word.op = op) {effect : Effect} {later : Machine}
    (found : (Instruction.mk op word pc).effect ⟨registers, ram, next, tape⟩ = .ok effect)
    (performs : (Machine.mk registers ram next tape).perform effect = (later, .none)) :
    Reaches 1 ⟨registers, ram, pc, tape⟩ later := by
  refine .step fetches.running ?_ .none
  have read := fetches.read
  have moves := fetches.moves
  simp only at read moves
  unfold step
  simp only [fetches.running, read, moves, Instruction.decode_eq, opEq, execute, found, performs]
  rfl

theorem add (isAdd : word.op = .add) :
    Reaches 1 ⟨registers, ram, pc, tape⟩
      ⟨registers.write word.regD (registers.read word.regS + registers.read word.regT), ram,
        next, tape⟩ := by
  exact fetches.reaches isAdd rfl rfl

/-- The next word is data, and is skipped. -/
theorem lis (isLis : word.op = .lis) {value : Word} {behind : Address}
    (datum : ram.read next = .ok value) (skips : next.add 1 = .ok behind) :
    Reaches 1 ⟨registers, ram, pc, tape⟩
      ⟨registers.write word.regD value, ram, behind, tape⟩ := by
  have found : (Instruction.mk .lis word pc).effect ⟨registers, ram, next, tape⟩ =
      .ok (.jump (some (word.regD, value)) (.ok behind)) := by
    simp only [Instruction.effect, Instruction.lisEffect, datum, skips]
    rfl
  exact fetches.reaches isLis found rfl

theorem lw (isLoad : word.op = .lw) {place : Address} {value : Word}
    (accesses : registers.read word.regS + UInt32.ofInt word.immediate.toInt = place.value)
    (notInput : place.value ≠ inputAddress) (held : ram.read place = .ok value) :
    Reaches 1 ⟨registers, ram, pc, tape⟩
      ⟨registers.write word.regT value, ram, next, tape⟩ := by
  have here : (Instruction.mk .lw word pc).effectiveAddress registers = .ok place := by
    change Address.ofValue
      (registers.read word.regS + UInt32.ofInt word.immediate.toInt) = .ok place
    rw [accesses, Address.ofValue_value]
  have found : (Instruction.mk .lw word pc).effect ⟨registers, ram, next, tape⟩ =
      .ok (.write word.regT value) := by
    simp only [Instruction.effect, Instruction.loadEffect, here, if_neg notInput, held]
  exact fetches.reaches isLoad found rfl

/-- A load from the address of the input reads the tape. -/
theorem lw_input (isLoad : word.op = .lw)
    (accesses : registers.read word.regS + UInt32.ofInt word.immediate.toInt = inputAddress) :
    Reaches 1 ⟨registers, ram, pc, tape⟩
      ⟨registers.write word.regT (inputWord tape.read.1), ram, next, tape.read.2⟩ := by
  have here : (Instruction.mk .lw word pc).effectiveAddress registers =
      Address.ofValue inputAddress := congrArg Address.ofValue accesses
  have found : (Instruction.mk .lw word pc).effect ⟨registers, ram, next, tape⟩ =
      .ok (.receive word.regT) := by
    simp only [Instruction.effect, Instruction.loadEffect, here]
    rfl
  exact fetches.reaches isLoad found rfl

/-- A store to the address of the output writes the low byte to the tape. -/
theorem sw_output (isStore : word.op = .sw)
    (accesses : registers.read word.regS + UInt32.ofInt word.immediate.toInt = outputAddress)
    {later : Tape} (written : tape.write (registers.read word.regT).toUInt8 = .ok later) :
    Reaches 1 ⟨registers, ram, pc, tape⟩ ⟨registers, ram, next, later⟩ := by
  have here : (Instruction.mk .sw word pc).effectiveAddress registers =
      Address.ofValue outputAddress := congrArg Address.ofValue accesses
  have found : (Instruction.mk .sw word pc).effect ⟨registers, ram, next, tape⟩ =
      .ok (.send (registers.read word.regT).toUInt8) := by
    simp only [Instruction.effect, Instruction.storeEffect, here]
    rfl
  apply fetches.reaches isStore found
  simp only [perform, written]

/-- A branch on equal registers is taken. -/
theorem beq (isBeq : word.op = .beq)
    (equal : registers.read word.regS = registers.read word.regT) {target : Address}
    (goes : next.add word.immediate.toInt = .ok target) :
    Reaches 1 ⟨registers, ram, pc, tape⟩ ⟨registers, ram, target, tape⟩ := by
  have found : (Instruction.mk .beq word pc).effect ⟨registers, ram, next, tape⟩ =
      .ok (.jump none (.ok target)) := by
    simp only [Instruction.effect, Instruction.branch, goes, equal]
    rfl
  exact fetches.reaches isBeq found rfl

/-- A branch on registers that differ falls through. -/
theorem beq_through (isBeq : word.op = .beq)
    (differ : registers.read word.regS ≠ registers.read word.regT) :
    Reaches 1 ⟨registers, ram, pc, tape⟩ ⟨registers, ram, next, tape⟩ := by
  have found : (Instruction.mk .beq word pc).effect ⟨registers, ram, next, tape⟩ =
      .ok (.jump none (.ok next)) := by
    simp only [Instruction.effect, Instruction.branch, differ]
    rfl
  exact fetches.reaches isBeq found rfl

theorem jr (isJump : word.op = .jr) {target : Address}
    (goes : registers.read word.regS = target.value) :
    Reaches 1 ⟨registers, ram, pc, tape⟩ ⟨registers, ram, target, tape⟩ := by
  have found : (Instruction.mk .jr word pc).effect ⟨registers, ram, next, tape⟩ =
      .ok (.jump none (.ok target)) := by
    simp only [Instruction.effect, Instruction.jumpEffect, goes,
      Address.ofValue_value]
  exact fetches.reaches isJump found rfl

/-- A jump to the return address ends the program. -/
theorem jr_home (isJump : word.op = .jr) (goes : registers.read word.regS = returnAddress) :
    ∃ home : Address, home.value = returnAddress ∧
      Reaches 1 ⟨registers, ram, pc, tape⟩ ⟨registers, ram, home, tape⟩ := by
  have placed : (Address.ofNat 0x2048d15b).value = returnAddress := rfl
  exact ⟨.ofNat 0x2048d15b, placed, fetches.jr isJump (goes.trans placed.symm)⟩

end Fetches
end Machine

namespace Emulator

theorem history_step {emulator : Emulator} (running : emulator.terminated = false) :
    emulator.step.emulator.history = emulator.history + 1 := by
  obtain ⟨instruction, performance, performs, stepEq⟩ := step_of_running running
  rw [stepEq, history, conclude, history, performs.journal_eq, Journal.length_push]

theorem runFor_of_terminated {emulator : Emulator} (terminated : emulator.terminated = true)
    (fuel : Nat) : runFor fuel emulator = ⟨emulator, [], .returned⟩ := by
  cases fuel with
  | zero => simp [runFor, terminated]
  | succ fuel => simp [runFor, terminated]

theorem runFor_succ {emulator : Emulator} (running : emulator.terminated = false)
    (succeeds : emulator.step.error = none) (fuel : Nat) :
    let later := runFor fuel emulator.step.emulator
    runFor (fuel + 1) emulator =
      ⟨later.emulator, emulator.step.events ++ later.events, later.ending⟩ := by
  cases stepEq : emulator.step with
  | mk next events error =>
      rw [stepEq] at succeeds
      cases succeeds
      simp [runFor, running, stepEq]

/-- An emulator runs as code does that returns: with fewer steps it is unfinished, and with
more it has returned and stays as it is. -/
theorem runFor_of_reaches {emulator : Emulator} (coherent : emulator.ram.Coherent) {count : Nat}
    {last : Machine} (reaches : Machine.Reaches count emulator.toMachine last)
    (returns : last.terminated = true) (fuel : Nat) :
    (fuel < count → (runFor fuel emulator).ending = .unfinished) ∧
      (count ≤ fuel →
        (runFor fuel emulator).ending = .returned ∧
        (runFor fuel emulator).emulator.toMachine = last ∧
        (runFor fuel emulator).emulator.history = emulator.history + count) := by
  induction count generalizing emulator fuel with
  | zero =>
      cases reaches
      refine ⟨fun few => absurd few (Nat.not_lt_zero fuel), fun _ => ?_⟩
      rw [runFor_of_terminated returns]
      exact ⟨rfl, rfl, rfl⟩
  | succ count ih =>
      obtain - | ⟨running, succeeds, later⟩ := reaches
      obtain ⟨machineEq, errorEq⟩ := step_toMachine coherent
      rw [succeeds] at machineEq errorEq
      simp only at machineEq
      rw [← machineEq] at later
      cases fuel with
      | zero =>
          refine ⟨fun _ => ?_, fun enough => absurd enough (Nat.not_succ_le_zero count)⟩
          have going : emulator.terminated = false := running
          simp [runFor, going]
      | succ fuel =>
          rw [runFor_succ running errorEq]
          obtain ⟨unfinished, returned⟩ := ih (coherent_step coherent) later fuel
          constructor
          · intro few
            exact unfinished (Nat.lt_of_succ_lt_succ few)
          · intro enough
            obtain ⟨ending, final, history⟩ := returned (Nat.le_of_succ_le_succ enough)
            refine ⟨ending, final, ?_⟩
            rw [history, history_step running, Nat.add_right_comm, Nat.add_assoc]

end Emulator
end ReversibleMips
