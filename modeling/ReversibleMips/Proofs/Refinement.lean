import ReversibleMips.Proofs.PlainMachine
import ReversibleMips.Proofs.Reachability

/-!
# Emulators refine plain machines

An emulator becomes a plain machine in two steps.  Without its journal it is a machine,
which makes the same writes but records none of them.  Without the instructions that memory
keeps beside its words it is a plain machine.  Both steps keep what instructions do, so
that the runs of an emulator are the runs of the plain machine that it contains.

Memory has to be coherent for this, because an emulator does not decode the words that it
fetches.
-/

namespace ReversibleMips

theorem mapError_ok {ε ζ α : Type} (cause : ε → ζ) (value : α) :
    (Except.ok value).mapError cause = .ok value :=
  rfl

theorem mapError_error {ε ζ α : Type} (cause : ε → ζ) (error : ε) :
    (Except.error error : Except ε α).mapError cause = .error (cause error) :=
  rfl

namespace Machine

def plain (machine : Machine) : PlainMachine :=
  ⟨machine.registers, machine.ram.words, machine.pc, machine.tape⟩

/-- What becomes of a machine, without the instructions that its memory keeps. -/
def forget (result : Machine × Option Fault) : PlainMachine × Option Fault :=
  (result.1.plain, result.2)

theorem memory_plain (machine : Machine) (address : Address) :
    machine.plain.memory address = (machine.ram.read address).mapError .memory := by
  by_cases inside : address.index < machine.ram.words.size
  · simp [PlainMachine.memory, plain, Ram.read, inside, mapError_ok]
  · simp [PlainMachine.memory, plain, Ram.read, inside, mapError_error]

theorem setMemory_plain (machine : Machine) (address : Address) (value : Word) :
    machine.plain.setMemory address value =
      forget (machine.perform (.store address value)) := by
  by_cases inside : address.index < machine.ram.words.size
  · simp [PlainMachine.setMemory, forget, perform, plain, Ram.write, Ram.size, inside]
  · simp [PlainMachine.setMemory, forget, perform, plain, Ram.write, Ram.size, inside]

theorem output_plain (machine : Machine) (value : UInt8) :
    machine.plain.output value = forget (machine.perform (.send value)) := by
  have tapeEq : machine.plain.tape = machine.tape := rfl
  simp only [PlainMachine.output, perform, tapeEq]
  cases machine.tape.write value with
  | error error => rfl
  | ok tape => rfl

theorem place_plain (machine : Machine) (instruction : Instruction) :
    machine.plain.place instruction.word.regS instruction.word.immediate =
      (instruction.effectiveAddress machine.registers).mapError .address := by
  rfl

theorem load_plain (machine : Machine) (instruction : Instruction)
    (isLoad : instruction.op = .lw) :
    machine.plain.load instruction.word =
      forget (machine.execute instruction) := by
  unfold PlainMachine.load execute
  rw [place_plain]
  simp only [Instruction.effect, isLoad, Instruction.loadEffect]
  cases instruction.effectiveAddress machine.registers with
  | error error => rfl
  | ok address =>
      simp only [mapError_ok]
      by_cases isInput : address.value = inputAddress
      · rw [if_pos isInput, if_pos isInput]
        rfl
      · rw [if_neg isInput, if_neg isInput, memory_plain]
        cases machine.ram.read address with
        | error error => rfl
        | ok value => rfl

theorem store_plain (machine : Machine) (instruction : Instruction)
    (isStore : instruction.op = .sw) :
    machine.plain.store instruction.word =
      forget (machine.execute instruction) := by
  unfold PlainMachine.store execute
  rw [place_plain]
  simp only [Instruction.effect, isStore, Instruction.storeEffect]
  cases instruction.effectiveAddress machine.registers with
  | error error => rfl
  | ok address =>
      simp only [mapError_ok]
      by_cases isOutput : address.value = outputAddress
      · rw [if_pos isOutput, if_pos isOutput]
        exact output_plain machine _
      · rw [if_neg isOutput, if_neg isOutput]
        exact setMemory_plain machine address _

theorem branch_plain (machine : Machine) (instruction : Instruction) (taken : Bool) :
    machine.plain.branch instruction.word taken =
      forget (machine.perform (instruction.branch machine.pc taken)) := by
  unfold PlainMachine.branch Instruction.branch PlainMachine.setPc
  cases taken with
  | false => rfl
  | true =>
      simp only [plain, if_true]
      cases machine.pc.add instruction.word.immediate.toInt with
      | error error => rfl
      | ok target => rfl

theorem loadNext_plain (machine : Machine) (instruction : Instruction) :
    machine.plain.loadNext instruction.word.regD =
      forget (machine.perform (instruction.lisEffect machine)) := by
  unfold PlainMachine.loadNext Instruction.lisEffect PlainMachine.setPc
  have pcEq : machine.plain.pc = machine.pc := rfl
  simp only [memory_plain, pcEq]
  cases machine.ram.read machine.pc with
  | error error => rfl
  | ok value =>
      simp only [mapError_ok]
      cases machine.pc.add 1 with
      | error error => rfl
      | ok next => rfl

/-- What is done before a jump is to assign the link, if there is one. -/
theorem jump_plain (machine : Machine) (instruction : Instruction)
    (link : Option (Register × Word)) (before : Address → PlainMachine → PlainMachine)
    (linked : ∀ target, before machine.pc machine.plain =
      { (machine.perform (.jump link (.ok target))).1.plain with pc := machine.pc }) :
    machine.plain.jump instruction.word.regS before =
      match instruction.jumpEffect machine link with
      | .error fault => (machine.plain, some fault)
      | .ok effect => forget (machine.perform effect) := by
  unfold PlainMachine.jump Instruction.jumpEffect PlainMachine.setPc
  have sourceEq : machine.plain.register instruction.word.regS =
      machine.registers.read instruction.word.regS := rfl
  have pcEq : machine.plain.pc = machine.pc := rfl
  rw [sourceEq]
  cases Address.ofValue (machine.registers.read instruction.word.regS) with
  | error error => rfl
  | ok target =>
      simp only [pcEq, linked target]
      cases link with
      | none => rfl
      | some link => rfl

/-- Executing an instruction commutes with forgetting the decoded instructions. -/
theorem execute_plain (machine : Machine) (instruction : Instruction) :
    machine.plain.execute instruction = forget (machine.execute instruction) := by
  have sourceEq (register : Register) :
      machine.plain.register register = machine.registers.read register := rfl
  unfold PlainMachine.execute
  simp only [sourceEq]
  cases operation : instruction.op with
  | lw => exact load_plain machine instruction operation
  | sw => exact store_plain machine instruction operation
  | lis =>
      simp only [execute, Instruction.effect, operation]
      exact loadNext_plain machine instruction
  | beq =>
      simp only [execute, Instruction.effect, operation]
      exact branch_plain machine instruction _
  | bne =>
      simp only [execute, Instruction.effect, operation]
      exact branch_plain machine instruction _
  | jr =>
      simp only [execute, Instruction.effect, operation]
      rw [jump_plain machine instruction none _ (fun _ => rfl)]
      cases instruction.jumpEffect machine none with
      | error fault => rfl
      | ok effect => rfl
  | jalr =>
      simp only [execute, Instruction.effect, operation]
      rw [jump_plain machine instruction (some (.link, machine.pc.value)) _ (fun _ => rfl)]
      cases instruction.jumpEffect machine (some (.link, machine.pc.value)) with
      | error fault => rfl
      | ok effect => rfl
  | div | divu =>
      simp only [execute, Instruction.effect, operation]
      split
      · rfl
      · rfl
  | slt | sltu =>
      simp only [execute, Instruction.effect, operation, Instruction.truth, decide_eq_true_eq]
      rfl
  | _ =>
      simp only [execute, Instruction.effect, operation]
      rfl

/-- A step commutes with forgetting the decoded instructions. -/
theorem step_plain (machine : Machine) :
    machine.plain.step = (machine.step.1.plain, machine.step.2) := by
  have pcEq : machine.plain.pc = machine.pc := rfl
  unfold PlainMachine.step step
  simp only [terminated, decide_eq_true_eq, memory_plain, pcEq]
  split
  · rfl
  · cases machine.ram.read machine.pc with
    | error error => rfl
    | ok word =>
        simp only [mapError_ok, PlainMachine.setPc, pcEq]
        cases machine.pc.add 1 with
        | error error => rfl
        | ok next =>
            have executed :=
              execute_plain { machine with pc := next } (.decode word machine.pc)
            change PlainMachine.execute { machine.plain with pc := next } _ = _ at executed
            simp only [mapError_ok, executed, forget]

end Machine

namespace Emulator

theorem perform_store_toMachine (emulator : Emulator) (address : Address) (value : Word) :
    emulator.toMachine.perform (.store address value) =
      ((emulator.setMemory address value).emulator.toMachine,
        (emulator.setMemory address value).fault) := by
  unfold Machine.perform setMemory Ram.write
  by_cases inside : address.index < emulator.ram.words.size
  · simp [Ram.read, Ram.size, inside]
  · simp [Ram.read, Ram.size, inside]

/-- Recording what is replaced does not change what is written. -/
theorem perform_toMachine (emulator : Emulator) (effect : Effect) :
    emulator.toMachine.perform effect =
      ((emulator.perform effect).emulator.toMachine, (emulator.perform effect).fault) := by
  cases effect with
  | write register value => rfl
  | writePair high low => rfl
  | store address value => exact perform_store_toMachine emulator address value
  | receive register => rfl
  | send value =>
      simp only [Machine.perform, perform]
      cases emulator.tape.write value with
      | error error => rfl
      | ok tape => rfl
  | jump link target =>
      cases link with
      | none =>
          cases target with
          | error fault => rfl
          | ok pc => rfl
      | some link =>
          cases target with
          | error fault => rfl
          | ok pc => rfl

/-- In coherent memory a fetched instruction is a word that was read and decoded. -/
theorem read_of_fetched {emulator : Emulator} (coherent : emulator.ram.Coherent)
    {address : Address} {instruction : Instruction}
    (fetched : emulator.ram.instruction address = .ok instruction) :
    ∃ word, emulator.ram.read address = .ok word ∧
      instruction = .decode word address := by
  rw [coherent.instruction_eq] at fetched
  cases found : emulator.ram.read address with
  | error error => simp [found, Except.map] at fetched
  | ok word =>
      refine ⟨word, rfl, ?_⟩
      simpa [found, Except.map, eq_comm] using fetched

theorem read_of_unfetched {emulator : Emulator} {address : Address} {error : RamError}
    (missing : emulator.ram.instruction address = .error error) :
    emulator.ram.read address = .error error := by
  unfold Ram.instruction at missing
  split at missing
  · cases missing
  · rename_i outside
    cases missing
    exact (emulator.ram.read_eq_error_iff address ⟨address⟩).mpr
      ⟨Nat.le_of_not_lt outside, rfl⟩

/-- The machine does what becomes of the instruction at the program counter. -/
theorem Performs.step_toMachine {emulator : Emulator} {instruction : Instruction}
    {performance : Performance} (performs : Performs emulator instruction performance)
    (coherent : emulator.ram.Coherent) (running : emulator.terminated = false) :
    emulator.toMachine.step =
      (performance.emulator.toMachine,
        performance.fault.map (.failed emulator.pc instruction)) := by
  unfold Machine.step
  rw [if_neg (by simp [running])]
  cases performs with
  | unfetched missing => simp only [read_of_unfetched missing, Option.map_some]
  | stuck fetched last =>
      obtain ⟨word, found, rfl⟩ := read_of_fetched coherent fetched
      simp only [found, last, Option.map_some]
  | faulty fetched moved fails =>
      obtain ⟨word, found, rfl⟩ := read_of_fetched coherent fetched
      simp only [found, moved, Machine.execute, fails, Option.map_some]
  | @effective _ next effect fetched moved effectOf =>
      obtain ⟨word, found, rfl⟩ := read_of_fetched coherent fetched
      simp only [found, moved, Machine.execute, effectOf]
      rw [perform_toMachine { emulator with pc := next } effect]
      rfl

/-- A step of an emulator with coherent memory is a step of its machine. -/
theorem step_toMachine {emulator : Emulator} (coherent : emulator.ram.Coherent) :
    emulator.step.emulator.toMachine = emulator.toMachine.step.1 ∧
      emulator.step.error = emulator.toMachine.step.2.map .step := by
  cases terminated : emulator.terminated with
  | true =>
      rw [step_of_terminated terminated, Machine.step, if_pos terminated]
      exact ⟨rfl, rfl⟩
  | false =>
      obtain ⟨instruction, performance, performs, stepEq⟩ := step_of_running terminated
      rw [stepEq, performs.step_toMachine coherent terminated]
      exact ⟨rfl, rfl⟩

def plain (emulator : Emulator) : PlainMachine := emulator.toMachine.plain

def forwards (changes : List (Tape → Tape)) : List Move :=
  changes.flatMap fun change => [.exchange change, .step]

def stepErrors (visits : List Visit) : List (Option EmulatorError) :=
  visits.filterMap fun visit =>
    match visit.request with
    | .move .step => some visit.outcome.error
    | _ => none

theorem plain_step {emulator : Emulator} (coherent : emulator.ram.Coherent) :
    emulator.step.emulator.plain = emulator.plain.step.1 ∧
      emulator.step.error = emulator.plain.step.2.map .step := by
  obtain ⟨machineEq, errorEq⟩ := step_toMachine coherent
  unfold plain
  rw [Machine.step_plain, machineEq, errorEq]
  exact ⟨rfl, rfl⟩

/-- Forward execution refines the plain machine.  From every reachable state, any number of
steps gives the registers, words of memory, program counter and tape that the plain machine
gets, and every one of the steps ends with the same error or with none.  This holds for every
input and output, since both tapes may change in front of each step. -/
theorem steps_refine_plainMachine {emulator : Emulator} (reachable : Reachable emulator)
    (changes : List (Tape → Tape)) :
    let moves := forwards changes
    (emulator.play moves).plain = (emulator.plain.steps changes).1 ∧
      stepErrors (emulator.course moves) =
        (emulator.plain.steps changes).2.map (Option.map .step) := by
  have coherent := reachable.coherent
  clear reachable
  induction changes generalizing emulator with
  | nil => exact ⟨rfl, rfl⟩
  | cons change changes ih =>
      obtain ⟨stateEq, errorEq⟩ :=
        @plain_step { emulator with tape := change emulator.tape } coherent
      obtain ⟨lastEq, errorsEq⟩ :=
        ih (@coherent_step { emulator with tape := change emulator.tape } coherent)
      rw [stateEq] at lastEq errorsEq
      refine ⟨lastEq, ?_⟩
      exact List.cons_eq_cons.mpr ⟨errorEq, errorsEq⟩

/-- A program that stores its last instruction over a blank word before it gets there, and a byte
to the output twice. -/
def patchingImage : List UInt8 :=
  [0x8c, 3, 0, 20, 0xac, 3, 0, 16, 0xac, 0x22, 0, 0xc, 0xac, 0x22, 0, 0xc, 0, 0, 0, 0,
    3, 0xe0, 0, 8]

/-- The store over the blank word has been made and undone again. -/
def patching : Emulator :=
  ((ofSize 6).loadTwoInts patchingImage (-0x10000) 0x61).emulator.play [.step, .step, .back 1]

/-- The output refuses the first byte and accepts the second. -/
def refusingOnce : List (Tape → Tape) :=
  [id, fun tape => { tape with output := some { Sink.unlimited with limit := some 0 } },
    fun tape => { tape with output := some .unlimited }, id, id]

theorem steps_refine_patching :
    let moves := forwards refusingOnce
    Reachable patching ∧
      stepErrors (patching.course moves) =
        [none, some (.step (.failed (.ofNat 2) (.decode 0xac22000c (.ofNat 2))
          (.tape (.refused "")))), none, none, some (.step .terminated)] ∧
      (patching.play moves).plain = (patching.plain.steps refusingOnce).1 ∧
      stepErrors (patching.course moves) =
        (patching.plain.steps refusingOnce).2.map (Option.map .step) := by
  have loaded := Loaded.twoInts (ofSize 6) patchingImage (-0x10000) 0x61 (by decide +kernel)
  have reachable : Reachable patching := ⟨_, _, loaded, rfl⟩
  exact ⟨reachable, by decide +kernel, steps_refine_plainMachine reachable refusingOnce⟩

end Emulator
end ReversibleMips
