import ReversibleMips.Proofs.KeptInstructions
import ReversibleMips.Proofs.Refinement

/-!
# Failing steps

An instruction finds out whether it can be executed before it writes anything.  Only the
program counter is replaced earlier, so a step that fails has moved on at most, and its
frame tells of program counters alone.

There is one effect that could write a register and then fail: loading the word behind an
instruction and skipping it, if there is no place behind that word.  The memory of a machine
would have to fill the whole address space for this.
-/

namespace ReversibleMips

/-- The records of a frame find it open. -/
theorem Journal.foldlM_record (frame opened : Frame) (earlier : List Frame) :
    frame.foldlM Journal.record ⟨opened :: earlier⟩ = .ok ⟨(opened ++ frame) :: earlier⟩ := by
  induction frame generalizing opened with
  | nil => simp only [List.foldlM_nil, List.append_nil, pure, Except.pure]
  | cons mutation frame ih =>
      have recorded : Journal.record ⟨opened :: earlier⟩ mutation =
          .ok ⟨(opened ++ [mutation]) :: earlier⟩ := rfl
      rw [List.foldlM_cons, recorded]
      have later := ih (opened ++ [mutation])
      rw [List.append_assoc] at later
      exact later

theorem Journal.foldlM_record_openFrame (journal : Journal) (frame : Frame) :
    frame.foldlM Journal.record journal.openFrame = .ok (journal.push frame) :=
  foldlM_record frame [] journal.frames

namespace Effect

/-- A jump that goes nowhere writes no link. -/
def Whole : Effect → Prop
  | .jump (some _) (.error _) => False
  | _ => True

theorem whole_branch (instruction : Instruction) (pc : Address) (taken : Bool) :
    (instruction.branch pc taken).Whole := by
  cases taken <;> trivial

/-- There is a word behind the one that is loaded, if memory does not reach to the end of
the address space. -/
theorem whole_lisEffect (instruction : Instruction) {machine : Machine}
    (small : machine.ram.size < 0x40000000) : (instruction.lisEffect machine).Whole := by
  unfold Instruction.lisEffect
  cases found : machine.ram.read machine.pc with
  | error error => trivial
  | ok value =>
      have inside := Ram.lt_size_of_read found
      have before : machine.pc.index < Address.maxIndex := by
        unfold Address.maxIndex
        omega
      simp only [Address.add_one_eq before]
      trivial

theorem whole_jumpEffect {instruction : Instruction} {machine : Machine}
    {link : Option (Register × Word)} {effect : Effect}
    (found : instruction.jumpEffect machine link = .ok effect) : effect.Whole := by
  unfold Instruction.jumpEffect at found
  split at found
  · cases found
  · cases found
    cases link <;> trivial

theorem whole_loadEffect {instruction : Instruction} {machine : Machine} {effect : Effect}
    (found : instruction.loadEffect machine = .ok effect) : effect.Whole := by
  unfold Instruction.loadEffect at found
  split at found
  · cases found
  · split at found
    · cases found
      trivial
    · split at found
      · cases found
      · cases found
        trivial

theorem whole_storeEffect {instruction : Instruction} {machine : Machine} {effect : Effect}
    (found : instruction.storeEffect machine = .ok effect) : effect.Whole := by
  unfold Instruction.storeEffect at found
  split at found
  · cases found
  · simp only at found
    split at found
    · cases found
      trivial
    · cases found
      trivial

/-- What instructions ask for can be done as a whole or not at all. -/
theorem whole_effect {instruction : Instruction} {machine : Machine} {effect : Effect}
    (small : machine.ram.size < 0x40000000)
    (found : instruction.effect machine = .ok effect) : effect.Whole := by
  unfold Instruction.effect at found
  cases operation : instruction.op
  all_goals simp only [operation] at found
  case lw => exact whole_loadEffect found
  case sw => exact whole_storeEffect found
  case jr | jalr => exact whole_jumpEffect found
  case lis =>
    cases found
    exact whole_lisEffect instruction small
  case beq | bne =>
    cases found
    exact whole_branch instruction machine.pc _
  case div | divu =>
    split at found
    · cases found
    · cases found
      trivial
  case word | other => cases found
  all_goals
    cases found
    trivial

end Effect

namespace Emulator

/-- Writes that fail have changed nothing. -/
theorem perform_of_fault {emulator : Emulator} {effect : Effect} (whole : effect.Whole)
    {fault : Fault} (failed : (emulator.perform effect).fault = some fault) :
    (emulator.perform effect).emulator = emulator ∧
      ∀ mutation ∈ (emulator.perform effect).frame, mutation.kind = .pc := by
  cases effect with
  | write register value => cases failed
  | writePair high low => cases failed
  | store address value =>
      simp only [perform, setMemory] at failed ⊢
      cases found : emulator.ram.read address with
      | error error => exact ⟨rfl, by simp⟩
      | ok prior => simp [found] at failed
  | receive register => cases failed
  | send value =>
      simp only [perform] at failed ⊢
      cases sent : emulator.tape.write value with
      | error error => exact ⟨rfl, by simp⟩
      | ok tape => simp [sent] at failed
  | jump link target =>
      cases target with
      | ok pc => cases failed
      | error error =>
          cases link with
          | some link => exact whole.elim
          | none => exact ⟨rfl, by simp [perform, setPc, Mutation.ofPc]⟩

/-- Where a failing step stays: behind the instruction, or at a place that memory does not
have. -/
def stoppedAt (emulator : Emulator) : Nat :=
  if emulator.pc.index < emulator.ram.size then emulator.pc.value.toNat + 4
  else emulator.pc.value.toNat

theorem Performs.of_fault {emulator : Emulator} {instruction : Instruction}
    {performance : Performance} (performs : Performs emulator instruction performance)
    (small : emulator.ram.size < 0x40000000) {fault : Fault}
    (failed : performance.fault = some fault) :
    ∃ pc : Address, performance.emulator = { emulator with pc := pc } ∧
      pc.value.toNat = emulator.stoppedAt ∧
      ∀ mutation ∈ performance.frame, mutation.kind = .pc := by
  have fetches {found : Instruction}
      (fetched : emulator.ram.instruction emulator.pc = .ok found) :
      emulator.pc.index < emulator.ram.size := by
    unfold Ram.instruction at fetched
    split at fetched
    · assumption
    · cases fetched
  have moves {found : Instruction}
      (fetched : emulator.ram.instruction emulator.pc = .ok found) {next : Address}
      (moved : emulator.pc.add 1 = .ok next) : next.value.toNat = emulator.stoppedAt := by
    have inside := fetches fetched
    have before : emulator.pc.index < Address.maxIndex := by
      unfold Address.maxIndex
      omega
    have fourIndex := emulator.pc.four_mul_index
    rw [Address.add_one_eq before] at moved
    cases moved
    rw [Address.toNat_ofNat before, stoppedAt, if_pos inside]
    omega
  cases performs with
  | @unfetched error missing =>
      have outside : ¬ emulator.pc.index < emulator.ram.size := by
        intro inside
        rw [Ram.instruction, if_pos inside] at missing
        cases missing
      exact ⟨emulator.pc, rfl, by rw [stoppedAt, if_neg outside], by simp⟩
  | @stuck _ error fetched last =>
      have inside := fetches fetched
      rw [Address.add_one_eq (by unfold Address.maxIndex; omega)] at last
      cases last
  | @faulty _ next _ fetched moved fails =>
      exact ⟨next, rfl, moves fetched moved, by simp [Mutation.ofPc]⟩
  | @effective _ next effect fetched moved found =>
      have smaller : { emulator with pc := next }.toMachine.ram.size < 0x40000000 := small
      have whole : effect.Whole := Effect.whole_effect smaller found
      obtain ⟨same, records⟩ := perform_of_fault whole failed
      refine ⟨next, same, moves fetched moved, ?_⟩
      intro mutation member
      rcases List.mem_cons.mp member with rfl | later
      · rfl
      · exact records mutation later

/-- The word at the program counter, or zero where memory has none. -/
def currentWord (emulator : Emulator) : Word :=
  emulator.ram.words[emulator.pc.index]?.getD 0

theorem Performs.instruction_eq {emulator : Emulator} {instruction : Instruction}
    {performance : Performance} (performs : Performs emulator instruction performance)
    (coherent : emulator.ram.Coherent) :
    instruction = .decode emulator.currentWord emulator.pc := by
  have decoded {found : Instruction}
      (fetched : emulator.ram.instruction emulator.pc = .ok found) :
      found = .decode emulator.currentWord emulator.pc := by
    obtain ⟨word, read, rfl⟩ := read_of_fetched coherent fetched
    rw [currentWord, Ram.getElem?_of_read read]
    rfl
  cases performs with
  | @unfetched error missing =>
      have outside := ((emulator.ram.read_eq_error_iff _ _).mp (read_of_unfetched missing)).1
      rw [currentWord, Array.getElem?_eq_none outside]
      rfl
  | stuck fetched last => exact decoded fetched
  | faulty fetched moved fails => exact decoded fetched
  | effective fetched moved found => exact decoded fetched

/-- What a failing step may change: it leaves registers, memory and tape alone, moves on at
most, and says which instruction failed where. -/
structure Contained (emulator : Emulator) (outcome : Outcome) (frame : Frame) : Prop where
  error : ∃ fault, outcome.error =
    some (.step (.failed emulator.pc (.decode emulator.currentWord emulator.pc) fault))
  registers : outcome.emulator.registers = emulator.registers
  ram : outcome.emulator.ram = emulator.ram
  tape : outcome.emulator.tape = emulator.tape
  pc : outcome.emulator.pc.value.toNat = emulator.stoppedAt
  frame : ∀ mutation ∈ frame, mutation.kind = .pc

/-- A failing step is contained.  Whatever has been asked before of an emulator whose memory
leaves out the end of the address space, a step at the return address is refused and does
nothing at all.  Every other step opens one frame, which finds room for all of its records,
and if it fails it has changed nothing but the program counter. -/
theorem failing_step_contained (start : Emulator) {size : Nat} (small : size < 0x40000000)
    (requests : List Request) :
    let emulator := askAll { start with ram := .ofSize size } requests
    let outcome := emulator.step
    (emulator.pc.value = Machine.returnAddress →
      outcome = ⟨emulator, [], some (.step .terminated)⟩) ∧
    (emulator.pc.value ≠ Machine.returnAddress →
      outcome.emulator.history = emulator.history + 1 ∧
      ∃ frame, outcome.emulator.journal = emulator.journal.push frame ∧
        frame.foldlM Journal.record emulator.journal.openFrame =
          .ok outcome.emulator.journal ∧
        (outcome.error ≠ none → Contained emulator outcome frame)) := by
  intro emulator outcome
  have written : (Ram.ofSize size).Written emulator.ram :=
    @ofSize_written_askAll size { start with ram := .ofSize size } .same requests
  have coherent := written.coherent (Ram.coherent_ofSize size)
  have stillSmall : emulator.ram.size < 0x40000000 := by
    rw [written.size_eq, Ram.size_ofSize]
    exact small
  constructor
  · intro returned
    exact step_of_terminated (by simp [Machine.terminated, returned])
  · intro elsewhere
    have running : emulator.terminated = false := by simp [Machine.terminated, elsewhere]
    obtain ⟨instruction, performance, performs, stepEq⟩ := step_of_running running
    have outcomeEq : outcome = conclude emulator.pc instruction performance := stepEq
    have journal : outcome.emulator.journal = emulator.journal.push performance.frame := by
      rw [outcomeEq]
      exact congrArg (Journal.push · performance.frame) performs.journal_eq
    refine ⟨?_, performance.frame, journal, ?_, ?_⟩
    · rw [history, journal, Journal.length_push, history]
    · rw [journal, Journal.foldlM_record_openFrame]
    · intro hasError
      cases failed : performance.fault with
      | none => exact absurd (by rw [outcomeEq]; simp [conclude, failed]) hasError
      | some fault =>
          obtain ⟨pc, state, place, records⟩ := performs.of_fault stillSmall failed
          have decoded := performs.instruction_eq coherent
          rw [outcomeEq]
          exact
            { error := ⟨fault, by simp [conclude, failed, decoded]⟩
              registers := by simp only [conclude, state]
              ram := by simp only [conclude, state]
              tape := by simp only [conclude, state]
              pc := by simp only [conclude, state, place]
              frame := records }

/-- A sum, and the loading of a word that memory does not have.  The sum has been undone and
made again. -/
def endsInside : Emulator :=
  askAll { ofSize 0 with ram := .ofSize 2 }
    [.load [0, 0x22, 0x18, 0x20, 0, 0, 8, 0x14], .move .step, .move (.back 1), .move .step]

theorem failing_step_contained_endsInside :
    endsInside.pc.value ≠ Machine.returnAddress ∧ endsInside.step.error ≠ none ∧
      endsInside.step.emulator.history = endsInside.history + 1 ∧
      Contained endsInside endsInside.step [.ofPc (.ofNat 1), .ofPc (.ofNat 2)] := by
  have elsewhere : endsInside.pc.value ≠ Machine.returnAddress := by decide +kernel
  have fails : endsInside.step.error ≠ none := by decide +kernel
  have latest : endsInside.step.emulator.journal.last? =
      some [.ofPc (.ofNat 1), .ofPc (.ofNat 2)] := by decide +kernel
  obtain ⟨longer, frame, journal, -, contained⟩ :=
    (failing_step_contained (ofSize 0) (by decide : 2 < 0x40000000)
      [.load [0, 0x22, 0x18, 0x20, 0, 0, 8, 0x14], .move .step, .move (.back 1), .move .step]).2 elsewhere
  have same : frame = [.ofPc (.ofNat 1), .ofPc (.ofNat 2)] := by
    rw [← endsInside] at journal
    rw [journal, Journal.last?_push] at latest
    exact Option.some.inj latest
  rw [same] at contained
  exact ⟨elsewhere, fails, longer, contained fails⟩

end Emulator
end ReversibleMips
