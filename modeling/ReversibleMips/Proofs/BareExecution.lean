import ReversibleMips.Proofs.AddressArithmetic
import ReversibleMips.Proofs.BareMachine
import ReversibleMips.Proofs.CoherentMemory
import ReversibleMips.Proofs.StepCases

/-!
# Running on bare numbers

An emulator becomes a bare machine when the bounds in its types are forgotten.  What a bare
machine does is then what the emulator does: the numbers that instructions come up with pass all
checks, and every record finds its frame open.  This is shown for looking at the state, for the
writes that are recorded, for each instruction, and so for steps.
-/

namespace ReversibleMips

namespace BareMachine

theorem place_value (address : Address) : place address.value = address :=
  address.ofNat_index

theorem aligned_eq (offset : Word) :
    aligned offset = ((Address.ofValue offset).mapError .address).map Address.value := by
  have remainder : offset % 4 = 0 ↔ offset.toNat % 4 = 0 := by
    rw [← UInt32.toNat_inj, UInt32.toNat_mod]
    rfl
  unfold aligned Address.ofValue
  by_cases even : offset.toNat % 4 = 0
  · rw [if_pos (remainder.mpr even), dif_pos even]
    rfl
  · rw [if_neg (fun isZero => even (remainder.mp isZero)), dif_neg even]
    rfl

/-- Moving a byte offset is moving the address. -/
theorem moved_eq (address : Address) (words : Int) :
    moved address.value words =
      ((address.add words).mapError .address).map Address.value := by
  have fits := address.index_le_maxIndex
  have value := address.four_mul_index
  have bounded := address.value.toNat_lt
  unfold Address.maxIndex at fits
  have index : address.value.toNat / 4 = address.index := rfl
  have outside (leaves : address.index + words < 0 ∨ 0x3fffffff < address.index + words) :
      ((address.add words).mapError Fault.address).map Address.value =
        .error (.address .outside) := by
    rw [Address.add, Address.ofIndex_of_outside leaves]
    rfl
  have inside {offset : Word} (lands : (offset.toNat : Int) = 4 * (address.index + words)) :
      ((address.add words).mapError Fault.address).map Address.value = .ok offset := by
    have even : offset.toNat % 4 = 0 := by omega
    have sum : ((⟨offset, even⟩ : Address).index : Int) = address.index + words := by
      change ((offset.toNat / 4 : Nat) : Int) = _
      omega
    rw [(address.add_eq_ok_iff ⟨offset, even⟩ words).mpr sum]
    rfl
  have four (count : Nat) (small : count ≤ 0x3fffffff) :
      (UInt32.ofNat count * 4).toNat = 4 * count := by
    rw [UInt32.toNat_mul, UInt32.toNat_ofNat']
    change count % 2 ^ 32 * 4 % 2 ^ 32 = 4 * count
    omega
  simp only [moved, index]
  split
  · split
    · exact (outside (by omega)).symm
    · refine (inside ?_).symm
      rw [UInt32.toNat_sub, four _ (by omega)]
      omega
  · split
    · exact (outside (by omega)).symm
    · refine (inside ?_).symm
      rw [UInt32.toNat_add, four _ (by omega)]
      omega

theorem offsetOf_val (register : Register) :
    offsetOf register.val = (Address.ofNat register.val).value := by
  have bounded := register.isLt
  have small : (0 : Int) ≤ register.val ∧ (register.val : Int) ≤ 0x3fffffff := by omega
  rw [offsetOf, if_pos small]
  apply UInt32.toNat_inj.mp
  rw [Address.toNat_ofNat (by unfold Address.maxIndex; omega), UInt32.toNat_mul]
  have word := Word.toNat_ofInt register.val
  change (UInt32.ofInt register.val).toNat * 4 % 2 ^ 32 = _
  omega

theorem field_eq (word shift : Word) :
    field word shift = (word.toNat >>> (shift.toNat % 32) % 32 : Nat) := by
  have mask : (0x1f : Word).toNat = 2 ^ 5 - 1 := rfl
  rw [field, UInt32.toNat_and, UInt32.toNat_shiftRight, mask, Nat.and_two_pow_sub_one_eq_mod]

theorem field_regS (word : Word) : field word 21 = word.regS.val := by
  rw [field_eq, Nat.shiftRight_eq_div_pow]
  rfl

theorem field_regT (word : Word) : field word 16 = word.regT.val := by
  rw [field_eq, Nat.shiftRight_eq_div_pow]
  rfl

theorem field_regD (word : Word) : field word 11 = word.regD.val := by
  rw [field_eq, Nat.shiftRight_eq_div_pow]
  rfl

end BareMachine

theorem Register.ofIndex_val (register : Register) :
    Register.ofIndex register.val = .ok register := by
  have inside : (0 : Int) ≤ register.val ∧ (register.val : Int) < 34 := by omega
  rw [Register.ofIndex, dif_pos inside]
  rfl

namespace Mutation

def bare (mutation : Mutation) : BareRecord :=
  ⟨mutation.kind, mutation.location.value, mutation.prior⟩

end Mutation

namespace Emulator

def bare (emulator : Emulator) : BareMachine :=
  { registers := emulator.registers
    ram := emulator.ram
    pc := emulator.pc.value
    tape := emulator.tape
    journal := emulator.journal.frames.map (List.map Mutation.bare) }

def during (emulator : Emulator) (frame : Frame) : BareMachine :=
  { emulator with journal := emulator.journal.push frame }.bare

end Emulator

namespace BareMachine

open Emulator

theorem Recorder.bind_of_ok {α β : Type} {first : Recorder α} {next : α → Recorder β}
    {machine later : BareMachine} {value : α}
    (runs : first.run machine = .ok (.ok value, later)) :
    (first >>= next).run machine = (next value).run later := by
  change (Recorder.bind first next).run machine = _
  simp only [Recorder.bind, runs]

theorem Recorder.bind_of_fault {α β : Type} {first : Recorder α} {next : α → Recorder β}
    {machine later : BareMachine} {fault : Fault}
    (runs : first.run machine = .ok (.error fault, later)) :
    (first >>= next).run machine = .ok (.error fault, later) := by
  change (Recorder.bind first next).run machine = _
  simp only [Recorder.bind, runs]

/-- The state is looked at while a frame is open, and stays as it is. -/
def Observes {α : Type} (action : Recorder α) (emulator : Emulator) (result : Except Fault α) :
    Prop :=
  ∀ frame, action.run (emulator.during frame) = .ok (result, emulator.during frame)

section Observes

variable (emulator : Emulator)

theorem observes_ofResult {α : Type} (result : Except Fault α) :
    Observes (.ofResult result) emulator result :=
  fun _ => rfl

theorem observes_register (index : Register) :
    Observes (register index.val) emulator (.ok (emulator.registers.read index)) := by
  intro frame
  rw [register, Register.ofIndex_val]
  rfl

theorem observes_memory (address : Address) :
    Observes (memory address.value) emulator ((emulator.ram.read address).mapError .memory) := by
  intro frame
  have read : (emulator.during frame).ram.read (place address.value) = emulator.ram.read address := by
    rw [place_value]
    rfl
  simp only [memory, read]
  cases emulator.ram.read address with
  | error error => rfl
  | ok value => rfl

theorem observes_programCounter : Observes programCounter emulator (.ok emulator.pc.value) :=
  fun _ => rfl

theorem observes_effective (instruction : Instruction) :
    Observes (effective instruction.word) emulator
      (((instruction.effectiveAddress emulator.registers).mapError .address).map
        Address.value) := by
  intro frame
  rw [effective, field_regS, Recorder.bind_of_ok (observes_register emulator _ frame), aligned_eq]
  rfl

end Observes

def resultOf (performance : Performance) : Except Fault Unit :=
  match performance.fault with
  | none => .ok ()
  | some fault => .error fault

/-- What is done to a bare machine is what is performed on an emulator, and the records go into
the frame that is open. -/
def Does (action : Recorder Unit) (emulator : Emulator) (performance : Performance) : Prop :=
  ∀ frame, action.run (emulator.during frame) =
    .ok (resultOf performance, performance.emulator.during (frame ++ performance.frame))

section Sequences

variable {emulator : Emulator} {performance : Performance}

theorem Observes.does {α : Type} {first : Recorder α} {next : α → Recorder Unit} {value : α}
    (observes : Observes first emulator (.ok value))
    (does : Does (next value) emulator performance) :
    Does (first >>= next) emulator performance := by
  intro frame
  rw [Recorder.bind_of_ok (observes frame)]
  exact does frame

theorem Observes.fails {α : Type} {first : Recorder α} {next : α → Recorder Unit} {fault : Fault}
    (observes : Observes first emulator (.error fault)) :
    Does (first >>= next) emulator ⟨emulator, [], [], some fault⟩ := by
  intro frame
  rw [Recorder.bind_of_fault (observes frame), List.append_nil]
  rfl

theorem does_fault (emulator : Emulator) (fault : Fault) :
    Does (.ofResult (.error fault)) emulator ⟨emulator, [], [], some fault⟩ := by
  intro frame
  rw [List.append_nil]
  rfl

/-- One thing is done after another, and finds the frame as the first has left it. -/
theorem Does.andThen {second : Performance} {action next : Recorder Unit}
    (does : Does action emulator performance) (succeeds : performance.fault = none)
    (later : Does next performance.emulator second) :
    Does (action >>= fun _ => next) emulator
      ⟨second.emulator, performance.frame ++ second.frame, performance.events ++ second.events,
        second.fault⟩ := by
  intro frame
  have runs := does frame
  rw [resultOf, succeeds] at runs
  rw [Recorder.bind_of_ok runs, later (frame ++ performance.frame), List.append_assoc]
  rfl

theorem Does.andFails {action next : Recorder Unit} {fault : Fault}
    (does : Does action emulator performance) (fails : performance.fault = some fault) :
    Does (action >>= fun _ => next) emulator performance := by
  intro frame
  have runs := does frame
  rw [resultOf, fails] at runs
  rw [Recorder.bind_of_fault runs, resultOf, fails]

end Sequences

theorem record_during (emulator : Emulator) (frame : Frame) (mutation : Mutation) :
    (record mutation.bare).run (emulator.during frame) =
      .ok (.ok (), emulator.during (frame ++ [mutation])) := by
  simp [record, during, bare, Journal.push]

theorem does_setRegister (emulator : Emulator) (index : Register) (value : Word) :
    Does (setRegister index.val value) emulator (emulator.setRegister index value) := by
  refine (observes_register emulator index).does fun frame => ?_
  have entry : (⟨.register, offsetOf index.val, emulator.registers.read index⟩ : BareRecord) =
      (Mutation.ofRegister index (emulator.registers.read index)).bare := by
    rw [offsetOf_val]
    rfl
  rw [entry, Recorder.bind_of_ok (record_during emulator frame _), assignRegister,
    Register.ofIndex_val]
  rfl

theorem does_setMemory (emulator : Emulator) (address : Address) (value : Word) :
    Does (setMemory address.value value) emulator (emulator.setMemory address value) := by
  have observes := observes_memory emulator address
  unfold Emulator.setMemory
  cases read : emulator.ram.read address with
  | error error =>
      rw [read] at observes
      exact observes.fails
  | ok prior =>
      rw [read] at observes
      refine observes.does fun frame => ?_
      have recorded := record_during emulator frame (.ofMemory address prior)
      have written : (emulator.during (frame ++ [.ofMemory address prior])).ram.write
          (place address.value) value = .ok (emulator.ram.setIndex address.index value) := by
        rw [place_value]
        exact if_pos (Ram.lt_size_of_read read)
      refine (Recorder.bind_of_ok recorded).trans ?_
      simp only [assignMemory, written]
      rfl

/-- The register that is written on the way to another program counter. -/
def linked (emulator : Emulator) : Option (Register × Word) → Performance
  | none => ⟨emulator, [], [], none⟩
  | some (index, value) => emulator.setRegister index value

theorem does_setPc {emulator : Emulator} {link : Option (Register × Word)}
    {target : Except Fault Address} {next : Word → Recorder Word}
    (finds : ∀ frame, (next emulator.pc.value).run (emulator.during frame) =
      .ok (target.map Address.value,
        (linked emulator link).emulator.during (frame ++ (linked emulator link).frame))) :
    Does (setPc next) emulator (emulator.setPc link target) := by
  refine (observes_programCounter emulator).does fun frame => ?_
  have recorded := record_during emulator frame (.ofPc emulator.pc)
  have found := finds (frame ++ [.ofPc emulator.pc])
  rw [List.append_assoc] at found
  refine (Recorder.bind_of_ok recorded).trans ?_
  cases target with
  | error fault =>
      rw [Recorder.bind_of_fault found]
      cases link with
      | none => rfl
      | some link => rfl
  | ok pc =>
      rw [Recorder.bind_of_ok found]
      cases link with
      | none => rfl
      | some link => rfl

/-- The program counter is replaced and no register is written on the way. -/
theorem does_move {emulator : Emulator} {next : Word → Recorder Word}
    {target : Except Fault Address}
    (observes : Observes (next emulator.pc.value) emulator (target.map Address.value)) :
    Does (setPc next) emulator (emulator.setPc none target) := by
  apply does_setPc
  intro frame
  rw [observes frame]
  simp only [linked, List.append_nil]

theorem observes_moved (emulator : Emulator) (words : Int) :
    Observes (.ofResult (moved emulator.pc.value words)) emulator
      (((emulator.pc.add words).mapError .address).map Address.value) := by
  rw [moved_eq]
  exact observes_ofResult emulator _

theorem does_setPair (emulator : Emulator) (high low : Word) :
    Does (setPair high low) emulator (emulator.perform (.writePair high low)) :=
  (does_setRegister emulator .hi high).andThen rfl
    (does_setRegister (emulator.setRegister .hi high).emulator .lo low)

theorem does_branch (emulator : Emulator) (instruction : Instruction) (taken : Bool) :
    Does (branch instruction.word taken) emulator
      (emulator.perform (instruction.branch emulator.pc taken)) := by
  cases taken with
  | false =>
      change Does _ emulator (emulator.setPc none (.ok emulator.pc))
      exact does_move fun frame => rfl
  | true =>
      change Does _ emulator (emulator.setPc none
        ((emulator.pc.add instruction.word.immediate.toInt).mapError .address))
      apply does_move
      exact observes_moved emulator instruction.word.immediate.toInt

section Operations

variable (emulator : Emulator) (word : Word) (address : Address)

theorem does_load :
    Does (execute .lw word) emulator (emulator.execute ⟨.lw, word, address⟩) := by
  have observes := observes_effective emulator ⟨.lw, word, address⟩
  simp only [Emulator.execute, Instruction.effect, Instruction.loadEffect, execute, field_regT]
  cases resolved : Instruction.effectiveAddress ⟨.lw, word, address⟩ emulator.registers with
  | error error =>
      rw [resolved] at observes
      exact observes.fails
  | ok target =>
      rw [resolved] at observes
      refine observes.does ?_
      by_cases isInput : target.value = Machine.inputAddress
      · simp only [if_pos isInput]
        exact fun frame => does_setRegister { emulator with tape := emulator.tape.read.2 }
          word.regT (inputWord emulator.tape.read.1) frame
      · have held := observes_memory emulator target
        simp only [if_neg isInput]
        cases read : emulator.ram.read target with
        | error error =>
            rw [read] at held
            exact held.fails
        | ok value =>
            rw [read] at held
            exact held.does (does_setRegister emulator word.regT value)

theorem does_output (value : UInt8) :
    Does (output value) emulator (emulator.perform (.send value)) := by
  intro frame
  have sent : (emulator.during frame).tape.write value = emulator.tape.write value := rfl
  simp only [output, sent, perform]
  cases emulator.tape.write value with
  | error error =>
      rw [List.append_nil]
      rfl
  | ok tape =>
      rw [List.append_nil]
      rfl

theorem does_store :
    Does (execute .sw word) emulator (emulator.execute ⟨.sw, word, address⟩) := by
  have observes := observes_effective emulator ⟨.sw, word, address⟩
  simp only [Emulator.execute, Instruction.effect, Instruction.storeEffect, execute, field_regT]
  cases resolved : Instruction.effectiveAddress ⟨.sw, word, address⟩ emulator.registers with
  | error error =>
      rw [resolved] at observes
      exact observes.fails
  | ok target =>
      rw [resolved] at observes
      refine observes.does ((observes_register emulator word.regT).does ?_)
      by_cases isOutput : target.value = Machine.outputAddress
      · simp only [if_pos isOutput]
        exact does_output emulator _
      · simp only [if_neg isOutput]
        exact does_setMemory emulator target _

theorem does_loadNext :
    Does (execute .lis word) emulator (emulator.execute ⟨.lis, word, address⟩) := by
  have held := observes_memory emulator emulator.pc
  simp only [Emulator.execute, Instruction.effect, Instruction.lisEffect, execute, field_regD]
  cases read : emulator.ram.read emulator.pc with
  | error error =>
      rw [read] at held
      change Does _ emulator (emulator.setPc none (.error (.memory error)))
      exact does_move fun frame => Recorder.bind_of_fault (held frame)
  | ok value =>
      rw [read] at held
      change Does _ emulator (emulator.setPc (some (word.regD, value))
        ((emulator.pc.add 1).mapError .address))
      apply does_setPc
      intro frame
      rw [Recorder.bind_of_ok (held frame),
        Recorder.bind_of_ok (does_setRegister emulator word.regD value frame)]
      exact observes_moved (emulator.setRegister word.regD value).emulator 1 _

end Operations

def performed (emulator : Emulator) : Except Fault Effect → Performance
  | .error fault => ⟨emulator, [], [], some fault⟩
  | .ok effect => emulator.perform effect

theorem execute_eq_performed (emulator : Emulator) (instruction : Instruction) :
    emulator.execute instruction =
      performed emulator (instruction.effect emulator.toMachine) := by
  unfold Emulator.execute
  cases instruction.effect emulator.toMachine with
  | error fault => rfl
  | ok effect => rfl

/-- Jumps to registers differ in what they do on the way to an address that is aligned. -/
theorem does_jump {emulator : Emulator} {instruction : Instruction}
    {link : Option (Register × Word)} {go : Word → Recorder Unit}
    (goes : ∀ target, Does (go target.value) emulator (emulator.setPc link (.ok target))) :
    Does (register instruction.word.regS.val >>= fun value => .ofResult (aligned value) >>= go)
      emulator (performed emulator (instruction.jumpEffect emulator.toMachine link)) := by
  have observes :=
    observes_ofResult emulator (aligned (emulator.registers.read instruction.word.regS))
  refine (observes_register emulator instruction.word.regS).does ?_
  unfold Instruction.jumpEffect
  rw [aligned_eq] at observes ⊢
  cases resolved : Address.ofValue (emulator.registers.read instruction.word.regS) with
  | error error =>
      rw [resolved] at observes
      exact observes.fails
  | ok target =>
      rw [resolved] at observes
      exact observes.does (goes target)

theorem truth_eq (holds : Prop) [Decidable holds] :
    Instruction.truth (decide holds) = if holds then 1 else 0 := by
  simp [Instruction.truth]

theorem does_execute (emulator : Emulator) (instruction : Instruction) :
    Does (execute instruction.op instruction.word) emulator (emulator.execute instruction) := by
  have s := observes_register emulator instruction.word.regS
  have t := observes_register emulator instruction.word.regT
  obtain ⟨op, word, address⟩ := instruction
  cases op with
  | lis => exact does_loadNext emulator word address
  | lw => exact does_load emulator word address
  | sw => exact does_store emulator word address
  | word => exact does_fault emulator _
  | other code => exact does_fault emulator _
  | add =>
      simp only [execute, field_regS, field_regT, field_regD]
      exact s.does (t.does (does_setRegister _ _ _))
  | sub =>
      simp only [execute, field_regS, field_regT, field_regD]
      exact s.does (t.does (does_setRegister _ _ _))
  | slt =>
      simp only [execute, field_regS, field_regT, field_regD, ← truth_eq]
      exact s.does (t.does (does_setRegister _ _ _))
  | sltu =>
      simp only [execute, field_regS, field_regT, field_regD, ← truth_eq]
      exact s.does (t.does (does_setRegister _ _ _))
  | mult =>
      simp only [execute, field_regS, field_regT]
      exact s.does (t.does (does_setPair _ _ _))
  | multu =>
      simp only [execute, field_regS, field_regT]
      exact s.does (t.does (does_setPair _ _ _))
  | div =>
      simp only [execute, field_regS, field_regT, Emulator.execute, Instruction.effect]
      refine s.does (t.does ?_)
      split
      · exact does_fault emulator _
      · exact does_setPair emulator _ _
  | divu =>
      simp only [execute, field_regS, field_regT, Emulator.execute, Instruction.effect]
      refine s.does (t.does ?_)
      split
      · exact does_fault emulator _
      · exact does_setPair emulator _ _
  | mfhi =>
      simp only [execute, field_regD]
      exact (observes_register emulator .hi).does (does_setRegister _ _ _)
  | mflo =>
      simp only [execute, field_regD]
      exact (observes_register emulator .lo).does (does_setRegister _ _ _)
  | beq =>
      simp only [execute, field_regS, field_regT]
      exact s.does (t.does (does_branch emulator ⟨.beq, word, address⟩ _))
  | bne =>
      simp only [execute, field_regS, field_regT]
      exact s.does (t.does (does_branch emulator ⟨.bne, word, address⟩ _))
  | jr =>
      rw [execute_eq_performed]
      simp only [execute, field_regS]
      apply @does_jump emulator ⟨.jr, word, address⟩ none
      intro target
      exact does_move fun frame => rfl
  | jalr =>
      rw [execute_eq_performed]
      simp only [execute, field_regS]
      apply @does_jump emulator ⟨.jalr, word, address⟩ (some (.link, emulator.pc.value))
      intro target
      apply does_setPc
      intro frame
      exact Recorder.bind_of_ok (does_setRegister emulator .link emulator.pc.value frame)

theorem does_advance (emulator : Emulator) (instruction : Instruction) :
    Does (advance instruction) emulator (emulator.advance instruction) := by
  have moves : Does (setPc fun pc => .ofResult (moved pc 1)) emulator _ :=
    does_move (observes_moved emulator 1)
  rw [advance_eq]
  cases added : emulator.pc.add 1 with
  | error error =>
      rw [added] at moves
      exact moves.andFails rfl
  | ok next =>
      rw [added] at moves
      exact moves.andThen rfl (does_execute { emulator with pc := next } instruction)

/-- A step of a bare machine is a step of the emulator, and misuses nothing. -/
theorem step_bare (emulator : Emulator) :
    emulator.bare.step = .ok (emulator.step.emulator.bare, emulator.step.error) := by
  have here : place emulator.bare.pc = emulator.pc := place_value emulator.pc
  have fetch : emulator.bare.ram.instruction emulator.pc = emulator.ram.instruction emulator.pc :=
    rfl
  by_cases returned : emulator.bare.pc = Machine.returnAddress
  · have terminated : emulator.terminated = true := decide_eq_true returned
    rw [step_of_terminated terminated, step, if_pos returned]
  · have running : ¬ emulator.terminated = true := fun terminated =>
      returned (of_decide_eq_true terminated)
    rw [step, if_neg returned, here, fetch, Emulator.step, if_neg running]
    cases fetched : emulator.ram.instruction emulator.pc with
    | error error => simp only [fetched]; rfl
    | ok instruction =>
        have advances : (advance instruction).run emulator.bare.openFrame = _ :=
          does_advance emulator instruction []
        simp only [fetched, advances, resultOf, conclude, List.nil_append]
        cases (emulator.advance instruction).fault with
        | none => rfl
        | some fault => rfl

end BareMachine

end ReversibleMips
