import ReversibleMips.Emulator.Load
import ReversibleMips.Proofs.AddressArithmetic
import ReversibleMips.Proofs.CoherentMemory
import ReversibleMips.Proofs.StepCases

/-!
# Frames as differences

The frame of a step tells exactly what lies between the state before the step and the state
after it.  A frame starts with the program counter, goes on with a second program counter if
the instruction replaces it, and ends with the writes of the instruction.  There are only four
kinds of writes, and what holds of every frame is shown for each of them.
-/

namespace ReversibleMips

namespace Mutation

/-- The record is about a register. -/
def IsRegister (mutation : Mutation) (register : Register) : Prop :=
  mutation.kind = .register ∧ mutation.registerIndex = register.val

/-- The record is about the word of memory with an index. -/
def IsWord (mutation : Mutation) (index : Nat) : Prop :=
  mutation.kind = .memory ∧ mutation.location.index = index

/-- Two records are about the same register or the same word of memory. -/
def SamePlace (first second : Mutation) : Prop :=
  first.kind = second.kind ∧ first.kind ≠ .pc ∧ first.location = second.location

theorem registerIndex_ofRegister (register : Register) (prior : Word) :
    (ofRegister register prior).registerIndex = register.val := by
  apply Address.index_ofNat
  have bounded := register.isLt
  unfold Address.maxIndex
  omega

theorem isRegister_ofRegister {written register : Register} {prior : Word} :
    (ofRegister written prior).IsRegister register ↔ written = register := by
  rw [IsRegister, registerIndex_ofRegister, Fin.ext_iff]
  exact and_iff_right rfl

theorem isWord_ofMemory {address : Address} {prior : Word} {index : Nat} :
    (ofMemory address prior).IsWord index ↔ address.index = index :=
  and_iff_right rfl

theorem not_isWord_ofRegister {register : Register} {prior : Word} {index : Nat} :
    ¬ (ofRegister register prior).IsWord index := by
  rintro ⟨⟨⟩, -⟩

theorem not_isRegister_ofMemory {address : Address} {prior : Word} {register : Register} :
    ¬ (ofMemory address prior).IsRegister register := by
  rintro ⟨⟨⟩, -⟩

theorem not_isRegister_ofPc {pc : Address} {register : Register} :
    ¬ (ofPc pc).IsRegister register := by
  rintro ⟨⟨⟩, -⟩

theorem not_isWord_ofPc {pc : Address} {index : Nat} : ¬ (ofPc pc).IsWord index := by
  rintro ⟨⟨⟩, -⟩

theorem not_samePlace_of_pc {first second : Mutation} (isPc : first.kind = .pc) :
    ¬ first.SamePlace second :=
  fun same => same.2.1 isPc

end Mutation

namespace Emulator

/-- The records of the writes of an instruction, and what the writes make of the registers and
the memory. -/
inductive Writes (registers : Registers) (ram : Ram) : Frame → Registers → Ram → Prop
  | nothing : Writes registers ram [] registers ram
  | register (register : Register) (value : Word) :
      Writes registers ram [.ofRegister register (registers.read register)]
        (registers.write register value) ram
  | pair (high low : Word) :
      Writes registers ram
        [.ofRegister .hi (registers.read .hi), .ofRegister .lo (registers.read .lo)]
        ((registers.write .hi high).write .lo low) ram
  | word {address : Address} {prior : Word} (found : ram.read address = .ok prior)
      (value : Word) :
      Writes registers ram [.ofMemory address prior] registers
        (ram.setIndex address.index value)

namespace Writes

variable {registers written : Registers} {ram stored : Ram} {frame : Frame}

theorem read_eq (writes : Writes registers ram frame written stored) {register : Register}
    (absent : ∀ mutation ∈ frame, ¬ mutation.IsRegister register) :
    written.read register = registers.read register := by
  have apart {other : Register} {prior : Word}
      (member : .ofRegister other prior ∈ frame) : ¬ register = other := by
    intro same
    exact absent _ member (Mutation.isRegister_ofRegister.mpr same.symm)
  cases writes with
  | nothing => rfl
  | word found value => rfl
  | register other value =>
      rw [Registers.read_write, if_neg fun both => apart List.mem_cons_self both.1]
  | pair high low =>
      have noLow : ¬ register = .lo := apart (List.mem_cons_of_mem _ List.mem_cons_self)
      rw [Registers.read_write, if_neg fun both => noLow both.1, Registers.read_write,
        if_neg fun both => apart List.mem_cons_self both.1]

theorem word_eq (writes : Writes registers ram frame written stored) {index : Nat}
    (absent : ∀ mutation ∈ frame, ¬ mutation.IsWord index) :
    stored.words[index]? = ram.words[index]? := by
  cases writes with
  | nothing => rfl
  | register other value => rfl
  | pair high low => rfl
  | @word address prior found value =>
      have apart : address.index ≠ index := by
        intro same
        exact absent _ List.mem_cons_self (Mutation.isWord_ofMemory.mpr same)
      rw [Ram.words_setIndex, Array.getElem?_setIfInBounds, if_neg apart]

theorem registerPrior (writes : Writes registers ram frame written stored) {mutation : Mutation}
    (member : mutation ∈ frame) {register : Register} (concerns : mutation.IsRegister register) :
    mutation.prior = registers.read register := by
  have held {other : Register}
      (concerns : (Mutation.ofRegister other (registers.read other)).IsRegister register) :
      registers.read other = registers.read register := by
    rw [Mutation.isRegister_ofRegister.mp concerns]
  cases writes with
  | nothing => cases member
  | register other value =>
      obtain rfl := List.mem_singleton.mp member
      exact held concerns
  | pair high low =>
      simp only [List.mem_cons, List.not_mem_nil, or_false] at member
      rcases member with rfl | rfl
      · exact held concerns
      · exact held concerns
  | word found value =>
      obtain rfl := List.mem_singleton.mp member
      exact absurd concerns Mutation.not_isRegister_ofMemory

theorem wordPrior (writes : Writes registers ram frame written stored) {mutation : Mutation}
    (member : mutation ∈ frame) {index : Nat} (concerns : mutation.IsWord index) :
    ram.words[index]? = some mutation.prior := by
  cases writes with
  | nothing => cases member
  | register other value =>
      obtain rfl := List.mem_singleton.mp member
      exact absurd concerns Mutation.not_isWord_ofRegister
  | pair high low =>
      simp only [List.mem_cons, List.not_mem_nil, or_false] at member
      rcases member with rfl | rfl
      · exact absurd concerns Mutation.not_isWord_ofRegister
      · exact absurd concerns Mutation.not_isWord_ofRegister
  | word found value =>
      obtain rfl := List.mem_singleton.mp member
      rw [← Mutation.isWord_ofMemory.mp concerns]
      exact Ram.getElem?_of_read found

/-- A write is of a register of the machine or of a word of its memory. -/
theorem known (writes : Writes registers ram frame written stored) {mutation : Mutation}
    (member : mutation ∈ frame) :
    (∃ register, mutation.IsRegister register) ∨ ∃ index, mutation.IsWord index := by
  cases writes with
  | nothing => cases member
  | register other value =>
      obtain rfl := List.mem_singleton.mp member
      exact .inl ⟨other, Mutation.isRegister_ofRegister.mpr rfl⟩
  | pair high low =>
      simp only [List.mem_cons, List.not_mem_nil, or_false] at member
      rcases member with rfl | rfl
      · exact .inl ⟨.hi, Mutation.isRegister_ofRegister.mpr rfl⟩
      · exact .inl ⟨.lo, Mutation.isRegister_ofRegister.mpr rfl⟩
  | @word address prior found value =>
      obtain rfl := List.mem_singleton.mp member
      exact .inr ⟨address.index, Mutation.isWord_ofMemory.mpr rfl⟩

theorem once (writes : Writes registers ram frame written stored) :
    frame.Pairwise fun first second => ¬ first.SamePlace second := by
  cases writes with
  | nothing => exact .nil
  | register other value => exact List.pairwise_singleton _ _
  | word found value => exact List.pairwise_singleton _ _
  | pair high low =>
      refine List.pairwise_pair.mpr ?_
      rintro ⟨-, -, location⟩
      have same : Address.ofNat 32 = Address.ofNat 33 := location
      exact absurd same (by decide)

theorem no_pc (writes : Writes registers ram frame written stored) :
    frame.filter (fun mutation => mutation.kind = .pc) = [] := by
  cases writes <;> rfl

theorem count_memory_le (writes : Writes registers ram frame written stored) :
    frame.countP (fun mutation => mutation.kind = .memory) ≤ 1 := by
  cases writes with
  | nothing => exact Nat.zero_le 1
  | register other value => exact Nat.zero_le 1
  | pair high low => exact Nat.zero_le 1
  | word found value => exact Nat.le_refl 1

end Writes

/-- The writes of an effect come behind the record of the program counter, if the effect
replaces it. -/
theorem writes_perform (emulator : Emulator) (effect : Effect) :
    ∃ moves writes, (emulator.perform effect).frame = moves ++ writes ∧
      (moves = [] ∨ moves = [.ofPc emulator.pc]) ∧ moves.length + writes.length ≤ 2 ∧
      Writes emulator.registers emulator.ram writes
        (emulator.perform effect).emulator.registers (emulator.perform effect).emulator.ram := by
  cases effect with
  | write register value =>
      exact ⟨[], _, rfl, .inl rfl, Nat.le_succ 1, .register register value⟩
  | writePair high low =>
      have prior : (emulator.registers.write .hi high).read .lo =
          emulator.registers.read .lo := by
        rw [Registers.read_write, if_neg (by decide)]
      refine ⟨[], _, rfl, .inl rfl, Nat.le_refl 2, ?_⟩
      simp only [perform, setRegister, prior]
      exact .pair high low
  | store address value =>
      simp only [perform, setMemory]
      cases found : emulator.ram.read address with
      | error error => exact ⟨[], [], rfl, .inl rfl, Nat.zero_le 2, .nothing⟩
      | ok prior => exact ⟨[], _, rfl, .inl rfl, Nat.le_succ 1, .word found value⟩
  | receive register =>
      exact ⟨[], _, rfl, .inl rfl, Nat.le_succ 1, .register register _⟩
  | send value =>
      simp only [perform]
      split
      · exact ⟨[], [], rfl, .inl rfl, Nat.zero_le 2, .nothing⟩
      · exact ⟨[], [], rfl, .inl rfl, Nat.zero_le 2, .nothing⟩
  | jump link target =>
      cases link with
      | none =>
          cases target with
          | error fault => exact ⟨[_], [], rfl, .inr rfl, Nat.le_succ 1, .nothing⟩
          | ok place => exact ⟨[_], [], rfl, .inr rfl, Nat.le_succ 1, .nothing⟩
      | some link =>
          have linked : Writes emulator.registers emulator.ram _ _ _ := .register link.1 link.2
          cases target with
          | error fault => exact ⟨[_], _, rfl, .inr rfl, Nat.le_refl 2, linked⟩
          | ok place => exact ⟨[_], _, rfl, .inr rfl, Nat.le_refl 2, linked⟩

/-- The frame of a step, and the registers and the memory that the step makes of those of an
emulator. -/
inductive Steps (emulator : Emulator) : Frame → Registers → Ram → Prop
  | unfetched {error : RamError}
      (missing : emulator.ram.instruction emulator.pc = .error error) :
      Steps emulator [] emulator.registers emulator.ram
  | fetched {instruction : Instruction} {moves records : Frame} {registers : Registers}
      {ram : Ram} (fetched : emulator.ram.instruction emulator.pc = .ok instruction)
      (moved : moves = [] ∨ ∃ next, emulator.pc.add 1 = .ok next ∧ moves = [.ofPc next])
      (short : moves.length + records.length ≤ 2)
      (writes : Writes emulator.registers emulator.ram records registers ram) :
      Steps emulator (.ofPc emulator.pc :: (moves ++ records)) registers ram

theorem Performs.steps {emulator : Emulator} {instruction : Instruction}
    {performance : Performance} (performs : Performs emulator instruction performance) :
    Steps emulator performance.frame performance.emulator.registers
      performance.emulator.ram := by
  cases performs with
  | unfetched missing => exact .unfetched missing
  | stuck fetched last => exact .fetched fetched (.inl rfl) (Nat.zero_le 2) .nothing
  | faulty fetched moved fails => exact .fetched fetched (.inl rfl) (Nat.zero_le 2) .nothing
  | @effective _ next effect fetched moved found =>
      obtain ⟨moves, records, frameEq, kind, short, writes⟩ :=
        writes_perform { emulator with pc := next } effect
      have once : moves = [] ∨ ∃ next, emulator.pc.add 1 = .ok next ∧ moves = [.ofPc next] := by
        rcases kind with none | one
        · exact .inl none
        · exact .inr ⟨next, moved, one⟩
      have laid := Steps.fetched fetched once short writes
      rw [← frameEq] at laid
      exact laid

/-- A frame is the exact difference between the state before a step and the state after
it. -/
structure Delta (frame : Frame) (earlier later : Emulator) : Prop where
  registers : ∀ register, (∀ mutation ∈ frame, ¬ mutation.IsRegister register) →
    later.registers.read register = earlier.registers.read register
  words : ∀ index, (∀ mutation ∈ frame, ¬ mutation.IsWord index) →
    later.ram.words[index]? = earlier.ram.words[index]?
  registerPrior : ∀ mutation ∈ frame, ∀ register, mutation.IsRegister register →
    mutation.prior = earlier.registers.read register
  wordPrior : ∀ mutation ∈ frame, ∀ index, mutation.IsWord index →
    earlier.ram.words[index]? = some mutation.prior
  known : ∀ mutation ∈ frame, mutation.kind = .pc ∨ (∃ register, mutation.IsRegister register) ∨
    ∃ index, mutation.IsWord index
  /-- No register and no word of memory has two records. -/
  once : frame.Pairwise fun first second => ¬ first.SamePlace second
  empty : frame = [] ↔ ∃ error, earlier.ram.instruction earlier.pc = .error error
  /-- The first record is of the program counter, and a second one of it tells the word behind
  the instruction. -/
  pc : frame ≠ [] → ∃ rest, frame = .ofPc earlier.pc :: rest ∧
    (rest.filter (fun mutation => mutation.kind = .pc) = [] ∨
      ∃ next : Address, next.value.toNat = earlier.pc.value.toNat + 4 ∧
        rest.filter (fun mutation => mutation.kind = .pc) = [.ofPc next])
  length : frame.length ≤ 3
  memory : frame.countP (fun mutation => mutation.kind = .memory) ≤ 1

theorem Steps.delta {earlier later : Emulator} {frame : Frame}
    (steps : Steps earlier frame later.registers later.ram) : Delta frame earlier later := by
  generalize registersEq : later.registers = registers at steps
  generalize ramEq : later.ram = ram at steps
  cases steps with
  | @unfetched error missing =>
      exact
        { registers := fun register _ => by rw [registersEq]
          words := fun index _ => by rw [ramEq]
          registerPrior := by simp
          wordPrior := by simp
          known := by simp
          once := .nil
          empty := ⟨fun _ => ⟨error, missing⟩, fun _ => rfl⟩
          pc := fun some => absurd rfl some
          length := Nat.zero_le 3
          memory := Nat.zero_le 1 }
  | @fetched instruction moves records _ _ fetched moved short writes =>
      have leading : ∀ mutation ∈ Mutation.ofPc earlier.pc :: (moves ++ records),
          mutation ∈ records ∨ ∃ pc, mutation = .ofPc pc := by
        intro mutation member
        rcases List.mem_cons.mp member with rfl | member
        · exact .inr ⟨_, rfl⟩
        · rcases List.mem_append.mp member with early | late
          · rcases moved with rfl | ⟨next, -, rfl⟩
            · cases early
            · exact .inr ⟨next, List.mem_singleton.mp early⟩
          · exact .inl late
      have inside {mutation : Mutation} (member : mutation ∈ records) :
          mutation ∈ Mutation.ofPc earlier.pc :: (moves ++ records) :=
        List.mem_cons_of_mem _ (List.mem_append_right _ member)
      refine ⟨?_, ?_, ?_, ?_, ?_, ?_, ?_, ?_, ?_, ?_⟩
      · intro register absent
        rw [registersEq]
        exact writes.read_eq fun mutation member => absent mutation (inside member)
      · intro index absent
        rw [ramEq]
        exact writes.word_eq fun mutation member => absent mutation (inside member)
      · intro mutation member register concerns
        rcases leading mutation member with written | ⟨pc, rfl⟩
        · exact writes.registerPrior written concerns
        · exact absurd concerns Mutation.not_isRegister_ofPc
      · intro mutation member index concerns
        rcases leading mutation member with written | ⟨pc, rfl⟩
        · exact writes.wordPrior written concerns
        · exact absurd concerns Mutation.not_isWord_ofPc
      · intro mutation member
        rcases leading mutation member with written | ⟨pc, rfl⟩
        · exact .inr (writes.known written)
        · exact .inl rfl
      · refine List.pairwise_cons.mpr ⟨fun _ _ => Mutation.not_samePlace_of_pc rfl, ?_⟩
        rcases moved with rfl | ⟨next, -, rfl⟩
        · exact writes.once
        · exact List.pairwise_cons.mpr ⟨fun _ _ => Mutation.not_samePlace_of_pc rfl, writes.once⟩
      · refine ⟨fun none => absurd none (List.cons_ne_nil _ _), ?_⟩
        rintro ⟨error, missing⟩
        rw [missing] at fetched
        cases fetched
      · intro _
        refine ⟨moves ++ records, rfl, ?_⟩
        rw [List.filter_append, writes.no_pc, List.append_nil]
        rcases moved with rfl | ⟨next, added, rfl⟩
        · exact .inl rfl
        · refine .inr ⟨next, ?_, rfl⟩
          have index := (earlier.pc.add_eq_ok_iff next 1).mp added
          rw [← earlier.pc.four_mul_index, ← next.four_mul_index]
          omega
      · rw [List.length_cons, List.length_append]
        omega
      · have none : moves.countP (fun mutation => mutation.kind = .memory) = 0 := by
          rcases moved with rfl | ⟨next, -, rfl⟩
          · rfl
          · rfl
        rw [List.countP_cons_of_neg (by simp [Mutation.ofPc]), List.countP_append, none,
          Nat.zero_add]
        exact writes.count_memory_le

/-- A journal frame is a precise delta of its step.  Whatever the state is, a step opens a
frame unless the program has returned.  The frames before it stay as they are, and the new one
is the exact difference between the state before the step and the state after it, also if the
step fails. -/
theorem frame_records_difference (emulator : Emulator) (running : emulator.terminated = false) :
    ∃ frame, emulator.step.emulator.journal.toList = emulator.journal.toList ++ [frame] ∧
      Delta frame emulator emulator.step.emulator := by
  obtain ⟨instruction, performance, performs, stepEq⟩ := step_of_running running
  refine ⟨performance.frame, ?_, ?_⟩
  · rw [stepEq, conclude, performs.journal_eq, Journal.toList_push]
  · rw [stepEq]
    exact Steps.delta performs.steps

/-- The loading of a word into the register that programs return by, behind a program that has
made one step. -/
def relinking : Emulator :=
  ((ofSize 3).load [0, 0x22, 0x18, 0x20, 0, 0, 0xf8, 0x14, 0, 0, 0, 5]).emulator.step.emulator

/-- The link is written before the program counter is replaced and recorded behind it. -/
theorem frame_records_difference_relinking :
    relinking.terminated = false ∧ relinking.journal.length = 1 ∧
      Delta [.ofPc (.ofNat 1), .ofPc (.ofNat 2), .ofRegister .link Machine.returnAddress]
        relinking relinking.step.emulator := by
  have running : relinking.terminated = false := by decide +kernel
  have latest : relinking.step.emulator.journal.toList.getLast? =
      some [.ofPc (.ofNat 1), .ofPc (.ofNat 2),
        .ofRegister .link Machine.returnAddress] := by decide +kernel
  obtain ⟨frame, journal, delta⟩ := frame_records_difference relinking running
  rw [journal, List.getLast?_append, List.getLast?_singleton] at latest
  obtain rfl := Option.some.inj latest
  exact ⟨running, by decide +kernel, delta⟩

end Emulator
end ReversibleMips
