import ReversibleMips.Proofs.Linking
import ReversibleMips.Proofs.Reachability

/-!
# Programs with labels

What a source with labels becomes, from its lines to the steps of the program.  Labels are
where the lines put them, linking fails only for a reason that it tells, and in a program
that was linked the data are the addresses of their labels and the branches lead to theirs.
A step moves on before it branches, and the distance that was linked is counted from there.
-/

namespace ReversibleMips

namespace Opcode

/-- A branch is taken with some contents of the registers. -/
def Taken (opcode : Opcode) (registers : Registers) : Prop :=
  let equal := registers.read opcode.code.regS = registers.read opcode.code.regT
  opcode.operation? = some .beq ∧ equal ∨ opcode.operation? = some .bne ∧ ¬ equal

instance (opcode : Opcode) (registers : Registers) : Decidable (opcode.Taken registers) :=
  inferInstanceAs (Decidable (_ ∧ _ ∨ _ ∧ ¬ _))

/-- Wherever a branch stands at its own address, a step of a program that has not returned
executes it without an error.  It goes on at a target if the branch is taken, and at the word
behind it if not. -/
def LeadsTo (opcode : Opcode) (target : UInt32) : Prop :=
  ∀ emulator : Emulator, emulator.Reachable → emulator.terminated = false →
    emulator.pc.value = opcode.pc → emulator.ram.read emulator.pc = .ok opcode.code →
      emulator.step.error = none ∧
        emulator.step.emulator.pc.value.toNat =
          if opcode.Taken emulator.registers then target.toNat else opcode.pc.toNat + 4

end Opcode

theorem Instruction.effect_branch {word : Word} {address : Address} {machine : Machine}
    {target : Address} (branch : word.op = .beq ∨ word.op = .bne)
    (goes : machine.pc.add word.immediate.toInt = .ok target) :
    let equal := machine.registers.read word.regS = machine.registers.read word.regT
    (decode word address).effect machine =
      .ok (.jump none (.ok
        (if word.op = .beq ∧ equal ∨ word.op = .bne ∧ ¬ equal then target else machine.pc))) := by
  have reached : (machine.pc.add word.immediate.toInt).mapError Fault.address = .ok target := by
    rw [goes]
    rfl
  rcases branch with op | op
  all_goals
    by_cases equal : machine.registers.read word.regS = machine.registers.read word.regT
    all_goals simp [effect, decode_eq, op, equal, Instruction.branch, reached]

/-- A branch is executed without a fault if there are places to go on at. -/
theorem Emulator.step_branch {emulator : Emulator} (reachable : emulator.Reachable)
    (running : emulator.terminated = false) {word : Word}
    (read : emulator.ram.read emulator.pc = .ok word) (branch : word.op = .beq ∨ word.op = .bne)
    {next target : Address} (moved : emulator.pc.add 1 = .ok next)
    (goes : next.add word.immediate.toInt = .ok target) :
    let equal := emulator.registers.read word.regS = emulator.registers.read word.regT
    emulator.step.error = none ∧
      emulator.step.emulator.pc =
        if word.op = .beq ∧ equal ∨ word.op = .bne ∧ ¬ equal then target else next := by
  have fetched : emulator.ram.instruction emulator.pc = .ok (.decode word emulator.pc) := by
    rw [reachable.coherent.instruction_eq, read]
    rfl
  have effect := @Instruction.effect_branch word emulator.pc
    { emulator.toMachine with pc := next } target branch goes
  rw [step_of_fetched running fetched moved, execute, effect]
  exact ⟨rfl, rfl⟩

namespace Assembler

/-- A branch that was linked to a target leads to the target. -/
theorem step_linkedBranch {index count : Nat} {opcode : Opcode} {target : UInt32} {op : Op}
    {s t : Nat} (placed : Placed index opcode) (inside : index + 1 < 0x40000000)
    (targetEq : target.toNat = 4 * count) (targetInside : count < 0x40000000)
    (conditional : op = .beq ∨ op = .bne) (sGeneral : s < 32) (tGeneral : t < 32)
    (near : opcode.Reaches target) {code : Word}
    (codeEq : code = op.encode s t 0 (Int16.ofInt (opcode.distance target)))
    {emulator : Emulator} (reachable : emulator.Reachable)
    (running : emulator.terminated = false) (here : emulator.pc.value = opcode.pc)
    (read : emulator.ram.read emulator.pc = .ok code) :
    let equal := emulator.registers.read code.regS = emulator.registers.read code.regT
    emulator.step.error = none ∧
      emulator.step.emulator.pc.value.toNat =
        if op = .beq ∧ equal ∨ op = .bne ∧ ¬ equal then target.toNat
        else opcode.pc.toNat + 4 := by
  obtain ⟨opEq, -, -, immediateEq⟩ := fields_encode_branch conditional sGeneral tGeneral
    (Int16.ofInt (opcode.distance target))
  rw [← codeEq] at opEq immediateEq
  have pcEq := placed.toNat_pc inside
  have maxEq : Address.maxIndex = 0x3fffffff := rfl
  have indexEq : emulator.pc.index = index := by
    have fourIndex := emulator.pc.four_mul_index
    rw [here, pcEq] at fourIndex
    omega
  have moved : emulator.pc.add 1 = .ok (Address.ofNat (index + 1)) :=
    Address.add_eq_ofNat (by omega) (by omega)
  have offset : code.immediate.toInt = opcode.distance target := by
    rw [immediateEq, Int16.toInt_ofInt_of_le]
    · exact near.1
    · exact Int.lt_of_le_of_lt near.2 (by decide)
  have goes : (Address.ofNat (index + 1)).add code.immediate.toInt = .ok (Address.ofNat count) := by
    apply Address.add_eq_ofNat
    · rw [Address.index_ofNat (by omega), offset, Opcode.distance, pcEq, targetEq]
      omega
    · omega
  obtain ⟨noError, pcAfter⟩ := Emulator.step_branch reachable running read
    (by rw [opEq]; exact conditional) moved goes
  refine ⟨noError, ?_⟩
  rw [pcAfter, opEq]
  split
  · rw [Address.toNat_ofNat (by omega), targetEq]
  · rw [Address.toNat_ofNat (by omega), pcEq]
    omega

theorem link_eq {assembly : Assembly} {opcodes : List Opcode} {error : Option SourceError}
    (links : Assembly.linkOpcodes assembly.labels assembly.opcodes.toList = (opcodes, error)) :
    assembly.link = ({ assembly with opcodes := opcodes.toArray }, error) := by
  simp only [Assembly.link, links]

section Source

variable {predefined : Definitions} {source : Glyphs}
    (passes : (firstPass predefined source).2 = none)
    (fits : (firstPass predefined source).1.opcodes.size < 0x40000000)
include passes fits

theorem labels_firstPass (label : Glyphs) (address : UInt32) :
    (firstPass predefined source).1.labels[label]? = some address ↔
      ∃ count, (Assembly.start predefined).Defines 0 [] source.lines label count ∧
        address.toNat = 4 * count := by
  have read := readLines_firstPass passes
  have empty : (Assembly.start predefined).labels[label]? = none := Std.TreeMap.getElem?_emptyc
  rw [Assembly.labels_of_readLines read, empty]
  simp only [reduceCtorEq, false_or]
  apply exists_congr
  intro count
  apply and_congr_right
  intro defines
  have small := defines.count_le read
  have whole : (UInt32.ofNat (4 * count)).toNat = 4 * count := by
    rw [UInt32.toNat_ofNat', Nat.mod_eq_of_lt (by omega)]
  rw [← UInt32.toNat_inj, whole]

theorem target_firstPass {label : Glyphs} {target : UInt32}
    (defined : (firstPass predefined source).1.labels[label]? = some target) :
    ∃ count < 0x40000000, target.toNat = 4 * count := by
  have read := readLines_firstPass passes
  obtain ⟨count, defines, place⟩ := (labels_firstPass passes fits label target).mp defined
  have small := defines.count_le read
  exact ⟨count, by omega, place⟩

theorem allPlaced_firstPass : AllPlaced (firstPass predefined source).1.opcodes.toList := by
  have listed := listed_firstPass passes
  intro opcode member
  obtain ⟨index, found⟩ := List.getElem?_of_mem member
  have inside : index < (firstPass predefined source).1.opcodes.size := by
    simpa using (List.getElem?_eq_some_iff.mp found).1
  exact ⟨index, listed index opcode (by simpa using found), by omega⟩

/-- What a linked opcode with a label holds, and what its branch does. -/
theorem leadsTo_of_linked {earlier opcode : Opcode} {label : Glyphs}
    (member : earlier ∈ (firstPass predefined source).1.opcodes.toList)
    (linked : Linked (firstPass predefined source).1.labels earlier opcode)
    (refers : opcode.label = some label) :
    ∃ target, (firstPass predefined source).1.labels[label]? = some target ∧
      (opcode.operation? = some .word → opcode.code = target) ∧
      (opcode.IsBranch → opcode.LeadsTo target) := by
  obtain ⟨index, placed, inside⟩ := allPlaced_firstPass passes fits earlier member
  cases linked with
  | unlabelled alone =>
      rw [alone] at refers
      cases refers
  | @datum found target earlierRefers defined word =>
      have same : found = label := Option.some.inj (earlierRefers.symm.trans refers)
      subst same
      refine ⟨target, defined, fun _ => rfl, ?_⟩
      rintro (beq | bne)
      · exact absurd (word.symm.trans beq) (by decide)
      · exact absurd (word.symm.trans bne) (by decide)
  | @branch found target op s t earlierRefers defined mnemonic conditional sGeneral tGeneral near =>
      have same : found = label := Option.some.inj (earlierRefers.symm.trans refers)
      subst same
      obtain ⟨count, small, place⟩ := target_firstPass passes fits defined
      refine ⟨target, defined, ?_, ?_⟩
      · intro word
        have op : op = .word := Option.some.inj (mnemonic.symm.trans word)
        subst op
        exact absurd conditional (by decide)
      · intro branch emulator reachable running here read
        have step := step_linkedBranch placed inside place small conditional sGeneral tGeneral near
          rfl reachable running here read
        unfold Opcode.Taken
        simp only [Opcode.operation?] at mnemonic ⊢
        simp only [mnemonic, Option.some.injEq]
        exact step

theorem pc_firstPass {index : Nat} {opcode : Opcode}
    (found : (firstPass predefined source).1.opcodes[index]? = some opcode) :
    opcode.pc.toNat = 4 * index := by
  have listed := listed_firstPass passes
  have inside : index < (firstPass predefined source).1.opcodes.size :=
    (Array.getElem?_eq_some_iff.mp found).1
  exact (listed index opcode found).toNat_pc (by omega)

/-- Once it is loaded, memory has every opcode at its own address. -/
theorem read_load_of_linked {linked : List Opcode}
    (same : linked.map Opcode.withoutCode =
      (firstPass predefined source).1.opcodes.toList.map Opcode.withoutCode)
    {opcode : Opcode} (member : opcode ∈ linked) {emulator : Emulator}
    (succeeds : (emulator.load (Program.image ⟨linked⟩)).error = none) {address : Address}
    (here : address.value = opcode.pc) :
    (emulator.load (Program.image ⟨linked⟩)).emulator.ram.read address = .ok opcode.code := by
  obtain ⟨index, found⟩ := List.getElem?_of_mem member
  have sameAt : linked[index]?.map Opcode.withoutCode =
      (firstPass predefined source).1.opcodes[index]?.map Opcode.withoutCode := by
    have sameLists := congrArg (fun opcodes => opcodes[index]?) same
    simpa using sameLists
  rw [found, Option.map_some] at sameAt
  obtain ⟨earlier, earlierFound, sameOpcode⟩ := Option.map_eq_some_iff.mp sameAt.symm
  have samePc : earlier.pc = opcode.pc := by
    change earlier.withoutCode.pc = opcode.withoutCode.pc
    rw [sameOpcode]
  have place := pc_firstPass passes fits earlierFound
  have indexEq : address.index = index := by
    have fourIndex := address.four_mul_index
    rw [here, ← samePc, place] at fourIndex
    omega
  apply Emulator.read_load succeeds
  simp [indexEq, found]

end Source

/-- A program whose labels have been linked. -/
structure LinkedProgram (first final : Assembly) : Prop where
  labels : final.labels = first.labels
  opcodes : final.program.opcodes.map Opcode.withoutCode =
    first.opcodes.toList.map Opcode.withoutCode
  loaded : ∀ opcode ∈ final.program.opcodes, ∀ emulator : Emulator,
    (emulator.load final.program.image).error = none →
      ∀ address : Address, address.value = opcode.pc →
        (emulator.load final.program.image).emulator.ram.read address = .ok opcode.code
  data : ∀ opcode ∈ final.program.opcodes, ∀ label, opcode.label = some label →
    opcode.operation? = some .word → final.labels[label]? = some opcode.code
  branches : ∀ opcode ∈ final.program.opcodes, ∀ label, opcode.label = some label →
    opcode.IsBranch → ∃ target, final.labels[label]? = some target ∧ opcode.LeadsTo target

theorem linkedProgram_of_linked {predefined : Definitions} {source : Glyphs}
    (passes : (firstPass predefined source).2 = none)
    (fits : (firstPass predefined source).1.opcodes.size < 0x40000000) {linked : List Opcode}
    (same : linked.map Opcode.withoutCode =
      (firstPass predefined source).1.opcodes.toList.map Opcode.withoutCode)
    (areLinked : ∀ opcode ∈ linked, ∃ earlier ∈ (firstPass predefined source).1.opcodes.toList,
      Linked (firstPass predefined source).1.labels earlier opcode) :
    LinkedProgram (firstPass predefined source).1
      { (firstPass predefined source).1 with opcodes := linked.toArray } where
  labels := rfl
  opcodes := same
  loaded := by
    intro opcode member emulator succeeds address here
    exact read_load_of_linked passes fits same member succeeds here
  data := by
    intro opcode member label refers word
    obtain ⟨earlier, earlierMember, isLinked⟩ := areLinked opcode member
    obtain ⟨target, defined, code, -⟩ :=
      leadsTo_of_linked passes fits earlierMember isLinked refers
    rw [code word]
    exact defined
  branches := by
    intro opcode member label refers branch
    obtain ⟨earlier, earlierMember, isLinked⟩ := areLinked opcode member
    obtain ⟨target, defined, -, leads⟩ :=
      leadsTo_of_linked passes fits earlierMember isLinked refers
    exact ⟨target, defined, leads branch⟩

/-- Labels link, in the text and when the program runs. -/
theorem labels_link (predefined : Definitions) (source : Glyphs)
    (passes : (firstPass predefined source).2 = none)
    (fits : (firstPass predefined source).1.opcodes.size < 0x40000000) :
    let first := (firstPass predefined source).1
    let final := (assemble predefined source).1
    let error := (assemble predefined source).2
    (∀ label address, first.labels[label]? = some address ↔
      ∃ count, (Assembly.start predefined).Defines 0 [] source.lines label count ∧
        address.toNat = 4 * count) ∧
    (∀ index opcode, first.opcodes[index]? = some opcode → opcode.pc.toNat = 4 * index) ∧
    (error = none ↔ ∀ opcode ∈ first.opcodes.toList, Linkable first.labels opcode) ∧
    (∀ found, error = some found → BlamesFirst first.labels first.opcodes.toList found) ∧
    (error = none → LinkedProgram first final) := by
  intro first final error
  have aligned : ∀ (label : Glyphs) (target : UInt32), first.labels[label]? = some target →
      target.toNat % 4 = 0 := by
    intro label target defined
    obtain ⟨count, -, place⟩ := target_firstPass passes fits defined
    omega
  refine ⟨labels_firstPass passes fits, fun index opcode => pc_firstPass passes fits, ?_⟩
  rcases linkOpcodes_cases aligned (allPlaced_firstPass passes fits) with
    ⟨linked, links, linkables, same, areLinked⟩ | ⟨kept, found, links, blamed⟩
  · have assembled := (assemble_of_firstPass passes).trans (link_eq links)
    have noError : error = none := congrArg Prod.snd assembled
    have finalEq : final = { first with opcodes := linked.toArray } :=
      congrArg Prod.fst assembled
    refine ⟨⟨fun _ => linkables, fun _ => noError⟩, ?_, fun _ => ?_⟩
    · intro found isError
      rw [noError] at isError
      cases isError
    · rw [finalEq]
      exact linkedProgram_of_linked passes fits same areLinked
  · have failed : error = some found :=
      congrArg Prod.snd ((assemble_of_firstPass passes).trans (link_eq links))
    have hasError : error ≠ none := by
      rw [failed]
      exact Option.some_ne_none found
    refine ⟨⟨fun noError => absurd noError hasError, fun linkables => ?_⟩, ?_,
      fun noError => absurd noError hasError⟩
    · obtain ⟨earlier, culprit, later, cut, fine, stuck, -⟩ := blamed
      exact absurd (linkables culprit (by simp [first, cut])) stuck
    · intro other isOther
      rw [failed] at isOther
      cases isOther
      exact blamed

/-- Two labels at one address, one behind the last word, a branch forward, a branch backward
and a datum. -/
def crossing : Glyphs :=
  Glyphs.ofString
    "start: again: beq $0, $0, end\n.word end ; where to go\nbne $1, $0, start\nend:"

def crossingForward : Opcode :=
  { lineNo := 1
    pc := 0
    words := ["beq", "$0", "$0", "end"].map Glyphs.ofString
    code := 0x10000002
    label := some (Glyphs.ofString "end") }

def crossingProgram : Program :=
  ⟨[crossingForward,
    { lineNo := 2
      pc := 4
      words := [".word", "end"].map Glyphs.ofString
      code := 12
      label := some (Glyphs.ofString "end") },
    { lineNo := 3
      pc := 8
      words := ["bne", "$1", "$0", "start"].map Glyphs.ofString
      code := 0x1420fffd
      label := some (Glyphs.ofString "start") }]⟩

theorem labels_link_crossing :
    let loaded := ((Emulator.ofSize 4).load crossingProgram.image).emulator
    (firstPass [] crossing).2 = none ∧ (firstPass [] crossing).1.opcodes.size < 0x40000000 ∧
      (assemble [] crossing).2 = none ∧ (assemble [] crossing).1.program = crossingProgram ∧
      loaded.step.error = none ∧ loaded.step.emulator.pc.value.toNat = 12 := by
  obtain ⟨passes, fits, noError, program, twelve⟩ :
      (firstPass [] crossing).2 = none ∧ (firstPass [] crossing).1.opcodes.size < 0x40000000 ∧
        (assemble [] crossing).2 = none ∧ (assemble [] crossing).1.program = crossingProgram ∧
        (assemble [] crossing).1.labels[Glyphs.ofString "end"]? = some 12 := by
    decide +kernel
  have linked := (labels_link [] crossing passes fits).2.2.2.2 noError
  have member : crossingForward ∈ (assemble [] crossing).1.program.opcodes := by
    rw [program]
    exact List.mem_cons_self
  have loads : ((Emulator.ofSize 4).load crossingProgram.image).error = none := by
    decide +kernel
  obtain ⟨target, defined, leads⟩ := linked.branches crossingForward member _ rfl
    (.inl (by decide +kernel))
  have targetEq : target = 12 := Option.some.inj (defined.symm.trans twelve)
  have read := linked.loaded crossingForward member (Emulator.ofSize 4)
  rw [program] at read
  have stepped := leads _ (.loaded (.image (Emulator.ofSize 4) _ loads)) (by decide +kernel)
    (by decide +kernel) (read loads _ (by decide +kernel))
  rw [targetEq, if_pos (by decide +kernel)] at stepped
  exact ⟨passes, fits, noError, program, stepped⟩

end Assembler
end ReversibleMips
