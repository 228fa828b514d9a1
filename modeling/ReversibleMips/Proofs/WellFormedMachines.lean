import ReversibleMips.Proofs.BareExecution
import ReversibleMips.Proofs.FrameDeltas
import ReversibleMips.Proofs.Reachability

/-!
# Well-formed machines

A bare machine is well-formed if its zero register holds zero, its program counter is aligned,
and each of its records can be put back.  Loads give machines that are well-formed, and running
forwards and backwards keeps them so.  A well-formed machine never misuses its registers or its
journal, and the records that it undoes are all put back.
-/

namespace ReversibleMips

/-- A record that can be put back, with a memory of that many words. -/
structure BareRecord.WellFormed (size : Nat) (record : BareRecord) : Prop where
  aligned : record.location.toNat % 4 = 0
  register : record.kind = .register → record.location.toNat / 4 ≤ 33
  zero : record.kind = .register → record.location.toNat / 4 = 0 → record.prior = 0
  memory : record.kind = .memory → record.location.toNat < 4 * size

/-- A machine whose numbers are all in bounds. -/
structure BareMachine.WellFormed (machine : BareMachine) : Prop where
  zero : machine.registers.read .zero = 0
  aligned : machine.pc.toNat % 4 = 0
  records : ∀ frame ∈ machine.journal, ∀ record ∈ frame, record.WellFormed machine.ram.size

theorem Registers.read_zero_write (registers : Registers) (written : Register) (value : Word) :
    (registers.write written value).read .zero = registers.read .zero := by
  rw [Registers.read_write, if_neg]
  rintro ⟨same, other⟩
  exact other same.symm

namespace Emulator

theorem wellFormed_bare {emulator : Emulator} (zero : emulator.registers.read .zero = 0)
    (records : ∀ frame ∈ emulator.journal.frames, ∀ mutation ∈ frame,
      mutation.bare.WellFormed emulator.ram.size) :
    emulator.bare.WellFormed where
  zero := zero
  aligned := emulator.pc.aligned
  records := by
    intro frame recorded record member
    obtain ⟨mutations, kept, rfl⟩ := List.mem_map.mp recorded
    obtain ⟨mutation, inside, rfl⟩ := List.mem_map.mp member
    exact records mutations kept mutation inside

theorem wellFormed_of_mem {emulator : Emulator} (wellFormed : emulator.bare.WellFormed)
    {frame : Frame} (recorded : frame ∈ emulator.journal.frames) {mutation : Mutation}
    (member : mutation ∈ frame) : mutation.bare.WellFormed emulator.ram.size :=
  wellFormed.records _ (List.mem_map_of_mem recorded) _ (List.mem_map_of_mem member)

theorem Loaded.wellFormed {emulator : Emulator} (loaded : Loaded emulator) :
    emulator.bare.WellFormed := by
  apply wellFormed_bare
  · cases loaded with
    | image earlier image succeeds =>
        rw [load_of_fits (fits_of_load succeeds)]
        simp only [withProgram, Registers.read_zero_write, Registers.read_empty]
    | twoInts earlier image first second succeeds =>
        rw [loadTwoInts_of_fits (fits_of_loadTwoInts succeeds)]
        simp only [setArguments, withProgram, Registers.read_zero_write, Registers.read_empty]
    | array earlier image elements succeeds =>
        obtain ⟨fits, room⟩ := fits_of_loadArray succeeds
        rw [loadArray_of_fits fits room]
        simp only [withArray, setArguments, withProgram, Registers.read_zero_write,
          Registers.read_empty]
  · rw [loaded.fresh.journal]
    intro frame recorded
    cases recorded

theorem Writes.read_zero {registers written : Registers} {ram stored : Ram} {frame : Frame}
    (writes : Writes registers ram frame written stored) :
    written.read .zero = registers.read .zero := by
  cases writes with
  | nothing => rfl
  | register other value => exact registers.read_zero_write other value
  | pair high low => rw [Registers.read_zero_write, Registers.read_zero_write]
  | word found value => rfl

theorem Steps.read_zero {emulator : Emulator} {frame : Frame} {registers : Registers} {ram : Ram}
    (steps : Steps emulator frame registers ram) :
    registers.read .zero = emulator.registers.read .zero := by
  cases steps with
  | unfetched missing => rfl
  | fetched fetched moved short writes => exact writes.read_zero

theorem Delta.isRegister {frame : Frame} {earlier later : Emulator}
    (delta : Delta frame earlier later) {mutation : Mutation} (member : mutation ∈ frame)
    (kind : mutation.kind = .register) : ∃ register, mutation.IsRegister register := by
  rcases delta.known mutation member with isPc | known | ⟨index, isMemory, -⟩
  · rw [isPc] at kind
    cases kind
  · exact known
  · rw [isMemory] at kind
    cases kind

theorem Delta.isWord {frame : Frame} {earlier later : Emulator}
    (delta : Delta frame earlier later) {mutation : Mutation} (member : mutation ∈ frame)
    (kind : mutation.kind = .memory) : ∃ index, mutation.IsWord index := by
  rcases delta.known mutation member with isPc | ⟨register, isRegister, -⟩ | known
  · rw [isPc] at kind
    cases kind
  · rw [isRegister] at kind
    cases kind
  · exact known

/-- The records of a step are well-formed, since they tell about the state before it. -/
theorem Delta.wellFormed {frame : Frame} {earlier later : Emulator}
    (delta : Delta frame earlier later) (zero : earlier.registers.read .zero = 0)
    {mutation : Mutation} (member : mutation ∈ frame) :
    mutation.bare.WellFormed earlier.ram.size where
  aligned := mutation.location.aligned
  register := by
    intro kind
    obtain ⟨register, -, index⟩ := delta.isRegister member kind
    have bounded := register.isLt
    change mutation.registerIndex ≤ 33
    omega
  zero := by
    intro kind isZero
    obtain ⟨register, concerns⟩ := delta.isRegister member kind
    have same : register = .zero := Fin.ext (concerns.2.symm.trans isZero)
    rw [same] at concerns
    exact (delta.registerPrior mutation member .zero concerns).trans zero
  memory := by
    intro kind
    obtain ⟨index, concerns⟩ := delta.isWord member kind
    have held := delta.wordPrior mutation member index concerns
    have inside : index < earlier.ram.size := (Array.getElem?_eq_some_iff.mp held).1
    have location := mutation.location.four_mul_index
    change mutation.location.value.toNat < 4 * earlier.ram.size
    rw [← location, concerns.2]
    omega

theorem wellFormed_step {emulator : Emulator} (wellFormed : emulator.bare.WellFormed) :
    emulator.step.emulator.bare.WellFormed := by
  cases terminated : emulator.terminated with
  | true =>
      rw [step_of_terminated terminated]
      exact wellFormed
  | false =>
      have size := (written_step emulator).size_eq
      obtain ⟨instruction, performance, performs, stepEq⟩ := step_of_running terminated
      rw [stepEq] at size ⊢
      have delta : Delta performance.frame emulator performance.emulator := performs.steps.delta
      apply wellFormed_bare
      · exact performs.steps.read_zero.trans wellFormed.zero
      · -- The new frame tells about the state before the step, and memory keeps its size.
        intro frame recorded mutation member
        rw [size]
        simp only [conclude, performs.journal_eq, Journal.push] at recorded
        rcases List.mem_cons.mp recorded with rfl | earlier
        · exact delta.wellFormed wellFormed.zero member
        · exact wellFormed_of_mem wellFormed earlier member

/-- What putting records back does not change. -/
structure Kept (earlier later : Emulator) : Prop where
  zero : later.registers.read .zero = earlier.registers.read .zero
  size : later.ram.size = earlier.ram.size
  journal : later.journal = earlier.journal

theorem kept_restore (emulator : Emulator) (mutation : Mutation) :
    Kept emulator (emulator.restore mutation).emulator := by
  unfold restore
  split
  · split
    · exact ⟨rfl, rfl, rfl⟩
    · exact ⟨emulator.registers.read_zero_write _ _, rfl, rfl⟩
  · split
    · exact ⟨rfl, rfl, rfl⟩
    · exact ⟨rfl, (Ram.Written.same.setIndex _ _).size_eq, rfl⟩
  · exact ⟨rfl, rfl, rfl⟩
  · exact ⟨rfl, rfl, rfl⟩

theorem kept_restoreAll (emulator : Emulator) (mutations : List Mutation) :
    Kept emulator (emulator.restoreAll mutations).emulator :=
  @related_restoreAll Kept (fun _ => ⟨rfl, rfl, rfl⟩)
    (fun first second => ⟨second.zero.trans first.zero, second.size.trans first.size,
      second.journal.trans first.journal⟩)
    kept_restore emulator mutations

/-- A call succeeds, and the bare machine replies with the state that it leads to. -/
structure Succeeds (outcome : Outcome) (reply : BareMachine.Reply) : Prop where
  error : outcome.error = none
  reply : reply = .ok (outcome.emulator.bare, none)

theorem succeeds_restore {emulator : Emulator} {mutation : Mutation}
    (wellFormed : mutation.bare.WellFormed emulator.ram.size) :
    Succeeds (emulator.restore mutation) (emulator.bare.restore mutation.bare) := by
  have here : BareMachine.place mutation.bare.location = mutation.location :=
    BareMachine.place_value mutation.location
  have sameKind : mutation.bare.kind = mutation.kind := rfl
  rw [restore, BareMachine.restore, here, sameKind]
  cases kind : mutation.kind with
  | register =>
      have bounded : mutation.registerIndex < 34 :=
        Nat.lt_succ_of_le (wellFormed.register kind)
      have found := Register.ofIndex_val ⟨mutation.registerIndex, bounded⟩
      have alike : Register.ofIndex mutation.location.index =
          .ok ⟨mutation.registerIndex, bounded⟩ := found
      simp only [found, alike]
      exact ⟨rfl, rfl⟩
  | memory =>
      have inside : mutation.location.index < emulator.ram.size := by
        have bound : mutation.location.value.toNat < _ := wellFormed.memory kind
        have location := mutation.location.four_mul_index
        omega
      have write : emulator.bare.ram.write mutation.location mutation.bare.prior = .ok _ :=
        if_pos inside
      cases found : emulator.ram.read mutation.location with
      | error error =>
          have outside := ((emulator.ram.read_eq_error_iff _ _).mp found).1
          omega
      | ok replaced =>
          simp only [write]
          exact ⟨rfl, rfl⟩
  | pc => exact ⟨rfl, rfl⟩
  | other code => exact ⟨rfl, rfl⟩

theorem succeeds_restoreAll {emulator : Emulator} {mutations : List Mutation}
    (wellFormed : ∀ mutation ∈ mutations, mutation.bare.WellFormed emulator.ram.size) :
    Succeeds (emulator.restoreAll mutations)
      (emulator.bare.restoreAll (mutations.map Mutation.bare)) := by
  induction mutations generalizing emulator with
  | nil => exact ⟨rfl, rfl⟩
  | cons mutation rest ih =>
      have first := succeeds_restore (wellFormed mutation List.mem_cons_self)
      have kept := kept_restore emulator mutation
      rw [List.map_cons, restoreAll, BareMachine.restoreAll, first.reply]
      have none := first.error
      generalize emulator.restore mutation = outcome at none kept
      obtain ⟨next, events, error⟩ := outcome
      subst none
      have others := @ih next fun mutation member => by
        rw [kept.size]
        exact wellFormed mutation (List.mem_cons_of_mem _ member)
      exact ⟨others.error, others.reply⟩

theorem succeeds_undo {emulator : Emulator} (wellFormed : emulator.bare.WellFormed)
    (some : 0 < emulator.history) :
    Succeeds emulator.undo emulator.bare.undo ∧ emulator.undo.emulator.bare.WellFormed ∧
      emulator.undo.emulator.history + 1 = emulator.history := by
  obtain ⟨machine, ⟨frames⟩⟩ := emulator
  cases frames with
  | nil => exact absurd some (Nat.lt_irrefl 0)
  | cons frame earlier =>
      have records {mutation : Mutation} (member : mutation ∈ frame) :
          mutation.bare.WellFormed machine.ram.size :=
        wellFormed_of_mem wellFormed List.mem_cons_self member
      have restored := @succeeds_restoreAll ⟨machine, ⟨earlier⟩⟩ frame.reverse
        fun mutation member => records (List.mem_reverse.mp member)
      have kept := kept_restoreAll ⟨machine, ⟨earlier⟩⟩ frame.reverse
      have forgotten : (bare ⟨machine, ⟨frame :: earlier⟩⟩).undo =
          (bare ⟨machine, ⟨earlier⟩⟩).restoreAll (frame.reverse.map Mutation.bare) := by
        rw [List.map_reverse]
        rfl
      rw [forgotten, restored.reply]
      have none := restored.error
      simp only [undo, Journal.last?, List.head?_cons, Journal.pop, List.tail_cons]
      generalize restoreAll ⟨machine, ⟨earlier⟩⟩ frame.reverse = outcome at none kept
      obtain ⟨next, events, error⟩ := outcome
      subst none
      refine ⟨⟨rfl, rfl⟩, wellFormed_bare (kept.zero.trans wellFormed.zero) ?_, ?_⟩
      · intro other recorded mutation member
        rw [kept.journal] at recorded
        rw [kept.size]
        exact wellFormed_of_mem wellFormed (List.mem_cons_of_mem _ recorded) member
      · change next.journal.length + 1 = _
        rw [kept.journal]
        rfl

theorem succeeds_undoAll {emulator : Emulator} (wellFormed : emulator.bare.WellFormed)
    {steps : Nat} (enough : steps ≤ emulator.history) :
    Succeeds (undoAll steps emulator) (emulator.bare.undoAll steps) ∧
      (undoAll steps emulator).emulator.bare.WellFormed := by
  induction steps generalizing emulator with
  | zero => exact ⟨⟨rfl, rfl⟩, wellFormed⟩
  | succ steps ih =>
      obtain ⟨first, stays, fewer⟩ := succeeds_undo wellFormed (Nat.zero_lt_of_lt enough)
      rw [undoAll, BareMachine.undoAll, first.reply]
      have none := first.error
      generalize emulator.undo = outcome at none stays fewer
      obtain ⟨next, events, error⟩ := outcome
      subst none
      obtain ⟨others, kept⟩ := ih stays (by omega)
      exact ⟨⟨others.error, others.reply⟩, kept⟩

/-- Steps are undone if there are that many, and else the call is refused. -/
theorem stepBack_bare {emulator : Emulator} (wellFormed : emulator.bare.WellFormed)
    (count : Int) :
    emulator.bare.stepBack count =
        .ok ((emulator.stepBack count).emulator.bare, (emulator.stepBack count).error) ∧
      (emulator.stepBack count).emulator.bare.WellFormed ∧
      (emulator.stepBack count).error =
        if 0 ≤ count ∧ count ≤ emulator.history then none else some .noHistory := by
  have length : emulator.bare.journal.length = emulator.history := List.length_map _
  rw [stepBack, BareMachine.stepBack, length]
  by_cases refused : count < 0 ∨ emulator.history < count
  · rw [if_pos refused, if_pos refused, if_neg (by omega)]
    exact ⟨rfl, wellFormed, rfl⟩
  · obtain ⟨undone, stays⟩ := @succeeds_undoAll emulator wellFormed count.toNat (by omega)
    rw [if_neg refused, if_neg refused, if_pos (by omega), undone.error]
    exact ⟨undone.reply, stays, rfl⟩

theorem wellFormed_make {emulator : Emulator} (wellFormed : emulator.bare.WellFormed)
    (move : Move) : (emulator.make move).emulator.bare.WellFormed := by
  cases move with
  | step => exact wellFormed_step wellFormed
  | back count => exact (stepBack_bare wellFormed count).2.1
  | exchange change => exact ⟨wellFormed.zero, wellFormed.aligned, wellFormed.records⟩

theorem Reachable.wellFormed {emulator : Emulator} (reachable : Reachable emulator) :
    emulator.bare.WellFormed :=
  @Reachable.invariant (fun current => current.bare.WellFormed) emulator reachable
    (fun _ loaded => loaded.wellFormed) fun _ move wellFormed => wellFormed_make wellFormed move

/-- The machine stays well-formed, whatever steps are made and undone, whichever of them fail,
and whatever becomes of the tape in between.  On plain numbers, where registers and frames are checked when they are used, no call ever
misuses them.  All that undoing steps can answer is that there are not as many. -/
theorem machine_stays_wellFormed {emulator : Emulator} (reachable : Reachable emulator) :
    emulator.bare.WellFormed ∧
      emulator.bare.step = .ok (emulator.step.emulator.bare, emulator.step.error) ∧
      ∀ count : Int,
        emulator.bare.stepBack count =
            .ok ((emulator.stepBack count).emulator.bare, (emulator.stepBack count).error) ∧
          (emulator.stepBack count).error =
            if 0 ≤ count ∧ count ≤ emulator.history then none else some .noHistory := by
  have wellFormed := reachable.wellFormed
  refine ⟨wellFormed, BareMachine.step_bare emulator, fun count => ?_⟩
  obtain ⟨reply, -, error⟩ := stepBack_bare wellFormed count
  exact ⟨reply, error⟩

/-- A program that writes to the zero register, writes over its first instruction and returns. -/
def discardingImage : List UInt8 := [0x03, 0xff, 0, 0x20, 0xac, 0x1f, 0, 0, 0x03, 0xe0, 0, 8]

/-- The program after a step too many, with another output than at first. -/
def discarding : Emulator :=
  ((ofSize 3).load discardingImage).emulator.play
    [.step, .step, .exchange fun tape => { tape with output := some .unlimited }, .step, .step]

/-- All three steps can be undone.  With a record of a register that is not there, the same
machine would be stopped. -/
theorem machine_stays_wellFormed_discarding :
    discarding.bare.journal =
        [[⟨.pc, 8, 0⟩, ⟨.pc, 12, 0⟩], [⟨.pc, 4, 0⟩, ⟨.memory, 0, 0x03ff0020⟩],
          [⟨.pc, 0, 0⟩, ⟨.register, 0, 0⟩]] ∧
      discarding.bare.WellFormed ∧
      discarding.bare.step = .ok (discarding.bare, some (.step .terminated)) ∧
      discarding.bare.stepBack 3 = .ok ((discarding.stepBack 3).emulator.bare, none) ∧
      { discarding.bare with journal := [[⟨.register, 136, 0⟩]] }.stepBack 1 =
        .error (.noSuchRegister 34) := by
  have loaded := Loaded.image (ofSize 3) discardingImage (by decide +kernel)
  have reachable : Reachable discarding := ⟨_, _, loaded, rfl⟩
  obtain ⟨wellFormed, step, stepBack⟩ := machine_stays_wellFormed reachable
  have terminated : discarding.terminated = true := by decide +kernel
  have history : discarding.history = 3 := by decide +kernel
  refine ⟨by decide +kernel, wellFormed, ?_, ?_, rfl⟩
  · rw [step, step_of_terminated terminated]
  · obtain ⟨reply, error⟩ := stepBack 3
    rw [reply, error, history]
    rfl

end Emulator
end ReversibleMips
