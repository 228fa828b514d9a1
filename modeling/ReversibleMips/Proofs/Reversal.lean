import ReversibleMips.Proofs.Reachability

/-!
# Undoing steps

A frame reverts one state to another if putting its records back, the latest first,
turns the one into the other.  The frame of every step reverts the state after the
step to the state before it, up to the tape.  A journal is then a chain of reversions,
and following the chain gives back every state that the journal reaches.

The tape is left out of this, because what was read and written never comes back.
-/

namespace ReversibleMips
namespace Emulator

/-- Putting the records of a frame back turns one emulator into another, whatever the
tape and the journal are. -/
def Reverts (frame : Frame) (later earlier : Emulator) : Prop :=
  ∀ (tape : Tape) (journal : Journal), ∃ events,
    { later with tape := tape, journal := journal }.restoreAll frame.reverse =
      ⟨{ earlier with tape := tape, journal := journal }, events, none⟩

theorem restoreAll_append {emulator middle : Emulator} {first : List Mutation}
    {events : List Event} (restored : emulator.restoreAll first = ⟨middle, events, none⟩)
    (second : List Mutation) :
    emulator.restoreAll (first ++ second) =
      ⟨(middle.restoreAll second).emulator, events ++ (middle.restoreAll second).events,
        (middle.restoreAll second).error⟩ := by
  induction first generalizing emulator events with
  | nil =>
      simp only [restoreAll, Outcome.mk.injEq] at restored
      obtain ⟨rfl, rfl, -⟩ := restored
      rfl
  | cons mutation rest ih =>
      simp only [List.cons_append, restoreAll] at restored ⊢
      cases single : emulator.restore mutation with
      | mk next told error =>
          cases error with
          | some error => simp [single] at restored
          | none =>
              simp only [single, Outcome.mk.injEq] at restored ⊢
              obtain ⟨finalEq, toldEq, errorEq⟩ := restored
              have whole : next.restoreAll rest =
                  ⟨middle, (next.restoreAll rest).events, none⟩ := by
                rw [← finalEq, ← errorEq]
              rw [ih whole, ← toldEq]
              simp

theorem reverts_nil {later earlier : Emulator}
    (registers : later.registers = earlier.registers) (ram : later.ram = earlier.ram)
    (pc : later.pc = earlier.pc) : Reverts [] later earlier := by
  intro tape journal
  refine ⟨[], ?_⟩
  simp only [List.reverse_nil, restoreAll, registers, ram, pc]

theorem Reverts.append {first second : Frame} {earlier middle later : Emulator}
    (reverted : Reverts first middle earlier) (before : Reverts second later middle) :
    Reverts (first ++ second) later earlier := by
  intro tape journal
  obtain ⟨told, back⟩ := before tape journal
  obtain ⟨toldEarlier, further⟩ := reverted tape journal
  refine ⟨told ++ toldEarlier, ?_⟩
  rw [List.reverse_append, restoreAll_append back, further]

/-- A frame with one record reverts what its record restores. -/
theorem reverts_singleton {mutation : Mutation} {later earlier : Emulator}
    (restored : ∀ (tape : Tape) (journal : Journal), ∃ events,
      { later with tape := tape, journal := journal }.restore mutation =
        ⟨{ earlier with tape := tape, journal := journal }, events, none⟩) :
    Reverts [mutation] later earlier := by
  intro tape journal
  obtain ⟨events, single⟩ := restored tape journal
  refine ⟨events, ?_⟩
  simp [restoreAll, single]

theorem write_write_read (registers : Registers) (register : Register) (value : Word) :
    (registers.write register value).write register (registers.read register) =
      registers := by
  by_cases isZero : register = Register.zero
  · simp [isZero]
  · simp [Registers.write, Registers.read, isZero]

theorem ofIndex_registerIndex (register : Register) (prior : Word) :
    Register.ofIndex (Mutation.ofRegister register prior).registerIndex = .ok register := by
  have bounded := register.isLt
  have located : (Address.ofNat register.val).index = register.val := by
    apply Address.index_ofNat
    unfold Address.maxIndex
    omega
  have inside : (register.val : Int) < 34 := by omega
  simp [Mutation.registerIndex, Mutation.ofRegister, located, Register.ofIndex, inside]

theorem reverts_setRegister (emulator : Emulator) (register : Register) (value : Word) :
    Reverts (emulator.setRegister register value).frame
      (emulator.setRegister register value).emulator emulator := by
  apply reverts_singleton
  intro tape journal
  refine ⟨[.register register ((emulator.registers.write register value).read register)], ?_⟩
  simp only [restore, ofIndex_registerIndex]
  simp [Mutation.ofRegister, setRegister, write_write_read]

theorem reverts_setMemory {emulator : Emulator} (coherent : emulator.ram.Coherent)
    (address : Address) (value : Word) :
    Reverts (emulator.setMemory address value).frame
      (emulator.setMemory address value).emulator emulator := by
  unfold setMemory
  cases found : emulator.ram.read address with
  | error error => exact reverts_nil rfl rfl rfl
  | ok prior =>
      apply reverts_singleton
      intro tape journal
      have still : (emulator.ram.setIndex address.index value).read address = .ok value := by
        rw [Ram.read_setIndex, if_pos ⟨rfl, Ram.lt_size_of_read found⟩]
      refine ⟨[.memory address value], ?_⟩
      simp only [restore, Mutation.ofMemory, still, coherent.setIndex_setIndex found]

theorem reverts_pc (emulator : Emulator) (next : Address) :
    Reverts [.ofPc emulator.pc] { emulator with pc := next } emulator := by
  apply reverts_singleton
  intro tape journal
  exact ⟨[.pc emulator.pc], rfl⟩

/-- The record of the program counter comes before the record of a link, so that the link
is taken back while the new program counter is still there. -/
theorem reverts_setPc (emulator : Emulator) (link : Option (Register × Word))
    (target : Except Fault Address) :
    Reverts (emulator.setPc link target).frame (emulator.setPc link target).emulator
      emulator := by
  have keeps (later : Emulator) (pc : Address) (frame : Frame)
      (linked : Reverts frame { later with pc := pc } { emulator with pc := pc }) :
      Reverts (.ofPc emulator.pc :: frame) { later with pc := pc } emulator :=
    (reverts_pc emulator pc).append linked
  cases link with
  | none =>
      cases target with
      | error fault => exact keeps emulator emulator.pc [] (reverts_nil rfl rfl rfl)
      | ok pc => exact keeps emulator pc [] (reverts_nil rfl rfl rfl)
  | some link =>
      obtain ⟨register, value⟩ := link
      cases target with
      | error fault =>
          exact keeps (emulator.setRegister register value).emulator emulator.pc _
            (reverts_setRegister emulator register value)
      | ok pc =>
          exact keeps (emulator.setRegister register value).emulator pc _
            (reverts_setRegister { emulator with pc := pc } register value)

/-- The frame of an effect reverts what its writes have changed. -/
theorem reverts_perform {emulator : Emulator} (coherent : emulator.ram.Coherent)
    (effect : Effect) :
    Reverts (emulator.perform effect).frame (emulator.perform effect).emulator emulator := by
  cases effect with
  | write register value => exact reverts_setRegister emulator register value
  | writePair high low =>
      exact (reverts_setRegister emulator .hi high).append
        (reverts_setRegister (emulator.setRegister .hi high).emulator .lo low)
  | store address value => exact reverts_setMemory coherent address value
  | receive register =>
      have written := reverts_setRegister { emulator with tape := emulator.tape.read.2 }
        register (inputWord emulator.tape.read.1)
      have unread : Reverts [] { emulator with tape := emulator.tape.read.2 } emulator :=
        reverts_nil rfl rfl rfl
      exact unread.append written
  | send value =>
      simp only [perform]
      split
      · exact reverts_nil rfl rfl rfl
      · exact reverts_nil rfl rfl rfl
  | jump link target => exact reverts_setPc emulator link target

/-- The frame of an instruction reverts all that the instruction has changed, whether it
succeeds or fails. -/
theorem reverts_performs {emulator : Emulator} (coherent : emulator.ram.Coherent)
    {instruction : Instruction} {performance : Performance}
    (performs : Performs emulator instruction performance) :
    Reverts performance.frame performance.emulator emulator := by
  cases performs with
  | unfetched missing => exact reverts_nil rfl rfl rfl
  | stuck fetched last => exact reverts_pc emulator emulator.pc
  | @faulty _ next _ fetched moved fails => exact reverts_pc emulator next
  | @effective _ next effect fetched moved found =>
      exact (reverts_pc emulator next).append
        (@reverts_perform { emulator with pc := next } coherent effect)

/-- The journal of an emulator has a frame for each of some earlier states, the latest
first, and reverts each state to the one before it. -/
inductive Recorded : Emulator → List Emulator → Prop
  | origin {emulator : Emulator} (unused : emulator.journal = .empty) : Recorded emulator []
  | later {emulator earlier : Emulator} {frame : Frame} {past : List Emulator}
      (journal : emulator.journal = earlier.journal.push frame)
      (reverts : Reverts frame emulator earlier) (recorded : Recorded earlier past) :
      Recorded emulator (earlier :: past)

namespace Recorded

theorem history_eq {emulator : Emulator} {past : List Emulator}
    (recorded : Recorded emulator past) : emulator.history = past.length := by
  induction recorded with
  | origin unused => simp [history, unused, Journal.empty, Journal.length]
  | later journal reverts recorded ih =>
      simp only [history] at ih
      simp [history, journal, ih]

theorem earlier {emulator earlier : Emulator} {past : List Emulator}
    (recorded : Recorded emulator (earlier :: past)) : Recorded earlier past := by
  cases recorded with
  | later journal reverts recorded => exact recorded

/-- What is recorded does not depend on the tape. -/
theorem withTape {emulator : Emulator} {past : List Emulator}
    (recorded : Recorded emulator past) (tape : Tape) :
    Recorded { emulator with tape := tape } past := by
  cases recorded with
  | origin unused => exact .origin unused
  | later journal reverts recorded => exact .later journal reverts recorded

/-- A step that opens a frame records the state before it. -/
theorem step {emulator : Emulator} {past : List Emulator}
    (recorded : Recorded emulator past) (coherent : emulator.ram.Coherent)
    (running : emulator.terminated = false) :
    Recorded emulator.step.emulator (emulator :: past) := by
  obtain ⟨instruction, performance, performs, stepEq⟩ := step_of_running running
  rw [stepEq]
  have journal : (conclude emulator.pc instruction performance).emulator.journal =
      emulator.journal.push performance.frame := by
    simp only [conclude, performs.journal_eq]
  exact .later journal (reverts_performs coherent performs) recorded

/-- Undoing the latest step gives back the latest state that is recorded. -/
theorem undo {emulator earlier : Emulator} {past : List Emulator}
    (recorded : Recorded emulator (earlier :: past)) :
    ∃ events, emulator.undo = ⟨{ earlier with tape := emulator.tape }, events, none⟩ := by
  cases recorded with
  | @later _ _ frame _ journal reverts recorded =>
      obtain ⟨events, restored⟩ := reverts emulator.tape earlier.journal
      refine ⟨events ++ [.reversed earlier.pc], ?_⟩
      simp [Emulator.undo, journal, restored]

/-- Undoing some of the latest steps gives back the state before the first of them, and
what is recorded of the time before that.  The tape may have changed since. -/
theorem undoAll {emulator : Emulator} {past : List Emulator}
    (recorded : Recorded emulator past) {steps : Nat} (enough : steps ≤ past.length)
    (tape : Tape) :
    ∃ earlier events, (emulator :: past)[steps]? = some earlier ∧
      Emulator.undoAll steps { emulator with tape := tape } =
        ⟨{ earlier with tape := tape }, events, none⟩ ∧
      Recorded earlier (past.drop steps) := by
  induction steps generalizing emulator past with
  | zero => exact ⟨emulator, [], rfl, rfl, recorded⟩
  | succ steps ih =>
      cases past with
      | nil => simp at enough
      | cons latest past =>
          obtain ⟨told, undone⟩ := (recorded.withTape tape).undo
          obtain ⟨earlier, events, found, restored, before⟩ :=
            ih recorded.earlier (by simpa using enough)
          refine ⟨earlier, told ++ events, by simpa using found, ?_, by simpa using before⟩
          simp only [Emulator.undoAll, undone, restored]

end Recorded

/-- What is remembered after a visit: the state before a step is added unless the program has
returned, and undoing steps forgets them if there are that many. -/
def remember (past : List Emulator) (visit : Visit) : List Emulator :=
  match visit.request with
  | .move .step => if visit.before.terminated then past else visit.before :: past
  | .move (.back count) =>
      if 0 ≤ count ∧ count ≤ past.length then past.drop count.toNat else past
  | _ => past

/-- The states before each step that opened a frame and has not been undone, the latest first.
These states are copies; the journal has no part in them. -/
def remembered (visits : List Visit) : List Emulator := visits.foldl remember []

/-- The copies of a run are faithful: the journal records them, and the first of them is the
loaded state up to its tape. -/
structure Faithful (origin : Emulator) (past : List Emulator) (emulator : Emulator) : Prop where
  coherent : emulator.ram.Coherent
  recorded : Recorded emulator past
  begins : ∃ first, (emulator :: past).getLast? = some first ∧
    { first with tape := origin.tape } = origin

namespace Faithful

theorem start {origin : Emulator} (loaded : Loaded origin) : Faithful origin [] origin where
  coherent := loaded.fresh.coherent
  recorded := .origin loaded.fresh.journal
  begins := ⟨origin, rfl, rfl⟩

variable {origin emulator : Emulator} {past : List Emulator}
    (faithful : Faithful origin past emulator)
include faithful

theorem withTape (tape : Tape) : Faithful origin past { emulator with tape := tape } where
  coherent := faithful.coherent
  recorded := faithful.recorded.withTape tape
  begins := by
    obtain ⟨first, last, same⟩ := faithful.begins
    cases past with
    | nil =>
        cases last
        exact ⟨_, rfl, same⟩
    | cons latest past => exact ⟨first, last, same⟩

theorem step (running : emulator.terminated = false) :
    Faithful origin (emulator :: past) emulator.step.emulator where
  coherent := coherent_step faithful.coherent
  recorded := faithful.recorded.step faithful.coherent running
  begins := faithful.begins

/-- Undoing steps that are there is following the chain. -/
theorem stepBack_eq {count : Int} (nonneg : 0 ≤ count) (enough : count ≤ past.length) :
    ∃ earlier events, (emulator :: past)[count.toNat]? = some earlier ∧
      emulator.stepBack count = ⟨{ earlier with tape := emulator.tape }, events, none⟩ ∧
      Recorded earlier (past.drop count.toNat) := by
  have inside : ¬ (count < 0 ∨ emulator.history < count) := by
    rw [faithful.recorded.history_eq]
    omega
  rw [stepBack, if_neg inside]
  exact faithful.recorded.undoAll (by omega) emulator.tape

/-- Asking for more steps than there are does nothing. -/
theorem stepBack_refused {count : Int} (outside : count < 0 ∨ past.length < count) :
    emulator.stepBack count = ⟨emulator, [], some .noHistory⟩ := by
  rw [stepBack, faithful.recorded.history_eq, if_pos outside]

theorem back {count : Int} (nonneg : 0 ≤ count) (enough : count ≤ past.length) :
    Faithful origin (past.drop count.toNat) (emulator.stepBack count).emulator := by
  obtain ⟨earlier, events, found, back, recorded⟩ := faithful.stepBack_eq nonneg enough
  obtain ⟨first, last, same⟩ := faithful.begins
  obtain ⟨inside, here⟩ := List.getElem?_eq_some_iff.mp found
  have states : (emulator :: past).drop count.toNat = earlier :: past.drop count.toNat := by
    rw [List.drop_eq_getElem_cons inside, here]
    rfl
  have still : Faithful origin (past.drop count.toNat) earlier :=
    { coherent := by
        have coherent := coherent_stepBack faithful.coherent count
        rw [back] at coherent
        exact coherent
      recorded := recorded
      begins := ⟨first, by rw [← states, List.getLast?_drop, if_neg (by omega), last], same⟩ }
  rw [back]
  exact still.withTape emulator.tape

theorem visit (move : Move) :
    Faithful origin (remember past ⟨emulator, .move move⟩) (emulator.make move).emulator := by
  cases move with
  | step =>
      cases terminated : emulator.terminated with
      | true =>
          simp only [make, remember, step_of_terminated terminated, terminated, if_true]
          exact faithful
      | false =>
          simp only [make, remember, terminated, Bool.false_eq_true, if_false]
          exact faithful.step terminated
  | back count =>
      by_cases inside : 0 ≤ count ∧ count ≤ past.length
      · simp only [make, remember, if_pos inside]
        exact faithful.back inside.1 inside.2
      · simp only [make, remember, if_neg inside,
          faithful.stepBack_refused (by omega : count < 0 ∨ past.length < count)]
        exact faithful
  | exchange change => exact faithful.withTape (change emulator.tape)

end Faithful

/-- What moves are made does not matter: the copies and the journal agree. -/
theorem faithful_play {origin : Emulator} (loaded : Loaded origin) (moves : List Move) :
    Faithful origin (remembered (origin.course moves)) (origin.play moves) := by
  apply @play_induction fun past current => Faithful origin (remembered past) current
  · exact .start loaded
  · intro past current move _ faithful
    rw [remembered, List.foldl_append]
    exact faithful.visit move

/-- Exact reversibility.  After any moves from a loaded program, undoing a number of steps
that is there gives back the state before the first of these steps: registers, memory with
its decoded instructions, program counter and journal.  Undoing all of them gives back the
loaded program, and any other number is refused and changes nothing.  Only the tape stays
as it is. -/
theorem stepBack_restores {origin : Emulator} (loaded : Loaded origin) (moves : List Move)
    (count : Int) :
    let emulator := origin.play moves
    let past := remembered (origin.course moves)
    emulator.history = past.length ∧
      (0 ≤ count → count ≤ emulator.history →
        (emulator.stepBack count).error = none ∧
          ∃ earlier, (emulator :: past)[count.toNat]? = some earlier ∧
            (emulator.stepBack count).emulator = { earlier with tape := emulator.tape }) ∧
      ((emulator.stepBack emulator.history).error = none ∧
        (emulator.stepBack emulator.history).emulator =
          { origin with tape := emulator.tape }) ∧
      (count < 0 ∨ emulator.history < count →
        emulator.stepBack count = ⟨emulator, [], some .noHistory⟩) := by
  intro emulator past
  have faithful : Faithful origin past emulator := faithful_play loaded moves
  have historyEq : emulator.history = past.length := faithful.recorded.history_eq
  refine ⟨historyEq, ?_, ?_, ?_⟩
  · intro nonneg enough
    rw [historyEq] at enough
    obtain ⟨earlier, events, found, back, -⟩ := faithful.stepBack_eq nonneg enough
    rw [back]
    exact ⟨rfl, earlier, found, rfl⟩
  · obtain ⟨earlier, events, found, back, -⟩ :=
      faithful.stepBack_eq (Int.natCast_nonneg past.length) (Int.le_refl _)
    obtain ⟨first, last, same⟩ := faithful.begins
    have isFirst : earlier = first := by
      rw [List.getLast?_eq_getElem?] at last
      exact Option.some.inj (found.symm.trans last)
    rw [historyEq, back, isFirst]
    exact ⟨rfl, by rw [← same]⟩
  · intro outside
    rw [historyEq] at outside
    exact faithful.stepBack_refused outside

/-- A program that stores a byte to the output, overwrites its first instruction and returns. -/
def overwriting : Emulator :=
  ((ofSize 3).loadTwoInts [0xac, 0x22, 0, 0xc, 0xac, 0x1f, 0, 0, 3, 0xe0, 0, 9]
    (-0x10000) 0x61).emulator

/-- The output refuses the byte at first and accepts it when the step is made again.  The program
runs to its end, is stepped once too often, and goes back and forth. -/
def refusedThenAccepted : List Move :=
  [.exchange fun tape => { tape with output := some { Sink.unlimited with limit := some 0 } },
    .step, .back 1, .exchange fun tape => { tape with output := some .unlimited },
    .step, .step, .step, .step, .back 1, .step]

theorem stepBack_restores_overwriting :
    let emulator := overwriting.play refusedThenAccepted
    Loaded overwriting ∧ emulator.history = 3 ∧ emulator.tape.bytesWritten = 1 ∧
      emulator.ram ≠ overwriting.ram ∧
      (emulator.stepBack 3).emulator = { overwriting with tape := emulator.tape } := by
  intro emulator
  have loaded : Loaded overwriting := .twoInts (ofSize 3) _ _ _ (by decide +kernel)
  have history : emulator.history = 3 := by decide +kernel
  have restored := (stepBack_restores loaded refusedThenAccepted 3).2.2.1.2
  rw [← show emulator = overwriting.play refusedThenAccepted from rfl, history] at restored
  exact ⟨loaded, history, by decide +kernel, by decide +kernel, restored⟩

end Emulator
end ReversibleMips
