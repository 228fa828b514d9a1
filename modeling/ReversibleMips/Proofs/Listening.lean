import ReversibleMips.Proofs.Reversal

/-!
# Listening

A listener is told of every write together with the value that was replaced, and of every
new program counter.  It can therefore take back all that it heard, the latest first, and
arrives at the registers and the memory that there were when it started to listen.  This
holds of running forwards and backwards alike, because every single write tells what it
replaced, and telling composes.
-/

namespace ReversibleMips

namespace Event

def isUpdate : Event → Bool
  | register _ _ | memory _ _ | pc _ => true
  | _ => false

/-- What a listener is told: every change of the state, and the end of every step. -/
def isHeard : Event → Bool
  | ran _ _ _ => true
  | event => event.isUpdate

def pc? : Event → Option Address
  | pc place => some place
  | _ => none

end Event

/-- Setting a register back undoes a write, which the zero register has ignored. -/
theorem Registers.setIfInBounds_write (registers : Registers) (register : Register)
    (value : Word) :
    (registers.write register value).words.setIfInBounds register.val
      (registers.read register) = registers.words := by
  apply Vector.ext
  intro index inside
  rw [Vector.getElem_setIfInBounds]
  by_cases same : register.val = index
  · subst same
    simp [read]
  · have other : ¬ (⟨index, inside⟩ : Register) = register := by
      intro equal
      exact same (congrArg Fin.val equal).symm
    have kept := registers.read_write register ⟨index, inside⟩ value
    rw [if_neg fun both => other both.1] at kept
    rw [if_neg same]
    exact kept

/-- The state that a listener follows. -/
structure Picture where
  registers : Registers
  ram : Ram

namespace Picture

/-- Take one event back.  A register or a word gets the value that was replaced; no register
is an exception, and the word has to be there. -/
def takeBack (picture : Picture) : Event → Except RamError Picture
  | .register register prior =>
      let words := picture.registers.words.setIfInBounds register.val prior
      .ok { picture with registers := ⟨words⟩ }
  | .memory address prior =>
      (picture.ram.write address prior).map fun ram => { picture with ram := ram }
  | _ => .ok picture

def takeAllBack (picture : Picture) : List Event → Except RamError Picture
  | [] => .ok picture
  | event :: later => (picture.takeAllBack later).bind fun middle => middle.takeBack event

theorem takeAllBack_append (picture : Picture) (first second : List Event) :
    picture.takeAllBack (first ++ second) =
      (picture.takeAllBack second).bind fun middle => middle.takeAllBack first := by
  induction first with
  | nil =>
      rw [List.nil_append]
      cases picture.takeAllBack second with
      | error error => rfl
      | ok middle => rfl
  | cons event first ih =>
      rw [List.cons_append, takeAllBack, ih]
      cases picture.takeAllBack second with
      | error error => rfl
      | ok middle => rfl

theorem takeAllBack_singleton (picture : Picture) (event : Event) :
    picture.takeAllBack [event] = picture.takeBack event :=
  rfl

theorem takeBack_of_not_update (picture : Picture) {event : Event}
    (silent : event.isUpdate = false) : picture.takeBack event = .ok picture := by
  cases event with
  | register register prior => cases silent
  | memory address prior => cases silent
  | _ => rfl

/-- What a listener is not told of does not matter. -/
theorem takeAllBack_heard (picture : Picture) (events : List Event) :
    picture.takeAllBack (events.filter Event.isHeard) = picture.takeAllBack events := by
  induction events with
  | nil => rfl
  | cons event events ih =>
      cases heard : event.isHeard with
      | true => rw [List.filter_cons_of_pos heard, takeAllBack, takeAllBack, ih]
      | false =>
          have silent : event.isUpdate = false := by
            cases event with
            | ran instruction frame error => rfl
            | _ => exact heard
          have unheard : ¬ event.isHeard = true := by simp [heard]
          rw [List.filter_cons_of_neg unheard, takeAllBack, ih]
          cases picture.takeAllBack events with
          | error error => rfl
          | ok middle => exact (takeBack_of_not_update middle silent).symm

end Picture

def Event.lastPc (initial : Address) (events : List Event) : Address :=
  (events.filterMap Event.pc?).getLast?.getD initial

theorem Event.lastPc_append (initial : Address) (first second : List Event) :
    lastPc initial (first ++ second) = lastPc (lastPc initial first) second := by
  unfold lastPc
  rw [List.filterMap_append, List.getLast?_append]
  cases (second.filterMap pc?).getLast? with
  | none => rfl
  | some place => rfl

theorem Event.lastPc_heard (initial : Address) (events : List Event) :
    lastPc initial (events.filter isHeard) = lastPc initial events := by
  have same : (events.filter isHeard).filterMap pc? = events.filterMap pc? := by
    rw [List.filterMap_filter]
    congr 1
    funext event
    cases event <;> rfl
  rw [lastPc, same, lastPc]

namespace Emulator

def picture (emulator : Emulator) : Picture := ⟨emulator.registers, emulator.ram⟩

/-- Events account for all that lies between two states. -/
structure Accounts (events : List Event) (earlier later : Emulator) : Prop where
  takenBack : later.picture.takeAllBack events = .ok earlier.picture
  pc : later.pc = Event.lastPc earlier.pc events

theorem Accounts.append {first second : List Event} {earlier middle later : Emulator}
    (before : Accounts first earlier middle) (after : Accounts second middle later) :
    Accounts (first ++ second) earlier later := by
  constructor
  · rw [Picture.takeAllBack_append, after.takenBack]
    exact before.takenBack
  · rw [after.pc, before.pc, Event.lastPc_append]

theorem Accounts.heard {events : List Event} {earlier later : Emulator}
    (accounts : Accounts events earlier later) :
    Accounts (events.filter Event.isHeard) earlier later := by
  constructor
  · rw [Picture.takeAllBack_heard, accounts.takenBack]
  · rw [Event.lastPc_heard, accounts.pc]

/-- An event that is no change accounts for the journal and the tape. -/
theorem accounts_silent {event : Event} (silent : event.isUpdate = false)
    {earlier later : Emulator} (picture : later.picture = earlier.picture)
    (pc : later.pc = earlier.pc) : Accounts [event] earlier later := by
  constructor
  · rw [picture, Picture.takeAllBack_singleton, Picture.takeBack_of_not_update _ silent]
  · rw [pc]
    cases event with
    | pc place => cases silent
    | _ => rfl

/-- Events account for all that lies between two states, and a listener hears of nothing but
changes. -/
structure Tells (events : List Event) (earlier later : Emulator) : Prop
    extends Accounts events earlier later where
  updates : ∀ event ∈ events, event.isHeard = true → event.isUpdate = true

namespace Tells

theorem nothing {earlier later : Emulator} (picture : later.picture = earlier.picture)
    (pc : later.pc = earlier.pc) : Tells [] earlier later := by
  refine ⟨⟨?_, pc⟩, by simp⟩
  rw [picture]
  rfl

theorem append {first second : List Event} {earlier middle later : Emulator}
    (before : Tells first earlier middle) (after : Tells second middle later) :
    Tells (first ++ second) earlier later := by
  refine ⟨before.toAccounts.append after.toAccounts, ?_⟩
  intro event member
  rcases List.mem_append.mp member with inFirst | inSecond
  · exact before.updates event inFirst
  · exact after.updates event inSecond

theorem single {event : Event} (update : event.isUpdate = true) {earlier later : Emulator}
    (accounts : Accounts [event] earlier later) : Tells [event] earlier later := by
  refine ⟨accounts, ?_⟩
  intro other member _
  rw [List.mem_singleton.mp member]
  exact update

end Tells

theorem tells_register (emulator : Emulator) (register : Register) (value : Word) :
    Tells [.register register (emulator.registers.read register)] emulator
      { emulator with registers := emulator.registers.write register value } := by
  refine .single rfl ⟨?_, rfl⟩
  rw [Picture.takeAllBack_singleton]
  simp only [Picture.takeBack, picture, Registers.setIfInBounds_write]

theorem tells_memory {emulator : Emulator} (coherent : emulator.ram.Coherent)
    {address : Address} {prior : Word} (found : emulator.ram.read address = .ok prior)
    (value : Word) :
    Tells [.memory address prior] emulator
      { emulator with ram := emulator.ram.setIndex address.index value } := by
  refine .single rfl ⟨?_, rfl⟩
  have inside : address.index < (emulator.ram.setIndex address.index value).size := by
    rw [Ram.size_setIndex]
    exact Ram.lt_size_of_read found
  rw [Picture.takeAllBack_singleton]
  simp only [Picture.takeBack, picture, Ram.write, if_pos inside,
    coherent.setIndex_setIndex found]
  rfl

theorem tells_pc (emulator : Emulator) (place : Address) :
    Tells [.pc place] emulator { emulator with pc := place } :=
  .single rfl ⟨rfl, rfl⟩

theorem tells_setPc (emulator : Emulator) (link : Option (Register × Word))
    (target : Except Fault Address) :
    Tells (emulator.setPc link target).events emulator
      (emulator.setPc link target).emulator := by
  have arrives (linked : Emulator) (events : List Event) (tells : Tells events emulator linked)
      (place : Address) : Tells (events ++ [.pc place]) emulator { linked with pc := place } :=
    tells.append (tells_pc linked place)
  cases link with
  | none =>
      cases target with
      | error fault => exact .nothing rfl rfl
      | ok place => exact arrives emulator [] (.nothing rfl rfl) place
  | some link =>
      have linked := tells_register emulator link.1 link.2
      cases target with
      | error fault => exact linked
      | ok place => exact arrives _ _ linked place

theorem tells_perform {emulator : Emulator} (coherent : emulator.ram.Coherent)
    (effect : Effect) :
    Tells (emulator.perform effect).events emulator (emulator.perform effect).emulator := by
  cases effect with
  | write register value => exact tells_register emulator register value
  | writePair high low =>
      exact (tells_register emulator .hi high).append
        (tells_register (emulator.setRegister .hi high).emulator .lo low)
  | store address value =>
      simp only [perform, setMemory]
      cases found : emulator.ram.read address with
      | error error => exact .nothing rfl rfl
      | ok prior => exact tells_memory coherent found value
  | receive register =>
      have read : Tells [] emulator { emulator with tape := emulator.tape.read.2 } :=
        .nothing rfl rfl
      exact read.append (tells_register _ register (inputWord emulator.tape.read.1))
  | send value =>
      simp only [perform]
      split
      · exact .nothing rfl rfl
      · exact .nothing rfl rfl
  | jump link target => exact tells_setPc emulator link target

theorem tells_performs {emulator : Emulator} (coherent : emulator.ram.Coherent)
    {instruction : Instruction} {performance : Performance}
    (performs : Performs emulator instruction performance) :
    Tells performance.events emulator performance.emulator := by
  cases performs with
  | unfetched missing => exact .nothing rfl rfl
  | stuck fetched last => exact .nothing rfl rfl
  | @faulty _ next _ fetched moved fails => exact tells_pc emulator next
  | @effective _ next effect fetched moved found =>
      exact (tells_pc emulator next).append
        (@tells_perform { emulator with pc := next } coherent effect)

/-- The events of a step end with the one that carries its frame and its error. -/
theorem step_events {emulator : Emulator} (coherent : emulator.ram.Coherent)
    (running : emulator.terminated = false) :
    ∃ events instruction frame error middle,
      emulator.step.events = events ++ [.ran instruction frame error] ∧
      Tells events emulator middle ∧ Accounts [.ran instruction frame error] middle
        emulator.step.emulator ∧
      emulator.step.emulator.journal.last? = some frame ∧
      emulator.step.error = error.map .step := by
  obtain ⟨instruction, performance, performs, stepEq⟩ := step_of_running running
  rw [stepEq]
  refine ⟨performance.events, instruction, performance.frame, _, performance.emulator, rfl,
    tells_performs coherent performs, accounts_silent rfl rfl rfl, ?_, rfl⟩
  exact Journal.last?_push _ _

theorem accounts_step {emulator : Emulator} (coherent : emulator.ram.Coherent) :
    Accounts emulator.step.events emulator emulator.step.emulator := by
  cases terminated : emulator.terminated with
  | true =>
      rw [step_of_terminated terminated]
      exact (Tells.nothing rfl rfl).toAccounts
  | false =>
      obtain ⟨events, instruction, frame, error, middle, eventsEq, tells, ended, -⟩ :=
        step_events coherent terminated
      rw [eventsEq]
      exact tells.toAccounts.append ended

theorem tells_restore {emulator : Emulator} (coherent : emulator.ram.Coherent)
    (mutation : Mutation) :
    Tells (emulator.restore mutation).events emulator
      (emulator.restore mutation).emulator := by
  unfold restore
  split
  · split
    · exact .nothing rfl rfl
    · rename_i register _
      exact tells_register emulator register mutation.prior
  · split
    · exact .nothing rfl rfl
    · rename_i found
      exact tells_memory coherent found mutation.prior
  · exact tells_pc emulator mutation.location
  · exact .nothing rfl rfl

theorem tells_restoreAll {emulator : Emulator} (coherent : emulator.ram.Coherent)
    (mutations : List Mutation) :
    Tells (emulator.restoreAll mutations).events emulator
      (emulator.restoreAll mutations).emulator := by
  induction mutations generalizing emulator with
  | nil => exact .nothing rfl rfl
  | cons mutation rest ih =>
      have first := tells_restore coherent mutation
      have stillCoherent := (written_restore emulator mutation).coherent coherent
      unfold restoreAll
      split
      · rename_i restored
        rwa [restored] at first
      · rename_i restored
        rw [restored] at first stillCoherent
        exact first.append (ih stillCoherent)

theorem tells_undo {emulator : Emulator} (coherent : emulator.ram.Coherent) :
    Tells emulator.undo.events emulator emulator.undo.emulator := by
  unfold undo
  split
  · exact .nothing rfl rfl
  · rename_i frame _
    have popped :
        Tells [] emulator { emulator with journal := emulator.journal.pop } :=
      .nothing rfl rfl
    have restored := popped.append (@tells_restoreAll
      { emulator with journal := emulator.journal.pop } coherent frame.reverse)
    simp only
    split
    · rename_i undone
      rwa [undone] at restored
    · rename_i undone
      rw [undone] at restored
      refine restored.append ⟨accounts_silent rfl rfl rfl, ?_⟩
      intro event member heard
      rw [List.mem_singleton.mp member] at heard
      cases heard

theorem tells_undoAll {emulator : Emulator} (coherent : emulator.ram.Coherent)
    (steps : Nat) :
    Tells (undoAll steps emulator).events emulator (undoAll steps emulator).emulator := by
  induction steps generalizing emulator with
  | zero => exact .nothing rfl rfl
  | succ steps ih =>
      have first := tells_undo coherent
      have stillCoherent := (written_undo emulator).coherent coherent
      unfold undoAll
      split
      · rename_i undone
        rwa [undone] at first
      · rename_i undone
        rw [undone] at first stillCoherent
        exact first.append (ih stillCoherent)

theorem tells_stepBack {emulator : Emulator} (coherent : emulator.ram.Coherent)
    (count : Int) :
    Tells (emulator.stepBack count).events emulator (emulator.stepBack count).emulator := by
  unfold stepBack
  split
  · exact .nothing rfl rfl
  · exact tells_undoAll coherent count.toNat

theorem accounts_make {emulator : Emulator} (coherent : emulator.ram.Coherent) (move : Move) :
    Accounts (emulator.make move).events emulator (emulator.make move).emulator := by
  cases move with
  | step => exact accounts_step coherent
  | back count => exact (tells_stepBack coherent count).toAccounts
  | exchange change =>
      have unheard : Tells [] emulator { emulator with tape := change emulator.tape } :=
        .nothing rfl rfl
      exact unheard.toAccounts

def heard (visits : List Visit) : List Event :=
  visits.flatMap fun visit => visit.outcome.events.filter Event.isHeard

/-- What a listener hears accounts for any moves. -/
theorem accounts_play {emulator : Emulator} (coherent : emulator.ram.Coherent)
    (moves : List Move) :
    Accounts (heard (emulator.course moves)) emulator (emulator.play moves) ∧
      (emulator.play moves).ram.Coherent := by
  apply @play_induction fun past current =>
    Accounts (heard past) emulator current ∧ current.ram.Coherent
  · exact ⟨(Tells.nothing rfl rfl).toAccounts, coherent⟩
  · rintro past current move - ⟨accounts, stillCoherent⟩
    refine ⟨?_, coherent_make stillCoherent move⟩
    rw [heard, List.flatMap_append, List.flatMap_singleton]
    exact accounts.append (accounts_make stillCoherent move).heard

/-- The listener misses nothing.  After any moves, taking back all that it heard, the latest
first, gives the registers and the memory that there were at first, and the program counter
is the last one that it heard of.  A further step that finds the program running tells of
changes and then, once, of its end, with the frame that it left in the journal and the error
that it returns; undoing steps tells of changes only. -/
theorem listener_misses_nothing {origin : Emulator} (reachable : Reachable origin)
    (moves : List Move) :
    let emulator := origin.play moves
    let events := heard (origin.course moves)
    emulator.picture.takeAllBack events = .ok origin.picture ∧
      emulator.pc = (events.filterMap Event.pc?).getLast?.getD origin.pc ∧
      (emulator.step.error ≠ some (.step .terminated) →
        ∃ updates instruction frame error,
          emulator.step.events.filter Event.isHeard =
            updates ++ [.ran instruction frame error] ∧
          (∀ event ∈ updates, event.isUpdate = true) ∧
          emulator.step.emulator.journal.last? = some frame ∧
          emulator.step.error = error.map .step) ∧
      ∀ count, ∀ event ∈ (emulator.stepBack count).events.filter Event.isHeard,
        event.isUpdate = true := by
  intro emulator events
  obtain ⟨accounts, coherent⟩ := accounts_play reachable.coherent moves
  refine ⟨accounts.takenBack, accounts.pc, ?_, ?_⟩
  · intro notReturned
    have running : emulator.terminated = false := by
      cases terminated : emulator.terminated with
      | true => exact absurd (by rw [step_of_terminated terminated]) notReturned
      | false => rfl
    obtain ⟨told, instruction, frame, error, middle, eventsEq, tells, -, last, errorEq⟩ :=
      step_events coherent running
    refine ⟨told.filter Event.isHeard, instruction, frame, error, ?_, ?_, last, errorEq⟩
    · rw [eventsEq, List.filter_append]
      rfl
    · intro event member
      obtain ⟨isTold, heard⟩ := List.mem_filter.mp member
      exact tells.updates event isTold heard
  · intro count event member
    obtain ⟨isTold, heard⟩ := List.mem_filter.mp member
    exact (tells_stepBack coherent count).updates event isTold heard

/-- A step that is refused by the output is undone and made again, and in the end more steps are
to be undone than there are. -/
def overwritingMoves : List Move := refusedThenAccepted ++ [.back 1, .back 5]

theorem listener_misses_nothing_overwriting :
    let emulator := overwriting.play overwritingMoves
    let events := heard (overwriting.course overwritingMoves)
    Reachable overwriting ∧ events.length = 22 ∧ emulator.ram ≠ overwriting.ram ∧
      emulator.picture.takeAllBack events = .ok overwriting.picture := by
  intro emulator events
  have reachable : Reachable overwriting :=
    .loaded (.twoInts (ofSize 3) _ _ _ (by decide +kernel))
  refine ⟨reachable, by decide +kernel, by decide +kernel, ?_⟩
  exact (listener_misses_nothing reachable overwritingMoves).1

end Emulator
end ReversibleMips
