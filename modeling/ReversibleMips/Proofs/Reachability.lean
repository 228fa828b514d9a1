import ReversibleMips.Proofs.CoherentMemory
import ReversibleMips.Proofs.Loading
import ReversibleMips.Proofs.Runs
import ReversibleMips.Proofs.StepCases

/-!
# Reachable emulators

An emulator is reachable if it comes from a load that succeeded by any moves: by steps and
by undoing steps, whether these succeed or fail, while the tape changes from outside.  The
journal starts empty and memory stays coherent all along.

Running forwards and backwards changes memory by writes only, so that it stays coherent and
keeps its size.

Undoing steps restores records and takes frames off the journal.  What both of these keep, it
keeps as well.
-/

namespace ReversibleMips
namespace Emulator

/-- An emulator right after a load that succeeded.  What was there before does not
matter, and the tape may be any that has been rewound. -/
inductive Loaded : Emulator → Prop
  | image (earlier : Emulator) (image : List UInt8)
      (succeeds : (earlier.load image).error = none) :
      Loaded (earlier.load image).emulator
  | twoInts (earlier : Emulator) (image : List UInt8) (first second : Int32)
      (succeeds : (earlier.loadTwoInts image first second).error = none) :
      Loaded (earlier.loadTwoInts image first second).emulator
  | array (earlier : Emulator) (image : List UInt8) (elements : List Int32)
      (succeeds : (earlier.loadArray image elements).error = none) :
      Loaded (earlier.loadArray image elements).emulator

/-- An emulator that a loaded one can become by moves. -/
def Reachable (emulator : Emulator) : Prop :=
  ∃ (origin : Emulator) (moves : List Move), Loaded origin ∧ origin.play moves = emulator

/-- What all loads leave behind. -/
structure Fresh (emulator : Emulator) : Prop where
  coherent : emulator.ram.Coherent
  journal : emulator.journal = .empty

/-- A load may put arguments into registers and memory, and changes nothing else of the loaded
program. -/
theorem Loaded.prepared {emulator : Emulator} (loaded : Loaded emulator) :
    ∃ (earlier : Emulator) (words : List Word) (registers : Registers) (ram : Ram),
      emulator = { earlier.withProgram words with registers := registers, ram := ram } ∧
        (earlier.withProgram words).ram.Written ram := by
  cases loaded with
  | image earlier image succeeds =>
      rw [load_of_fits (fits_of_load succeeds)]
      exact ⟨earlier, Image.toWords image, _, _, rfl, .same⟩
  | twoInts earlier image first second succeeds =>
      rw [loadTwoInts_of_fits (fits_of_loadTwoInts succeeds)]
      exact ⟨earlier, Image.toWords image, _, _, rfl, .same⟩
  | array earlier image elements succeeds =>
      obtain ⟨fits, room⟩ := fits_of_loadArray succeeds
      rw [loadArray_of_fits fits room]
      exact ⟨earlier, Image.toWords image, _, _, rfl, Ram.written_writeFrom _ _ _⟩

theorem Loaded.fresh {emulator : Emulator} (loaded : Loaded emulator) : Fresh emulator := by
  obtain ⟨earlier, words, registers, ram, rfl, written⟩ := loaded.prepared
  have program : (earlier.withProgram words).ram.Coherent :=
    (Ram.written_writeFrom _ 0 words).coherent (Ram.coherent_ofSize _)
  exact ⟨written.coherent program, rfl⟩

theorem written_setPc (emulator : Emulator) (link : Option (Register × Word))
    (target : Except Fault Address) :
    emulator.ram.Written (emulator.setPc link target).emulator.ram := by
  cases link <;> cases target <;> exact .same

theorem written_perform (emulator : Emulator) (effect : Effect) :
    emulator.ram.Written (emulator.perform effect).emulator.ram := by
  cases effect with
  | write register value => exact .same
  | writePair high low => exact .same
  | store address value =>
      simp only [perform, setMemory]
      split
      · exact .same
      · exact Ram.Written.same.setIndex address.index value
  | receive register => exact .same
  | send value =>
      simp only [perform]
      split
      · exact .same
      · exact .same
  | jump link target => exact written_setPc emulator link target

theorem written_performs {emulator : Emulator} {instruction : Instruction}
    {performance : Performance} (performs : Performs emulator instruction performance) :
    emulator.ram.Written performance.emulator.ram := by
  cases performs with
  | unfetched missing => exact .same
  | stuck fetched last => exact .same
  | faulty fetched moved fails => exact .same
  | @effective _ next effect fetched moved found =>
      exact written_perform { emulator with pc := next } effect

theorem written_step (emulator : Emulator) :
    emulator.ram.Written emulator.step.emulator.ram := by
  cases terminated : emulator.terminated with
  | true =>
      rw [step_of_terminated terminated]
      exact .same
  | false =>
      obtain ⟨instruction, performance, performs, stepEq⟩ := step_of_running terminated
      rw [stepEq]
      exact written_performs performs

theorem written_restore (emulator : Emulator) (mutation : Mutation) :
    emulator.ram.Written (emulator.restore mutation).emulator.ram := by
  unfold restore
  split
  · split
    · exact .same
    · exact .same
  · split
    · exact .same
    · exact Ram.Written.same.setIndex _ _
  · exact .same
  · exact .same

section Undoing

variable {related : Emulator → Emulator → Prop} (refl : ∀ emulator, related emulator emulator)
    (trans : ∀ {first second third}, related first second → related second third →
      related first third)
    (restored : ∀ emulator mutation, related emulator (emulator.restore mutation).emulator)
    (popped : ∀ emulator journal, related emulator { emulator with journal := journal })

include refl trans restored

theorem related_restoreAll (emulator : Emulator) (mutations : List Mutation) :
    related emulator (emulator.restoreAll mutations).emulator := by
  induction mutations generalizing emulator with
  | nil => exact refl emulator
  | cons mutation rest ih =>
      have first := restored emulator mutation
      unfold restoreAll
      split
      · rename_i failed
        rwa [failed] at first
      · rename_i next _ succeeded
        rw [succeeded] at first
        exact trans first (ih next)

include popped

theorem related_undo (emulator : Emulator) : related emulator emulator.undo.emulator := by
  unfold undo
  split
  · exact refl emulator
  · rename_i frame _
    have all := trans (popped emulator emulator.journal.pop)
      (related_restoreAll refl trans restored
        { emulator with journal := emulator.journal.pop } frame.reverse)
    simp only
    split
    · rename_i failed
      rwa [failed] at all
    · rename_i succeeded
      rwa [succeeded] at all

theorem related_undoAll (emulator : Emulator) (steps : Nat) :
    related emulator (undoAll steps emulator).emulator := by
  induction steps generalizing emulator with
  | zero => exact refl emulator
  | succ steps ih =>
      have first := related_undo refl trans restored popped emulator
      unfold undoAll
      split
      · rename_i failed
        rwa [failed] at first
      · rename_i next _ succeeded
        rw [succeeded] at first
        exact trans first (ih next)

theorem related_stepBack (emulator : Emulator) (count : Int) :
    related emulator (emulator.stepBack count).emulator := by
  unfold stepBack
  split
  · exact refl emulator
  · exact related_undoAll refl trans restored popped emulator count.toNat

end Undoing

theorem written_undo (emulator : Emulator) :
    emulator.ram.Written emulator.undo.emulator.ram :=
  @related_undo (fun earlier later => earlier.ram.Written later.ram) (fun _ => .same)
    Ram.Written.trans written_restore (fun _ _ => .same) emulator

theorem written_stepBack (emulator : Emulator) (count : Int) :
    emulator.ram.Written (emulator.stepBack count).emulator.ram :=
  @related_stepBack (fun earlier later => earlier.ram.Written later.ram) (fun _ => .same)
    Ram.Written.trans written_restore (fun _ _ => .same) emulator count

theorem coherent_step {emulator : Emulator} (coherent : emulator.ram.Coherent) :
    emulator.step.emulator.ram.Coherent :=
  (written_step emulator).coherent coherent

theorem coherent_stepBack {emulator : Emulator} (coherent : emulator.ram.Coherent)
    (count : Int) : (emulator.stepBack count).emulator.ram.Coherent :=
  (written_stepBack emulator count).coherent coherent

theorem coherent_make {emulator : Emulator} (coherent : emulator.ram.Coherent) (move : Move) :
    (emulator.make move).emulator.ram.Coherent := by
  cases move with
  | step => exact coherent_step coherent
  | back count => exact coherent_stepBack coherent count
  | exchange change => exact coherent

namespace Reachable

theorem loaded {emulator : Emulator} (loaded : Loaded emulator) : Reachable emulator :=
  ⟨emulator, [], loaded, rfl⟩

theorem invariant {holds : Emulator → Prop} {emulator : Emulator} (reachable : Reachable emulator)
    (start : ∀ origin, Loaded origin → holds origin)
    (kept : ∀ current move, holds current → holds (current.make move).emulator) :
    holds emulator := by
  obtain ⟨origin, moves, loaded, rfl⟩ := reachable
  exact (play_invariant (start origin loaded) fun current move _ => kept current move).2

theorem coherent {emulator : Emulator} (reachable : Reachable emulator) :
    emulator.ram.Coherent :=
  reachable.invariant (fun _ loaded => loaded.fresh.coherent) fun _ move coherent =>
    coherent_make coherent move

end Reachable
end Emulator
end ReversibleMips
