import ReversibleMips.Emulator.Basic

/-!
# Running backwards

Undoing a step takes its frame off the journal and puts the records back, the
latest first.  The tape is not rewound: what was read stays read, and what was
written stays written.
-/

namespace ReversibleMips
namespace Emulator

/-- Put the prior state of one record back. -/
def restore (emulator : Emulator) (mutation : Mutation) : Outcome :=
  match mutation.kind with
  | .register =>
      match Register.ofIndex mutation.registerIndex with
      | .error misuse => ⟨emulator, [], some (.misuse misuse)⟩
      | .ok register =>
          let replaced := emulator.registers.read register
          let registers := emulator.registers.write register mutation.prior
          ⟨{ emulator with registers := registers }, [.register register replaced], none⟩
  | .memory =>
      match emulator.ram.read mutation.location with
      | .error error => ⟨emulator, [], some (.memory error)⟩
      | .ok replaced =>
          let ram := emulator.ram.setIndex mutation.location.index mutation.prior
          ⟨{ emulator with ram := ram }, [.memory mutation.location replaced], none⟩
  | .pc => ⟨{ emulator with pc := mutation.location }, [.pc mutation.location], none⟩
  | .other _ => ⟨emulator, [], none⟩

/-- Put records back in the order in which they are given, up to the first that
cannot be. -/
def restoreAll (emulator : Emulator) : List Mutation → Outcome
  | [] => ⟨emulator, [], none⟩
  | mutation :: rest =>
      match emulator.restore mutation with
      | ⟨emulator, events, some error⟩ => ⟨emulator, events, some error⟩
      | ⟨emulator, events, none⟩ =>
          let later := emulator.restoreAll rest
          ⟨later.emulator, events ++ later.events, later.error⟩

def undo (emulator : Emulator) : Outcome :=
  match emulator.journal.last? with
  | none => ⟨emulator, [], some .noHistory⟩
  | some frame =>
      let popped := { emulator with journal := emulator.journal.pop }
      match popped.restoreAll frame.reverse with
      | ⟨emulator, events, some error⟩ => ⟨emulator, events, some error⟩
      | ⟨emulator, events, none⟩ => ⟨emulator, events ++ [.reversed emulator.pc], none⟩

def undoAll : Nat → Emulator → Outcome
  | 0, emulator => ⟨emulator, [], none⟩
  | steps + 1, emulator =>
      match emulator.undo with
      | ⟨emulator, events, some error⟩ => ⟨emulator, events, some error⟩
      | ⟨emulator, events, none⟩ =>
          let later := undoAll steps emulator
          ⟨later.emulator, events ++ later.events, later.error⟩

/-- Undo the latest steps.  If there are not that many, nothing happens. -/
def stepBack (emulator : Emulator) (count : Int) : Outcome :=
  if count < 0 ∨ emulator.history < count then
    ⟨emulator, [], some .noHistory⟩
  else
    undoAll count.toNat emulator

end Emulator
end ReversibleMips
