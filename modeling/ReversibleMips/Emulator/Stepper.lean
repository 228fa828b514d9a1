import ReversibleMips.Emulator.Step
import ReversibleMips.Emulator.Undo

/-!
# The stepper

Running a program by key presses: one key steps forward, one steps back, one shows the
state of the machine, and one quits.
-/

namespace ReversibleMips
namespace Emulator

structure KeyPress where
  emulator : Emulator
  quit : Bool
  console : String
  events : List Event
  error : Option EmulatorError

def dumpLine (cell : Cell) : String :=
  Text.padRight 10 cell.tag ++ " " ++ cell.hex ++ "  " ++ cell.details ++ "\n"

/-- Step forward.  That the program has finished is shown, and is no error. -/
def pressNext (emulator : Emulator) : KeyPress :=
  match emulator.step with
  | ⟨emulator, events, some (.step .terminated)⟩ =>
      ⟨emulator, false, StepError.message .terminated ++ "\n", events, none⟩
  | ⟨emulator, events, error⟩ => ⟨emulator, false, "", events, error⟩

/-- Step back.  That there is nothing to undo is shown, and is no error. -/
def pressReverse (emulator : Emulator) : KeyPress :=
  match emulator.stepBack 1 with
  | ⟨emulator, events, some .noHistory⟩ =>
      ⟨emulator, false, EmulatorError.message .noHistory ++ "\n", events, none⟩
  | ⟨emulator, events, some error⟩ => ⟨emulator, false, "", events, some error⟩
  | ⟨emulator, events, none⟩ =>
      ⟨emulator, false, "reversed to " ++ emulator.pc.text ++ "\n", events, none⟩

/-- Press a key.  The keys are `n`, `r`, `d` and `q`, which an interrupt stands for too;
other keys do nothing. -/
def press (emulator : Emulator) (key : UInt8) : KeyPress :=
  match key.toNat with
  | 0x6e => emulator.pressNext
  | 0x72 => emulator.pressReverse
  | 0x64 => ⟨emulator, false, String.join (emulator.cells.map dumpLine), [], none⟩
  | 0x71 => ⟨emulator, true, "", [], none⟩
  | 0x03 => ⟨emulator, true, "", [], none⟩
  | _ => ⟨emulator, false, "", [], none⟩

end Emulator
end ReversibleMips
