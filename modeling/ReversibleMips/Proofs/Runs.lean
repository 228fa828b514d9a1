import ReversibleMips.Emulator.Load
import ReversibleMips.Emulator.Step
import ReversibleMips.Emulator.Undo

/-!
# Runs

A run is all that happens to an emulator: steps forwards and back, changes of what its tape is
connected to, and whatever else is asked of it.  The run visits the emulator in front of each of
these.  What every single request keeps is kept by runs, and what is said of runs elsewhere comes
from the one induction of this file.
-/

namespace ReversibleMips
namespace Emulator

/-- What happens while a program runs. -/
inductive Move where
  | step
  | back (count : Int)
  /-- The tape changes from outside.  So input and output may deliver, accept and refuse bytes as
  they like, from one step to the next. -/
  | exchange (change : Tape → Tape)

/-- What can be asked of an emulator and of its memory. -/
inductive Request where
  | move (move : Move)
  | write (address : Address) (value : Word)
  | clear
  | reset
  | load (image : List UInt8)
  | loadTwoInts (image : List UInt8) (first second : Int32)
  | loadArray (image : List UInt8) (elements : List Int32)
  | replace (other : Emulator)

def make (emulator : Emulator) : Move → Outcome
  | .step => emulator.step
  | .back count => emulator.stepBack count
  | .exchange change => ⟨{ emulator with tape := change emulator.tape }, [], none⟩

def ask (emulator : Emulator) : Request → Outcome
  | .move move => emulator.make move
  | .write address value =>
      match emulator.ram.write address value with
      | .error error => ⟨emulator, [], some (.memory error)⟩
      | .ok ram => ⟨{ emulator with ram := ram }, [], none⟩
  | .clear => ⟨{ emulator with ram := emulator.ram.reset }, [], none⟩
  | .reset => ⟨emulator.reset, [], none⟩
  | .load image => emulator.load image
  | .loadTwoInts image first second => emulator.loadTwoInts image first second
  | .loadArray image elements => emulator.loadArray image elements
  | .replace other => ⟨{ other with ram := emulator.ram }, [], none⟩

/-- An emulator in front of a request. -/
structure Visit where
  before : Emulator
  request : Request

def Visit.outcome (visit : Visit) : Outcome := visit.before.ask visit.request

def visits (emulator : Emulator) : List Request → List Visit
  | [] => []
  | request :: rest => ⟨emulator, request⟩ :: (emulator.ask request).emulator.visits rest

def askAll (emulator : Emulator) (requests : List Request) : Emulator :=
  requests.foldl (fun current request => (current.ask request).emulator) emulator

/-- What holds at first and is kept by every request holds of whole runs. -/
theorem askAll_induction {motive : List Visit → Emulator → Prop} {emulator : Emulator}
    {requests : List Request} (start : motive [] emulator)
    (next : ∀ past current, ∀ request ∈ requests, motive past current →
      motive (past ++ [⟨current, request⟩]) (current.ask request).emulator) :
    motive (emulator.visits requests) (emulator.askAll requests) := by
  have continued (rest : List Request) (few : ∀ request ∈ rest, request ∈ requests)
      (past : List Visit) (current : Emulator) (reached : motive past current) :
      motive (past ++ current.visits rest) (current.askAll rest) := by
    induction rest generalizing past current with
    | nil =>
        rw [visits, List.append_nil]
        exact reached
    | cons request rest ih =>
        have later := ih (fun other member => few other (List.mem_cons_of_mem _ member)) _ _
          (next past current request (few request List.mem_cons_self) reached)
        rwa [List.append_assoc] at later
  exact continued requests (fun _ member => member) [] emulator start

/-- What every request keeps holds in front of every request, and in the end. -/
theorem askAll_invariant {holds : Emulator → Prop} {emulator : Emulator}
    {requests : List Request} (start : holds emulator)
    (kept : ∀ current, ∀ request ∈ requests, holds current →
      holds (current.ask request).emulator) :
    (∀ visit ∈ emulator.visits requests, holds visit.before) ∧
      holds (emulator.askAll requests) := by
  apply @askAll_induction
    (fun past current => (∀ visit ∈ past, holds visit.before) ∧ holds current)
  · exact ⟨by simp, start⟩
  · rintro past current request member ⟨before, now⟩
    refine ⟨?_, kept current request member now⟩
    intro visit inside
    rcases List.mem_append.mp inside with earlier | last
    · exact before visit earlier
    · rw [List.mem_singleton.mp last]
      exact now

def course (emulator : Emulator) (moves : List Move) : List Visit :=
  emulator.visits (moves.map .move)

def play (emulator : Emulator) (moves : List Move) : Emulator :=
  emulator.askAll (moves.map .move)

theorem play_induction {motive : List Visit → Emulator → Prop} {emulator : Emulator}
    {moves : List Move} (start : motive [] emulator)
    (next : ∀ past current, ∀ move ∈ moves, motive past current →
      motive (past ++ [⟨current, .move move⟩]) (current.make move).emulator) :
    motive (emulator.course moves) (emulator.play moves) := by
  apply askAll_induction start
  intro past current request member reached
  obtain ⟨move, inside, rfl⟩ := List.mem_map.mp member
  exact next past current move inside reached

theorem play_invariant {holds : Emulator → Prop} {emulator : Emulator} {moves : List Move}
    (start : holds emulator)
    (kept : ∀ current, ∀ move ∈ moves, holds current → holds (current.make move).emulator) :
    (∀ visit ∈ emulator.course moves, holds visit.before) ∧ holds (emulator.play moves) := by
  apply askAll_invariant start
  intro current request member now
  obtain ⟨move, inside, rfl⟩ := List.mem_map.mp member
  exact kept current move inside now

end Emulator
end ReversibleMips
