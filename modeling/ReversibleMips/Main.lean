import ReversibleMips.CommandLine.Session
import ReversibleMips.Emulator.Stepper

/-!
# The command

Reads the files that the arguments name, and runs a session.
-/

namespace ReversibleMips
namespace CommandLine

/-- What a path leads to, or why it leads to nothing. -/
def findEntry (path : String) : IO (Except String Entry) := do
  try
    return .ok (.file (← IO.FS.readBinFile path).toList)
  catch
    | .inappropriateType _ 21 _ => return .ok .directory
    | .inappropriateType .. => return .error PathError.notDirectory.message
    | .noFileOrDirectory .. => return .error PathError.missing.message
    | error => return .error (toString error)

/-- What the command finds around it, as far as its arguments ask for it. -/
def surroundingsFor (arguments : List String) : IO Surroundings := do
  match parseFlags arguments with
  | .options options [] =>
      let names := [options.compile, options.program, inputName options].filter (· ≠ "")
      let mut found : List (String × Except String Entry) := []
      for name in names do
        found := (name, ← findEntry name) :: found
      let input ←
        if inputName options = "-" && !options.step then (← IO.getStdin).readBinToEnd
        else pure .empty
      let entries := found
      return {
        find := fun path => (entries.lookup path).getD (.error PathError.missing.message)
        standardInput := input.toList }
  | _ =>
      return { find := fun _ => .error PathError.missing.message, standardInput := [] }

def writeNew (written : Nat) (bytes : Array UInt8) : IO Unit := do
  let output ← IO.getStdout
  output.write ⟨bytes.extract written bytes.size⟩
  output.flush

/-- Run a session to its end. -/
partial def runSession (session : Session) : IO UInt32 := do
  let written := session.standardOutput.size
  let (session, result) := { session with log := "" }.advance 4096
  match result with
  | some result =>
      writeNew written result.standardOutput
      (← IO.getStderr).putStr result.standardError
      return UInt32.ofNat result.exitCode
  | none =>
      writeNew written session.standardOutput
      (← IO.getStderr).putStr session.log
      runSession session

/-- Run a session by the keys that come in by standard input. -/
partial def runKeys (session : Session) : IO UInt32 := do
  let console ← IO.getStderr
  match (← (← IO.getStdin).read 1).toList with
  | [] =>
      console.putStrLn "EOF"
      return 1
  | key :: _ =>
      let written := session.standardOutput.size
      let pressed := session.emulator.press key
      let session := { session with emulator := pressed.emulator }
      writeNew written session.standardOutput
      console.putStr (textOfLines (pressed.events.filterMap Event.traceLine?))
      console.putStr pressed.console
      match pressed.error, pressed.quit with
      | some error, _ =>
          console.putStrLn error.message
          return 1
      | none, true =>
          if session.emulator.terminated then
            console.putStr session.emulator.completed
          return 0
      | none, false => runKeys session

end CommandLine
end ReversibleMips

open ReversibleMips.CommandLine in
def main (arguments : List String) : IO UInt32 := do
  let surroundings ← surroundingsFor arguments
  match start arguments surroundings with
  | .stopped result =>
      (← IO.getStderr).putStr result.standardError
      return UInt32.ofNat result.exitCode
  | .running session =>
      (← IO.getStderr).putStr session.log
      runSession session
  | .stepping session =>
      (← IO.getStderr).putStr session.log
      if ← (← IO.getStdin).isTty then
        (← IO.getStderr).putStr "n: step, r: reverse, d: dump, q: quit\n"
        runKeys session
      else
        (← IO.getStderr).putStr ({ session with log := "" }.withoutTerminal).standardError
        return 1
