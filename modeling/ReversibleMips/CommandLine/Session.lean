import ReversibleMips.Assembler.Assembly
import ReversibleMips.CommandLine.Directory
import ReversibleMips.CommandLine.Elements
import ReversibleMips.CommandLine.Flags
import ReversibleMips.Emulator.Step
import ReversibleMips.Text.Utf8

/-!
# Sessions

A session of the command assembles or reads a program, loads it with its arguments,
attaches its input and output, and runs it until it returns or fails.
-/

namespace ReversibleMips
namespace CommandLine

/-- What the command finds around it. -/
structure Surroundings where
  /-- What a path leads to, or why it leads to nothing. -/
  find : String → Except String Entry
  standardInput : List UInt8

/-- The surroundings of a session whose files are given beforehand. -/
def Surroundings.ofDirectory (directory : Directory) (standardInput : List UInt8) :
    Surroundings where
  find path := (directory.find path).mapError PathError.message
  standardInput := standardInput

structure Result where
  exitCode : Nat
  standardOutput : Array UInt8
  standardError : String
deriving Inhabited

/-- A program that has been loaded and may run. -/
structure Session where
  emulator : Emulator
  verbose : Bool
  log : String

/-- What the arguments of the command lead to. -/
inductive Startup where
  | stopped (result : Result)
  | running (session : Session)
  | stepping (session : Session)

def textOfLines (lines : List String) : String :=
  String.join (lines.map fun line => line ++ "\n")

def logOfEvents (verbose : Bool) (events : List Event) : String :=
  if verbose then textOfLines (events.filterMap Event.logLine?) else ""

def lineOf (message : String) : String :=
  if message.endsWith "\n" then message else message ++ "\n"

/-- The end of a session by an error, behind what was logged. -/
def fatal (log message : String) : Result :=
  ⟨1, #[], log ++ lineOf message⟩

def unopened (path reason : String) : String :=
  path ++ ": open " ++ path ++ ": " ++ reason

/-- What is said of a directory that is read like a file. -/
def notReadable (path : String) : String :=
  "read " ++ path ++ ": is a directory"

def assembledImage (options : Options) (bytes : List UInt8) :
    String × Except String (List UInt8) :=
  let source := Glyphs.ofBytes bytes
  let (assembly, error) := Assembler.assemble Emulator.defines source
  let log := textOfLines (Assembler.printedLines options.verbose Emulator.defines source)
  match error with
  | some error => (log, .error (options.compile ++ ": " ++ error.message))
  | none => (log, .ok assembly.program.image)

def programImage (options : Options) (surroundings : Surroundings) :
    String × Except String (List UInt8) :=
  if options.compile ≠ "" then
    let path := options.compile
    match surroundings.find path with
    | .error reason => ("", .error (unopened path reason))
    | .ok (.file bytes) => assembledImage options bytes
    | .ok .standardInput => assembledImage options surroundings.standardInput
    | .ok .directory =>
        let error : Assembler.SourceError := ⟨0, "", .unreadable (notReadable path)⟩
        ("", .error (path ++ ": " ++ error.message))
  else if options.program ≠ "" then
    let path := options.program
    match surroundings.find path with
    | .error reason => ("", .error (unopened path reason))
    | .ok (.file bytes) => ("", .ok bytes)
    | .ok .standardInput => ("", .ok surroundings.standardInput)
    | .ok .directory => ("", .error (path ++ ": " ++ notReadable path))
  else
    ("", .error (commandName ++ ": one of -p or -c is required"))

/-- What is left for the program to read.  A program that comes in by standard input
leaves nothing of it. -/
def leftInput (options : Options) (surroundings : Surroundings) : List UInt8 :=
  let path := if options.compile ≠ "" then options.compile else options.program
  match surroundings.find path with
  | .ok .standardInput => []
  | _ => surroundings.standardInput

def loadProgram (options : Options) (image : List UInt8) : Except String Outcome :=
  match options.mode with
  | "twoints" =>
      .ok (Emulator.full.loadTwoInts image (Int32.ofInt options.first)
        (Int32.ofInt options.second))
  | "array" =>
      match parseElements options.elements with
      | (_, some error) => .error ("-e: " ++ error.message)
      | (elements, none) => .ok (Emulator.full.loadArray image elements)
  | "stdin" => .ok (Emulator.full.load image)
  | mode => .error ("-m: unknown mode " ++ mode)

/-- The input of the program.  A program of mode `stdin` that is not run by key presses
reads standard input if nothing else is said. -/
def inputName (options : Options) : String :=
  if options.mode = "stdin" ∧ options.input = "" ∧ !options.step then "-" else options.input

/-- What the input of the program delivers.  A directory delivers nothing. -/
def programInput (options : Options) (surroundings : Surroundings) :
    Except String (Option (List Delivery)) :=
  match inputName options with
  | "" => .ok none
  | "-" => .ok (some (Tape.inputOfBytes (leftInput options surroundings)))
  | path =>
      match surroundings.find path with
      | .error reason => .error (unopened path reason)
      | .ok (.file bytes) => .ok (some (Tape.inputOfBytes bytes))
      | .ok .standardInput => .ok (some (Tape.inputOfBytes (leftInput options surroundings)))
      | .ok .directory => .ok (some [])

/-- Attach input and output to a program that has been loaded. -/
def startProgram (options : Options) (surroundings : Surroundings) (log : String)
    (emulator : Emulator) : Startup :=
  match programInput options surroundings with
  | .error message => .stopped (fatal log message)
  | .ok input =>
      let tape := { emulator.tape with input := input, output := some .unlimited }
      let session : Session := ⟨{ emulator with tape := tape }, options.verbose, log⟩
      if options.step then .stepping session else .running session

def startOptions (options : Options) (surroundings : Surroundings) : Startup :=
  match programImage options surroundings with
  | (log, .error message) => .stopped (fatal log message)
  | (log, .ok image) =>
      match loadProgram options image with
      | .error message => .stopped (fatal log message)
      | .ok ⟨emulator, events, error⟩ =>
          let log := log ++ logOfEvents options.verbose events
          match error with
          | some error => .stopped (fatal log error.message)
          | none => startProgram options surroundings log emulator

def start (arguments : List String) (surroundings : Surroundings) : Startup :=
  match parseFlags arguments with
  | .help => .stopped ⟨0, #[], usage⟩
  | .wrong error => .stopped ⟨2, #[], error.message ++ "\n" ++ usage⟩
  | .options options [] => startOptions options surroundings
  | .options _ extra =>
      .stopped
        (fatal "" (commandName ++ ": Unknown arguments: [" ++ " ".intercalate extra ++ "]"))

namespace Session

def standardOutput (session : Session) : Array UInt8 :=
  match session.emulator.tape.output with
  | some sink => sink.bytes
  | none => #[]

/-- The end of a session that wanted to be run by key presses and has no keys. -/
def withoutTerminal (session : Session) : Result :=
  fatal session.log "stepper: standard input is not a terminal"

def ending (session : Session) : Emulator.Ending → Option Result
  | .unfinished => none
  | .returned =>
      some ⟨0, session.standardOutput, session.log ++ session.emulator.completed⟩
  | .failed error =>
      some ⟨1, session.standardOutput, session.log ++ error.message ++ "\n"⟩

def advance (session : Session) (steps : Nat) : Session × Option Result :=
  let verbose := session.verbose
  let log := session.log
  let run := session.emulator.runFor steps
  let session : Session := ⟨run.emulator, verbose, log ++ logOfEvents verbose run.events⟩
  (session, session.ending run.ending)

end Session
end CommandLine
end ReversibleMips
