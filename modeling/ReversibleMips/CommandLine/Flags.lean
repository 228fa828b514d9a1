import ReversibleMips.Text.IntLiteral
import ReversibleMips.Text.Quoted

/-!
# Flags

The flags of the command, how they are written on the command line and what is said
about those that are wrong.  Flags end at the first argument that is none.
-/

namespace ReversibleMips
namespace CommandLine

def commandName : String := "mips241"

structure Options where
  program : String := ""
  compile : String := ""
  mode : String := "twoints"
  first : Int := 0
  second : Int := 0
  elements : String := ""
  input : String := ""
  step : Bool := false
  verbose : Bool := false
deriving DecidableEq, Inhabited

inductive FlagError where
  | badForm (argument : String)
  | undefined (name : String)
  | missingValue (name : String)
  | badNumber (name value : String) (error : Text.LiteralError)
  | badSwitch (name value : String)
deriving DecidableEq

namespace FlagError

def message : FlagError → String
  | badForm argument => "bad flag syntax: " ++ argument
  | undefined name => "flag provided but not defined: -" ++ name
  | missingValue name => "flag needs an argument: -" ++ name
  | badNumber name value error =>
      "invalid value " ++ Text.quoted value ++ " for flag -" ++ name ++ ": " ++
        match error with
        | .malformed => "parse error"
        | .outOfRange => "value out of range"
  | badSwitch name value =>
      "invalid boolean value " ++ Text.quoted value ++ " for -" ++ name ++ ": parse error"

end FlagError

def usage : String :=
  "Usage of " ++ commandName ++ ":\n" ++
    "  -c string\n    \t.asm file to compile and load\n" ++
    "  -e string\n    \tarray: comma separated elements\n" ++
    "  -i string\n    \tProgram input ('-' for stdin)\n" ++
    "  -m string\n    \tLoad mode: twoints, array, or stdin (default \"twoints\")\n" ++
    "  -p string\n    \t.mips binary to load\n" ++
    "  -r1 int\n    \ttwoints: value of $1\n" ++
    "  -r2 int\n    \ttwoints: value of $2\n" ++
    "  -s\tInteractive stepper\n" ++
    "  -v\tVerbose mode\n"

inductive Parsed where
  | options (options : Options) (arguments : List String)
  | help
  | wrong (error : FlagError)

def switch? (value : String) : Option Bool :=
  if ["1", "t", "T", "TRUE", "true", "True"].contains value then some true
  else if ["0", "f", "F", "FALSE", "false", "False"].contains value then some false
  else none

/-- A flag as it is written: its name, and its value if that follows an equals sign. -/
structure WrittenFlag where
  name : String
  value : Option String

inductive Argument where
  | flag (flag : WrittenFlag)
  | terminator
  | plain
  | bad

/-- Cut a flag at its first equals sign, which is not its first character. -/
def writtenFlag (first : Char) (rest : List Char) : WrittenFlag :=
  let name := String.ofList (first :: rest.takeWhile (· ≠ '='))
  match rest.dropWhile (· ≠ '=') with
  | _ :: value => ⟨name, some (String.ofList value)⟩
  | [] => ⟨name, none⟩

def readName : List Char → Argument
  | [] => .bad
  | first :: rest => if first = '-' ∨ first = '=' then .bad else .flag (writtenFlag first rest)

def readArgument (argument : String) : Argument :=
  match argument.toList with
  | ['-', '-'] => .terminator
  | '-' :: '-' :: name => readName name
  | ['-'] => .plain
  | '-' :: name => readName name
  | _ => .plain

/-- Set a switch.  A switch without a value is on. -/
def Options.setSwitch (options : Options) (flag : WrittenFlag) (set : Options → Bool → Options) :
    Except FlagError Options :=
  match flag.value with
  | none => .ok (set options true)
  | some value =>
      match switch? value with
      | some on => .ok (set options on)
      | none => .error (.badSwitch flag.name value)

def Options.setValue (options : Options) (name value : String) : Except FlagError Options :=
  match name with
  | "p" => .ok { options with program := value }
  | "c" => .ok { options with compile := value }
  | "m" => .ok { options with mode := value }
  | "e" => .ok { options with elements := value }
  | "i" => .ok { options with input := value }
  | "r1" =>
      match Text.readInt 64 value.toList with
      | .ok number => .ok { options with first := number }
      | .error error => .error (.badNumber name value error)
  | "r2" =>
      match Text.readInt 64 value.toList with
      | .ok number => .ok { options with second := number }
      | .error error => .error (.badNumber name value error)
  | _ => .error (.undefined name)

def valueFlags : List String := ["p", "c", "m", "r1", "r2", "e", "i"]

def readFlags (options : Options) : List String → Parsed
  | [] => .options options []
  | argument :: rest =>
      match readArgument argument with
      | .bad => .wrong (.badForm argument)
      | .plain => .options options (argument :: rest)
      | .terminator => .options options rest
      | .flag flag =>
          if flag.name = "s" then
            match options.setSwitch flag fun options on => { options with step := on } with
            | .error error => .wrong error
            | .ok options => readFlags options rest
          else if flag.name = "v" then
            match options.setSwitch flag fun options on => { options with verbose := on } with
            | .error error => .wrong error
            | .ok options => readFlags options rest
          else if !valueFlags.contains flag.name then
            if flag.name = "help" ∨ flag.name = "h" then .help
            else .wrong (.undefined flag.name)
          else
            match flag.value, rest with
            | some value, rest =>
                match options.setValue flag.name value with
                | .error error => .wrong error
                | .ok options => readFlags options rest
            | none, value :: rest =>
                match options.setValue flag.name value with
                | .error error => .wrong error
                | .ok options => readFlags options rest
            | none, [] => .wrong (.missingValue flag.name)

def parseFlags (arguments : List String) : Parsed := readFlags {} arguments

end CommandLine
end ReversibleMips
