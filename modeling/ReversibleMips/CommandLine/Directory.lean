import ReversibleMips.Text.Piece

/-!
# Directories

A session can be run on files that are given beforehand, in place of those of the system it
runs on.  The name of a file is a path: its components, which slashes separate, are followed
one after another from the working directory, or from the root if a slash stands first.
Nothing is known of the directories around the working directory but those that every system
has.
-/

namespace ReversibleMips
namespace CommandLine

inductive Entry where
  | file (bytes : List UInt8)
  | directory
  | standardInput
deriving DecidableEq

/-- Why a path leads to nothing. -/
inductive PathError where
  | missing
  | notDirectory
  | tooLong
  | malformed
deriving DecidableEq

def PathError.message : PathError → String
  | missing => "no such file or directory"
  | notDirectory => "not a directory"
  | tooLong => "file name too long"
  | malformed => "invalid argument"

def componentsOf (path : String) : List String :=
  (Text.splitOn '/' path.toList).map String.ofList

/-- The files below a working directory, by their paths. -/
structure Directory where
  files : List (String × List UInt8)

/-- Where a path has led so far. -/
inductive Place where
  | below (components : List String)
  | root
  | devices
  | processes
  | ownProcess
  | descriptors
  /-- Some other directory, with the number of components of its path from the root. -/
  | elsewhere (depth : Nat)
  | leaf (entry : Entry)
deriving DecidableEq

namespace Place

def entry : Place → Entry
  | leaf entry => entry
  | _ => .directory

/-- How many components the path of the working directory has from the root. -/
def workingDepth : Nat := 2

def atDepth : Nat → Place
  | 0 => root
  | depth => elsewhere depth

/-- The place above a directory.  The root is above itself. -/
def above : Place → Place
  | below (first :: rest) => below (first :: rest).dropLast
  | below [] => atDepth (workingDepth - 1)
  | elsewhere depth => atDepth (depth - 1)
  | ownProcess => processes
  | descriptors => ownProcess
  | _ => root

end Place

def systemDirectories : List String :=
  ["bin", "boot", "etc", "home", "lib", "media", "mnt", "opt", "root", "run", "sbin",
    "srv", "sys", "tmp", "usr", "var"]

def maxComponentBytes : Nat := 255

def maxPathBytes : Nat := 4096

namespace Directory

def lookUp (directory : Directory) (place : Place) (name : String) : Except PathError Place :=
  match place, name with
  | .below components, name =>
      let path := components ++ [name]
      match directory.files.find? fun (held, _) => componentsOf held = path with
      | some (_, bytes) => .ok (.leaf (.file bytes))
      | none =>
          if directory.files.any fun (held, _) => path.isPrefixOf (componentsOf held) then
            .ok (.below path)
          else
            .error .missing
  | .root, "dev" => .ok .devices
  | .root, "proc" => .ok .processes
  | .root, name =>
      if systemDirectories.contains name then .ok (.elsewhere 1) else .error .missing
  | .devices, "null" => .ok (.leaf (.file []))
  | .devices, "stdin" => .ok (.leaf .standardInput)
  | .devices, "fd" => .ok .descriptors
  | .processes, "self" => .ok .ownProcess
  | .ownProcess, "fd" => .ok .descriptors
  | .descriptors, "0" => .ok (.leaf .standardInput)
  | _, _ => .error .missing

def follow (directory : Directory) (place : Place) (component : String) :
    Except PathError Place :=
  match place, component with
  | .leaf _, _ => .error .notDirectory
  | place, "" | place, "." => .ok place
  | place, ".." => .ok place.above
  | place, name =>
      if maxComponentBytes < name.utf8ByteSize then .error .tooLong
      else directory.lookUp place name

def find (directory : Directory) (path : String) : Except PathError Entry :=
  if path.contains '\x00' then .error .malformed
  else if path.isEmpty then .error .missing
  else if maxPathBytes ≤ path.utf8ByteSize then .error .tooLong
  else
    let start : Place := if path.startsWith "/" then .root else .below []
    ((componentsOf path).foldlM directory.follow start).map Place.entry

end Directory
end CommandLine
end ReversibleMips
