import ReversibleMips.Assembler.Encode
import ReversibleMips.Assembler.Line
import ReversibleMips.Machine.Basic
import ReversibleMips.Program

/-!
# Assembling a source

A source is assembled in two passes.  The first reads line after line, defines
equates and labels and emits a word for every instruction.  The second puts the
addresses of labels into the words that refer to them.
-/

namespace ReversibleMips
namespace Assembler

abbrev Labels := Std.TreeMap Glyphs UInt32

abbrev Definitions := List (Glyphs × Glyphs)

def Definitions.ofStrings (definitions : List (String × String)) : Definitions :=
  definitions.map fun (name, text) => (.ofString name, .ofString text)

instance : Coe (List (String × String)) Definitions := ⟨Definitions.ofStrings⟩

/-- What has been assembled so far. -/
structure Assembly where
  equates : Equates
  labels : Labels
  opcodes : Array Opcode
  linesRead : Nat

namespace Assembly

def setEquate (equates : Equates) (name text : Glyphs) : Equates :=
  equates.insert name text

def systemEquates : Definitions :=
  .ofStrings (("LINENO", "0") :: Machine.defines)

/-- The start of an assembly, with equates that are defined beforehand.  They may
replace those that every source starts with. -/
def start (predefined : Definitions) : Assembly :=
  { equates :=
      (systemEquates ++ predefined).foldl
        (fun equates (name, text) => setEquate equates name text) ∅
    labels := ∅
    opcodes := #[]
    linesRead := 0 }

def nextPc (assembly : Assembly) : UInt32 :=
  UInt32.ofNat (4 * assembly.opcodes.size)

def defineEquate (assembly : Assembly) : List Glyphs → Assembly × Option Fault
  | [name, text] =>
      if assembly.equates.contains name then (assembly, some .equateDuplicate)
      else ({ assembly with equates := assembly.equates.insert name text }, none)
  | _ => (assembly, some .equateSyntax)

def labelOf? (word : Glyphs) : Option Glyphs :=
  match word.reverse with
  | .char ':' :: reversed => some reversed.reverse
  | _ => none

/-- Define the labels at the start of a line, and keep the words behind them. -/
def defineLabels (assembly : Assembly) : List Glyphs → Assembly × Except Fault (List Glyphs)
  | [] => (assembly, .ok [])
  | word :: rest =>
      match labelOf? word with
      | none => (assembly, .ok (word :: rest))
      | some label =>
          if assembly.labels.contains label then (assembly, .error .labelDuplicate)
          else
            defineLabels
              { assembly with labels := assembly.labels.insert label assembly.nextPc } rest

def emit (assembly : Assembly) (lineNo : Nat) (words : List Glyphs) :
    Assembly × Option Fault :=
  match words with
  | [] => (assembly, none)
  | mnemonic :: arguments =>
      match Op.ofName? mnemonic.shown with
      | none => (assembly, some .instructionInvalid)
      | some op =>
          match encode assembly.equates op arguments with
          | .error fault => (assembly, some fault)
          | .ok encoded =>
              let opcode : Opcode :=
                { lineNo := lineNo
                  pc := assembly.nextPc
                  words := words
                  code := encoded.code
                  label := encoded.label }
              ({ assembly with opcodes := assembly.opcodes.push opcode }, none)

def beginLine (assembly : Assembly) (lineNo : Nat) : Assembly :=
  { assembly with
    equates := setEquate assembly.equates (.ofString "LINENO") (.ofString (toString lineNo))
    linesRead := lineNo }

/-- Read a line, without its comment and surrounding blanks. -/
def readLine (assembly : Assembly) (lineNo : Nat) (line : Glyphs) :
    Assembly × Option Fault :=
  let assembly := assembly.beginLine lineNo
  match assembly.equates.wordsOf line with
  | .error fault => (assembly, some fault)
  | .ok [] => (assembly, none)
  | .ok (first :: rest) =>
      if first = Glyphs.ofString ".equ" then assembly.defineEquate rest
      else
        match assembly.defineLabels (first :: rest) with
        | (assembly, .error fault) => (assembly, some fault)
        | (assembly, .ok words) => assembly.emit lineNo words

def maxLineBytes : Nat := 65536

/-- Read lines, up to the first that is wrong.  Of the lines before them, the number
and the last one are given. -/
def readLines (assembly : Assembly) (lineNo : Nat) (previous : Glyphs) :
    List Glyphs → Assembly × Option SourceError
  | [] => (assembly, none)
  | raw :: rest =>
      if maxLineBytes ≤ raw.byteLength then
        (assembly, some ⟨lineNo, previous.shown, .lineTooLong⟩)
      else
        let line := statementText raw.dropCarriageReturn
        match assembly.readLine (lineNo + 1) line with
        | (assembly, some fault) =>
            (assembly, some ⟨lineNo + 1, line.shown, fault⟩)
        | (assembly, none) => assembly.readLines (lineNo + 1) line rest

/-- The lines that are printed while lines are read.  Each line may be logged in front of
what its expressions print. -/
def printedLines (logged : Nat → Glyphs → List String) (assembly : Assembly) (lineNo : Nat) :
    List Glyphs → List String
  | [] => []
  | raw :: rest =>
      if maxLineBytes ≤ raw.byteLength then []
      else
        let text := raw.dropCarriageReturn
        let line := statementText text
        let printed := (assembly.beginLine (lineNo + 1)).equates.printedBy (expandCharacters line)
        logged (lineNo + 1) text ++ printed.map Glyphs.shown ++
          match assembly.readLine (lineNo + 1) line with
          | (_, some _) => []
          | (assembly, none) => printedLines logged assembly (lineNo + 1) rest

def linkedCode (opcode : Opcode) (label : Glyphs) (target : UInt32) : Except Fault Word :=
  let op := (Instruction.decode opcode.code (Address.ofNat (opcode.pc.toNat / 4))).op
  if op = .beq ∨ op = .bne then
    let offset := ((target.toNat : Int) - (opcode.pc + 4).toNat).tdiv 4
    if -0x8000 ≤ offset ∧ offset ≤ 0x7fff then
      .ok (op.encode opcode.code.regS.val opcode.code.regT.val 0 (Int16.ofInt offset))
    else
      .error (.immediateRange label.shown)
  else
    .ok target

def linkOpcode (labels : Labels) (opcode : Opcode) : Except Fault Opcode :=
  match opcode.label with
  | none => .ok opcode
  | some label =>
      match labels[label]? with
      | none => .error (.labelMissing label.shown)
      | some target =>
          (linkedCode opcode label target).map fun code => { opcode with code := code }

/-- Put the addresses of labels into opcodes, up to the first that cannot be linked. -/
def linkOpcodes (labels : Labels) :
    List Opcode → List Opcode × Option SourceError
  | [] => ([], none)
  | opcode :: rest =>
      match linkOpcode labels opcode with
      | .error fault =>
          (opcode :: rest,
            some ⟨opcode.lineNo.toNat, " ".intercalate (opcode.words.map Glyphs.shown), fault⟩)
      | .ok linked =>
          let (later, error) := linkOpcodes labels rest
          (linked :: later, error)

def link (assembly : Assembly) : Assembly × Option SourceError :=
  let (opcodes, error) := linkOpcodes assembly.labels assembly.opcodes.toList
  ({ assembly with opcodes := opcodes.toArray }, error)

def program (assembly : Assembly) : Program := ⟨assembly.opcodes.toList⟩

end Assembly

/-- Assemble a source.  What has been assembled by then is kept if there is an
error. -/
def assemble (predefined : Definitions) (source : Glyphs) :
    Assembly × Option SourceError :=
  match (Assembly.start predefined).readLines 0 [] source.lines with
  | (assembly, some error) => (assembly, some error)
  | (assembly, none) => assembly.link

def logLine (lineNo : Nat) (text : Glyphs) : String := toString lineNo ++ ": " ++ text.shown

def logLines (source : Glyphs) (assembly : Assembly) : List String :=
  (source.lines.take assembly.linesRead).mapIdx fun index line =>
    logLine (index + 1) line.dropCarriageReturn

def printedLines (verbose : Bool) (predefined : Definitions) (source : Glyphs) :
    List String :=
  let logged (lineNo : Nat) (text : Glyphs) : List String :=
    if verbose then [logLine lineNo text] else []
  (Assembly.start predefined).printedLines logged 0 source.lines

end Assembler
end ReversibleMips
