import ReversibleMips.Expression.Tree
import ReversibleMips.Text.Numeral

/-!
# Errors of a source

What can be wrong with a line of a source, and where it is wrong.
-/

namespace ReversibleMips
namespace Assembler

/-- What is wrong with a line. -/
inductive Fault where
  | equateSyntax
  | equateDuplicate
  | labelDuplicate
  | extraArguments
  | valueMissing
  | registerInvalid (word : String)
  | immediateRange (word : String)
  | instructionInvalid
  | labelMissing (label : String)
  | notNumber (word : String)
  | expression (failure : Expression.Failure)
  /-- An expression has a value that is no integer of sixty-four bits. -/
  | notInteger (text : String)
  | lineTooLong
  | unreadable (reason : String)
deriving DecidableEq

namespace Fault

def isFinal : Fault → Bool
  | expression (.misuse _) => true
  | _ => false

def message : Fault → String
  | equateSyntax => ".equ syntax"
  | equateDuplicate => ".equ duplicated"
  | labelDuplicate => "label duplicated"
  | extraArguments => "excessive arguments"
  | valueMissing => "value missing"
  | registerInvalid word => "register invalid: " ++ word
  | immediateRange word => "immediate out of range: " ++ word
  | instructionInvalid => "instruction invalid"
  | labelMissing label => "label " ++ label ++ " missing"
  | notNumber word => "'" ++ word ++ "' is not a number"
  | expression failure => failure.message
  | notInteger text => "$(" ++ text ++ ") is not a valid expression"
  | lineTooLong => "bufio.Scanner: token too long"
  | unreadable reason => reason

end Fault

/-- What is wrong with a source, and where. -/
structure SourceError where
  lineNo : Nat
  line : String
  fault : Fault
deriving DecidableEq

namespace SourceError

def message (error : SourceError) : String :=
  "line " ++ Text.grouped error.lineNo ++ " '" ++ error.line ++ "' " ++ error.fault.message

end SourceError
end Assembler
end ReversibleMips
