/-!
# Misuse

Calls that break what the simulator asks of its callers.  None of them can
arise from a program that runs; they need a caller that hands in an index, a
size or a record that does not exist, or a source that asks for a sequence that
cannot be.
-/

namespace ReversibleMips

/-- A call outside its contract. -/
inductive Misuse where
  | noSuchRegister (index : Int)
  | noOpenFrame
  | noSuchOp (code : Int)
  | sizeOutOfRange
  | capacityOutOfRange
  | noStep
deriving DecidableEq

namespace Misuse

def message : Misuse → String
  | noSuchRegister index =>
      "cpu: register " ++ toString index ++ " outside 0..33"
  | noOpenFrame => "cpu: journal record without an open frame"
  | noSuchOp code =>
      if code < 0 then
        "runtime error: index out of range [" ++ toString code ++ "]"
      else
        "runtime error: index out of range [" ++ toString code ++ "] with length 18"
  | sizeOutOfRange => "runtime error: makeslice: len out of range"
  | capacityOutOfRange => "runtime error: makeslice: cap out of range"
  | noStep => "rangeLen: zero step"

end Misuse

end ReversibleMips
