/-!
# The tape

The tape carries the program's input and output, one byte at a time.  Its input
is whatever successive reads of a source deliver, and its output goes to a sink
that may refuse a byte.  The tape counts the bytes that have passed since it was
last rewound; the bytes themselves never come back.
-/

namespace ReversibleMips

/-- What a single read of the source of the input delivers. -/
inductive Delivery where
  | empty
  | byte (value : UInt8)
  | failure
  | byteAndFailure (value : UInt8)
deriving DecidableEq

/-- Why a byte cannot be written. -/
inductive TapeError where
  | closed
  | refused (reason : String)
deriving DecidableEq

namespace TapeError

/-- What is reported of a byte that cannot be written. -/
def message : TapeError → String
  | closed => "channel has no output"
  | refused reason => "channel has no output\n" ++ reason

end TapeError

/-- Where the output of a tape goes.  Whoever attached it may change what it still accepts
between two writes. -/
structure Sink where
  bytes : Array UInt8
  limit : Option Nat
  refusal : String
  carriageReturns : Bool
deriving DecidableEq

namespace Sink

def unlimited : Sink :=
  { bytes := #[], limit := none, refusal := "", carriageReturns := false }

instance : Inhabited Sink := ⟨unlimited⟩

def stored (sink : Sink) (value : UInt8) : List UInt8 :=
  if sink.carriageReturns ∧ value = 0x0a then [0x0d, 0x0a] else [value]

def hasRoom (sink : Sink) (count : Nat) : Bool :=
  match sink.limit with
  | none => true
  | some limit => sink.bytes.size + count ≤ limit

/-- The sink after it has accepted a byte, unless it refuses it. -/
def accept (sink : Sink) (value : UInt8) : Except TapeError Sink :=
  let stored := sink.stored value
  if sink.hasRoom stored.length then
    .ok { sink with bytes := sink.bytes ++ stored }
  else
    .error (.refused sink.refusal)

end Sink

/-- The input and output of a program. -/
structure Tape where
  /-- What the reads to come deliver, after which the input has ended; a tape
  without input reads as ended too. -/
  input : Option (List Delivery)
  output : Option Sink
  bytesRead : Nat
  bytesWritten : Nat
deriving DecidableEq

namespace Tape

/-- A tape with neither input nor output. -/
def detached : Tape :=
  { input := none, output := none, bytesRead := 0, bytesWritten := 0 }

instance : Inhabited Tape := ⟨detached⟩

/-- How many reads without a byte are tolerated. -/
def maxEmptyReads : Nat := 100

def inputOfBytes (bytes : List UInt8) : List Delivery := bytes.map .byte

/-- The counters start again.  The input and the output stay where they are. -/
def rewind (tape : Tape) : Tape :=
  { tape with bytesRead := 0, bytesWritten := 0 }

/-- Read a source up to a number of times, until it delivers a byte or fails. -/
def nextByte : Nat → List Delivery → Option UInt8 × List Delivery
  | 0, source => (none, source)
  | _ + 1, [] => (none, [])
  | attempts + 1, .empty :: source => nextByte attempts source
  | _ + 1, .failure :: source => (none, source)
  | _ + 1, .byte value :: source => (some value, source)
  | _ + 1, .byteAndFailure value :: source => (some value, source)

/-- The next byte of the input, or nothing at its end. -/
def read (tape : Tape) : Option UInt8 × Tape :=
  match tape.input with
  | none => (none, tape)
  | some source =>
      match nextByte maxEmptyReads source with
      | (none, rest) => (none, { tape with input := some rest })
      | (some value, rest) =>
          (some value, { tape with input := some rest, bytesRead := tape.bytesRead + 1 })

def write : Tape → UInt8 → Except TapeError Tape
  | ⟨_, none, _, _⟩, _ => .error .closed
  | ⟨input, some sink, bytesRead, bytesWritten⟩, value =>
      (sink.accept value).map fun sink => ⟨input, some sink, bytesRead, bytesWritten + 1⟩

end Tape
end ReversibleMips
