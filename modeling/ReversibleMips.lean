import ReversibleMips.Address
import ReversibleMips.Assembler.Assembly
import ReversibleMips.Assembler.Encode
import ReversibleMips.Assembler.Fault
import ReversibleMips.Assembler.Line
import ReversibleMips.Assembler.Operand
import ReversibleMips.Cell
import ReversibleMips.CommandLine.Directory
import ReversibleMips.CommandLine.Elements
import ReversibleMips.CommandLine.Flags
import ReversibleMips.CommandLine.Session
import ReversibleMips.Emulator.Basic
import ReversibleMips.Emulator.Load
import ReversibleMips.Emulator.Step
import ReversibleMips.Emulator.Stepper
import ReversibleMips.Emulator.Undo
import ReversibleMips.Expression.Binary64
import ReversibleMips.Expression.CollectionMethod
import ReversibleMips.Expression.Comparison
import ReversibleMips.Expression.Conversion
import ReversibleMips.Expression.Decimal
import ReversibleMips.Expression.Dict
import ReversibleMips.Expression.Digest
import ReversibleMips.Expression.Eval
import ReversibleMips.Expression.Execution
import ReversibleMips.Expression.Heap
import ReversibleMips.Expression.Integer
import ReversibleMips.Expression.Interpolation
import ReversibleMips.Expression.Key
import ReversibleMips.Expression.Layout
import ReversibleMips.Expression.Library
import ReversibleMips.Expression.Operation
import ReversibleMips.Expression.Parser
import ReversibleMips.Expression.Scope
import ReversibleMips.Expression.Shown
import ReversibleMips.Expression.TextMethod
import ReversibleMips.Expression.Token
import ReversibleMips.Expression.Tree
import ReversibleMips.Expression.Value
import ReversibleMips.Instruction
import ReversibleMips.Journal
import ReversibleMips.Machine.Basic
import ReversibleMips.Machine.Effect
import ReversibleMips.Machine.Interpreter
import ReversibleMips.Main
import ReversibleMips.Misuse
import ReversibleMips.Op
import ReversibleMips.Program
import ReversibleMips.Ram
import ReversibleMips.Register
import ReversibleMips.Registers
import ReversibleMips.Tape
import ReversibleMips.Text.Blank
import ReversibleMips.Text.DigitValue
import ReversibleMips.Text.Glyph
import ReversibleMips.Text.IntLiteral
import ReversibleMips.Text.Letter
import ReversibleMips.Text.LetterCase
import ReversibleMips.Text.Numeral
import ReversibleMips.Text.Piece
import ReversibleMips.Text.Printable
import ReversibleMips.Text.Quoted
import ReversibleMips.Text.Search
import ReversibleMips.Text.Utf8
import ReversibleMips.Traversal
import ReversibleMips.Word
import ReversibleMips.Proofs.AddressArithmetic
import ReversibleMips.Proofs.CoherentMemory
import ReversibleMips.Proofs.Loading
import ReversibleMips.Proofs.Reachability
import ReversibleMips.Proofs.CleanLoads
import ReversibleMips.Proofs.Reversal
import ReversibleMips.Proofs.PlainMachine
import ReversibleMips.Proofs.Refinement
import ReversibleMips.Proofs.Encoding
import ReversibleMips.Proofs.Numerals
import ReversibleMips.Proofs.SourceLines
import ReversibleMips.Proofs.Operands
import ReversibleMips.Proofs.Disassembly
import ReversibleMips.Proofs.FailingSteps
import ReversibleMips.Proofs.FirstPass
import ReversibleMips.Proofs.Linking
import ReversibleMips.Proofs.LabelledPrograms
import ReversibleMips.Proofs.AgreeingEquates
import ReversibleMips.Proofs.ParallelReading
import ReversibleMips.Proofs.InstructionSet
import ReversibleMips.Proofs.DisjointShapes
import ReversibleMips.Proofs.KeptInstructions
import ReversibleMips.Proofs.KeyPresses
import ReversibleMips.Proofs.Listening
import ReversibleMips.Proofs.TapeAccess
import ReversibleMips.Proofs.TapeAccounts
import ReversibleMips.Proofs.TapeTraffic
import ReversibleMips.Proofs.Execution
import ReversibleMips.Proofs.ArraySum
import ReversibleMips.Proofs.Echo
import ReversibleMips.Proofs.WrittenOperands
import ReversibleMips.Proofs.WrittenInstructions
import ReversibleMips.Proofs.MentionedWords
import ReversibleMips.Proofs.Relocation
import ReversibleMips.Proofs.ReplacedOperands
import ReversibleMips.Proofs.IntroducedNames
import ReversibleMips.Proofs.RegisterEquates
import ReversibleMips.Proofs.ArrayLoads
import ReversibleMips.Proofs.MultiplyDivide
import ReversibleMips.Proofs.FrameDeltas
import ReversibleMips.Proofs.CharacterLiterals
import ReversibleMips.Proofs.FormulaTokens
import ReversibleMips.Proofs.ExpressionLines
import ReversibleMips.Proofs.RangeChecks
import ReversibleMips.Proofs.WrappedArithmetic
import ReversibleMips.Proofs.EarliestFault
import ReversibleMips.Proofs.Listing
import ReversibleMips.Proofs.MachineDump
import ReversibleMips.Proofs.TapeCalls
import ReversibleMips.Proofs.BareExecution
import ReversibleMips.Proofs.ElementLists
import ReversibleMips.Proofs.WellFormedMachines
