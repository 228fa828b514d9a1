import ReversibleMips.Misuse

/-!
# Expressions

The trees of the expressions that are evaluated while a program is assembled, and of
the statements that they stand in.  Operators have levels, and an operator of a higher
level binds tighter.
-/

namespace ReversibleMips
namespace Expression

inductive Failure where
  | malformed
  | undefined
  | evaluation
  /-- The expression asks for a sequence or a jump that cannot be. -/
  | misuse (misuse : Misuse)
deriving DecidableEq

namespace Failure

def message : Failure → String
  | malformed => "expression is malformed"
  | undefined => "expression has an undefined name"
  | evaluation => "expression cannot be evaluated"
  | misuse cause => cause.message

end Failure

inductive UnaryOp where
  | negate
  | positive
  | complement
  | logicalNot
deriving DecidableEq

inductive BinaryOp where
  | or
  | and
  | equal
  | notEqual
  | less
  | greater
  | lessEqual
  | greaterEqual
  | isIn
  | notIn
  | bitOr
  | bitXor
  | bitAnd
  | shiftLeft
  | shiftRight
  | add
  | sub
  | mul
  | divide
  | floorDivide
  | modulo
deriving DecidableEq

def negationLevel : Nat := 3

def comparisonLevel : Nat := 4

def UnaryOp.level : UnaryOp → Nat
  | logicalNot => negationLevel
  | negate | positive | complement => 11

def BinaryOp.level : BinaryOp → Nat
  | or => 1
  | and => 2
  | equal | notEqual | less | greater | lessEqual | greaterEqual | isIn | notIn =>
      comparisonLevel
  | bitOr => 5
  | bitXor => 6
  | bitAnd => 7
  | shiftLeft | shiftRight => 8
  | add | sub => 9
  | mul | divide | floorDivide | modulo => 10

inductive Passing where
  | positional
  | keyword (name : String)
  | spread
  | entries
deriving DecidableEq

mutual

/-- The tree of an expression.  A loop or a function in it has a site: a number that
nothing else of the text has. -/
inductive Tree where
  | absent
  | int (value : Nat)
  | float (value : Float)
  | text (bytes : List UInt8)
  | bytes (bytes : List UInt8)
  | name (name : String)
  | list (items : List Tree)
  | tuple (items : List Tree)
  | dict (entries : List Entry)
  | listOf (site : Nat) (item : Tree) (clauses : List Clause)
  | dictOf (site : Nat) (entry : Entry) (clauses : List Clause)
  | lambda (site : Nat) (parameters : List Parameter) (body : Tree)
  | group (body : Tree)
  | unary (op : UnaryOp) (operand : Tree)
  | binary (op : BinaryOp) (left right : Tree)
  /-- A sum.  Literals of the same kind that follow each other are a run, which is put together
  before anything is added.  Any other summand is a run of its own.  The last run comes first,
  and so does the last expression of a run. -/
  | sum (runs : List (List Tree))
  /-- The first expression if the second holds, and else the third. -/
  | conditional (body condition otherwise : Tree)
  | index (base key : Tree)
  | slice (base first last step : Tree)
  | member (base : Tree) (name : String)
  | call (function : Tree) (passing : List Passing) (arguments : List Tree)

inductive Entry where
  | entry (key value : Tree)

inductive Clause where
  | each (target source : Tree)
  | only (condition : Tree)

inductive Parameter where
  | required (name : String)
  | optional (name : String) (otherwise : Tree)
  /-- What is passed by place beyond the parameters before. -/
  | others (name : String)
  | separator
  | entries (name : String)

end

instance : Inhabited Tree := ⟨.absent⟩

namespace Tree

def ungrouped : Tree → Tree
  | group body => body.ungrouped
  | tree => tree

def sameLiteral : Tree → Tree → Bool
  | text _, text _ | bytes _, bytes _ | list _, list _ | tuple _, tuple _ => true
  | _, _ => false

def runs (tree : Tree) : List (List Tree) :=
  match tree.ungrouped with
  | sum runs => runs
  | single => [[single]]

/-- The sum of two expressions.  A sum on the left goes on with one more summand, which goes
on with the last run if it is a literal of the same kind. -/
def plus (left right : Tree) : Tree :=
  let last := right.ungrouped
  match left.runs with
  | (before :: run) :: rest =>
      if before.sameLiteral last then sum ((last :: before :: run) :: rest)
      else sum ([last] :: (before :: run) :: rest)
  | rest => sum ([last] :: rest)

end Tree

inductive Statement where
  | expression (body : Tree)
  | assign (target body : Tree)
  /-- A target gets the result of an operator on what it holds and an expression. -/
  | update (op : BinaryOp) (target body : Tree)
  | pass
  | leave
  | proceed
  | result (body : Tree)
  | load (names : List (String × String))
  | branch (condition : Tree) (body otherwise : List Statement)
  | loop (target source : Tree) (body : List Statement)
  | whileLoop (condition : Tree) (body : List Statement)
  | define (site : Nat) (name : String) (parameters : List Parameter) (body : List Statement)

end Expression
end ReversibleMips
