import ReversibleMips.Expression.Library

/-!
# Names and their meaning

Names are resolved before anything is executed, also in branches that are never reached.
A name that a function assigns belongs to the function, in all of its statements, and the
loops of a list or dictionary have names of their own.  Outside of functions a name is
assigned only once.  Any other name means what the program has defined it as, or else one
of the constants and functions that are always known.
-/

namespace ReversibleMips
namespace Expression

def constants : List (String × Value) :=
  [("None", .none), ("True", .bool true), ("False", .bool false)] ++
    Builtin.table.map fun (name, function) => (name, .builtin function)

namespace Passing

/-- An argument may stand before another: positional arguments come first, then those
with keywords, which differ, then one sequence and one mapping. -/
def mayPrecede : Passing → Passing → Bool
  | positional, _ => true
  | keyword first, keyword second => first ≠ second
  | keyword _, spread | keyword _, entries | spread, entries => true
  | _, _ => false

def isKeyword : Passing → Bool
  | keyword _ => true
  | _ => false

end Passing

def maxArguments : Nat := 255

def argumentsFit (passing : List Passing) : Bool :=
  passing.countP (· = .positional) ≤ maxArguments &&
    passing.countP Passing.isKeyword ≤ maxArguments &&
    decide (passing.Pairwise fun first second => first.mayPrecede second)

/-- How far the parameters of a function have been read. -/
inductive ParameterStage where
  | required
  | optional
  | byName
  | ended
deriving DecidableEq

namespace Parameter

def name? : Parameter → Option String
  | required name | optional name _ | others name | entries name => some name
  | separator => none

def isOrdinary : Parameter → Bool
  | required _ | optional _ _ => true
  | _ => false

/-- Parameters are in order.  Some parameter follows the mark behind which they are passed
by their names. -/
def inOrder : ParameterStage → List Parameter → Bool
  | _, [] => true
  | .ended, _ :: _ => false
  | stage, required _ :: rest => stage ≠ .optional && inOrder stage rest
  | .byName, optional _ _ :: rest => inOrder .byName rest
  | _, optional _ _ :: rest => inOrder .optional rest
  | stage, others _ :: rest => stage ≠ .byName && inOrder .byName rest
  | stage, separator :: rest =>
      stage ≠ .byName && rest.head?.any isOrdinary && inOrder .byName rest
  | _, entries _ :: rest => inOrder .ended rest

end Parameter

def parametersFit (parameters : List Parameter) : Bool :=
  Parameter.inOrder .required parameters && (parameters.filterMap Parameter.name?).Nodup

namespace Tree

mutual

def targetNames : Tree → List String
  | name word => [word]
  | group target => target.targetNames
  | list targets => targetNamesAll targets
  | tuple targets => targetNamesAll targets
  | _ => []

def targetNamesAll : List Tree → List String
  | [] => []
  | target :: rest => target.targetNames ++ targetNamesAll rest

end

def isSeveral : Tree → Bool
  | group target => target.isSeveral
  | list _ | tuple _ => true
  | _ => false

end Tree

def Clause.namesOf (clauses : List Clause) : List String :=
  clauses.flatMap fun clause =>
    match clause with
    | each target _ => target.targetNames
    | only _ => []

namespace Statement

mutual

def assignedNames : Statement → List String
  | assign target _ => target.targetNames
  | update _ target _ => target.targetNames
  | branch _ body otherwise => namesOf body ++ namesOf otherwise
  | loop target _ body => target.targetNames ++ namesOf body
  | whileLoop _ body => namesOf body
  | define _ name _ _ => [name]
  | _ => []

def namesOf : List Statement → List String
  | [] => []
  | statement :: rest => statement.assignedNames ++ namesOf rest

end

def loadedNames : Statement → List String
  | load names => names.map Prod.snd
  | _ => []

end Statement

def ownNames (parameters : List Parameter) (body : List Statement) : List String :=
  parameters.filterMap Parameter.name? ++ Statement.namesOf body

structure Names where
  defined : String → Option Int
  assigned : Std.TreeSet String

namespace Names

def knows (names : Names) (name : String) : Bool :=
  names.assigned.contains name || (names.defined name).isSome || (constants.lookup name).isSome

def adding (names : Names) (more : List String) : Names :=
  { names with assigned := names.assigned.insertMany more }

end Names

namespace Tree

mutual

def resolves (names : Names) : Tree → Bool
  | absent | int _ | float _ | text _ | bytes _ => true
  | name word => names.knows word
  | list items => resolvesAll names items
  | tuple items => resolvesAll names items
  | dict entries => entriesResolve names entries
  | listOf _ item clauses =>
      let inner := names.adding (Clause.namesOf clauses)
      clausesResolve names inner clauses && item.resolves inner
  | dictOf _ entry clauses =>
      let inner := names.adding (Clause.namesOf clauses)
      clausesResolve names inner clauses && entryResolves inner entry
  | lambda _ parameters body =>
      parametersFit parameters && defaultsResolve names parameters &&
        body.resolves (names.adding (parameters.filterMap Parameter.name?))
  | group body => body.resolves names
  | unary _ operand => operand.resolves names
  | binary _ left right => left.resolves names && right.resolves names
  | sum runs => runsResolve names runs
  | conditional body condition otherwise =>
      body.resolves names && condition.resolves names && otherwise.resolves names
  | index base key => base.resolves names && key.resolves names
  | slice base first last step =>
      base.resolves names && first.resolves names && last.resolves names && step.resolves names
  | member base _ => base.resolves names
  | call function passing arguments =>
      function.resolves names && argumentsFit passing && resolvesAll names arguments

def resolvesAll (names : Names) : List Tree → Bool
  | [] => true
  | tree :: rest => tree.resolves names && resolvesAll names rest

def runsResolve (names : Names) : List (List Tree) → Bool
  | [] => true
  | run :: rest => resolvesAll names run && runsResolve names rest

def entryResolves (names : Names) : Entry → Bool
  | .entry key value => key.resolves names && value.resolves names

def entriesResolve (names : Names) : List Entry → Bool
  | [] => true
  | entry :: rest => entryResolves names entry && entriesResolve names rest

/-- All names of clauses have a meaning.  What the first loop goes through is not part of
what is repeated, so that it has the names from outside. -/
def clausesResolve (outer inner : Names) : List Clause → Bool
  | [] => true
  | clause :: rest => clauseResolves outer inner clause && clausesResolve inner inner rest

def clauseResolves (outer inner : Names) : Clause → Bool
  | .each target source => source.resolves outer && target.isTarget inner
  | .only condition => condition.resolves inner

def defaultsResolve (names : Names) : List Parameter → Bool
  | [] => true
  | parameter :: rest => defaultResolves names parameter && defaultsResolve names rest

def defaultResolves (names : Names) : Parameter → Bool
  | .optional _ otherwise => otherwise.resolves names
  | _ => true

def isTarget (names : Names) : Tree → Bool
  | name _ => true
  | group target => target.isTarget names
  | list targets => areTargets names targets
  | tuple targets => areTargets names targets
  | index base key => base.resolves names && key.resolves names
  | member base _ => base.resolves names
  | _ => false

def areTargets (names : Names) : List Tree → Bool
  | [] => true
  | target :: rest => target.isTarget names && areTargets names rest

end

end Tree

inductive Surrounding where
  | nothing
  | function (loop : Bool)
deriving DecidableEq

namespace Surrounding

def inLoop : Surrounding → Bool
  | function loop => loop
  | nothing => false

end Surrounding

def isLoadable (name : String) : Bool := !name.isEmpty && !name.startsWith "_"

namespace Statement

mutual

def resolves (names : Names) (around : Surrounding) : Statement → Bool
  | expression body => body.resolves names
  | assign target body => body.resolves names && target.isTarget names
  | update _ target body =>
      body.resolves names && target.isTarget names && !target.isSeveral
  | pass => true
  | leave | proceed => around.inLoop
  | result body => around ≠ .nothing && body.resolves names
  | load loaded => around = .nothing && loaded.all fun (source, _) => isLoadable source
  | branch condition body otherwise =>
      around ≠ .nothing && condition.resolves names && resolvesAll names around body &&
        resolvesAll names around otherwise
  | loop target source body =>
      around ≠ .nothing && source.resolves names && target.isTarget names &&
        resolvesAll names (.function true) body
  | whileLoop _ _ => false
  | define _ _ parameters body =>
      parametersFit parameters && Tree.defaultsResolve names parameters &&
        resolvesAll (names.adding (ownNames parameters body)) (.function false) body

def resolvesAll (names : Names) (around : Surrounding) : List Statement → Bool
  | [] => true
  | statement :: rest =>
      statement.resolves names around && resolvesAll names around rest

end

/-- The names that statements outside of functions assign or load are new.  A name that is
loaded may have been assigned before. -/
def bindsOnce (assigned loaded : Std.TreeSet String) : List (Bool × String) → Bool
  | [] => true
  | (true, name) :: rest =>
      !loaded.contains name && bindsOnce assigned (loaded.insert name) rest
  | (false, name) :: rest =>
      !assigned.contains name && !loaded.contains name &&
        bindsOnce (assigned.insert name) loaded rest

def boundNames (statement : Statement) : List (Bool × String) :=
  statement.assignedNames.map (false, ·) ++ statement.loadedNames.map (true, ·)

end Statement
end Expression
end ReversibleMips
