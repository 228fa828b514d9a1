import ReversibleMips.Expression.Eval
import ReversibleMips.Expression.Layout

/-!
# Execution

Executing statements one after another, and calling the functions that they define.  An
expression of a program is executed as the right side of an assignment to `rc`, and its
value is what `rc` holds in the end.
-/

namespace ReversibleMips
namespace Expression

inductive Flow where
  | next
  | leave
  | proceed
  | result (value : Value)

namespace Flow

def afterBody : Flow → ForInStep Flow
  | next | proceed => .yield next
  | leave => .done next
  | result value => .done (result value)

end Flow

/-- Give a target the result of an operator on what it holds and an expression.  What the
target consists of is evaluated only once. -/
def Tree.update (scope : Scope) (op : BinaryOp) : Tree → Tree → Action Unit
  | name word, body => do
      let value ← scope.value word
      scope.assign word (← Action.updated op value (← body.eval scope))
  | group target, body => target.update scope op body
  | index base key, body => do
      let base ← base.eval scope
      let key ← key.eval scope
      let value ← (← get).itemAt base key
      Action.setItem base key (← Action.updated op value (← body.eval scope))
  | member base word, body => do
      let value ← base.eval scope
      let _ ← orFail (← Action.memberOf? value (keyword word))
      let _ ← body.eval scope
      failure
  | _, _ => failure

namespace Statement

mutual

def execute (scope : Scope) : Statement → Action Flow
  | expression body => do
      let _ ← body.eval scope
      return .next
  | assign target body => do
      target.assign scope (← body.eval scope)
      return .next
  | update op target body => do
      target.update scope op body
      return .next
  | pass => return .next
  | leave => return .leave
  | proceed => return .proceed
  | result body => do return .result (← body.eval scope)
  | branch condition body otherwise => do
      let value ← condition.eval scope
      if (← get).holds value then executeAll scope body else executeAll scope otherwise
  | loop target source body => do
      Action.forEach (← source.eval scope) Flow.next fun _ item => do
        target.assign scope item
        return (← executeAll scope body).afterBody
  | define site word parameters body => do
      let defaults ← Tree.evalDefaults scope parameters
      let code : Code := ⟨site, word, parameters, body⟩
      scope.assign word (.function (← Action.identity) code defaults scope.frames)
      return .next
  | load _ | whileLoop _ _ => failure

def executeAll (scope : Scope) : List Statement → Action Flow
  | [] => return .next
  | statement :: rest => do
      match ← statement.execute scope with
      | .next => executeAll scope rest
      | flow => return flow

end

end Statement

namespace Parameter

def placedNames (parameters : List Parameter) : List String :=
  (parameters.takeWhile isOrdinary).filterMap name?

def isOthers : Parameter → Bool
  | others _ => true
  | _ => false

def isEntries : Parameter → Bool
  | entries _ => true
  | _ => false

/-- The arguments by name that single parameters get, and those that are left over.  None
may be passed twice. -/
def distribute (names : List (List UInt8)) (placed surplus : Named) :
    Named → Option (Named × Named)
  | [] => some (placed, surplus)
  | (word, value) :: rest =>
      if names.contains word then
        if (placed.lookup word).isSome then none
        else distribute names ((word, value) :: placed) surplus rest
      else if (surplus.lookup word).isSome then none
      else distribute names placed (surplus ++ [(word, value)]) rest

def values (placed : Named) (others entries : Value) :
    List Parameter → List Value → Option (List (String × Value))
  | [], _ => some []
  | required word :: rest, defaults => do
      let value ← placed.lookup (keyword word)
      return (word, value) :: (← values placed others entries rest defaults)
  | optional word _ :: rest, default :: defaults => do
      let value := (placed.lookup (keyword word)).getD default
      return (word, value) :: (← values placed others entries rest defaults)
  | optional _ _ :: _, [] => none
  | .others word :: rest, defaults => do
      return (word, others) :: (← values placed others entries rest defaults)
  | separator :: rest, defaults => values placed others entries rest defaults
  | .entries word :: rest, defaults => do
      return (word, entries) :: (← values placed others entries rest defaults)

end Parameter

def boundParameters (parameters : List Parameter) (defaults arguments : List Value)
    (named : Named) : Action (List (String × Value)) := do
  let places := Parameter.placedNames parameters
  let ordinary := (parameters.filter Parameter.isOrdinary).filterMap Parameter.name?
  let others := arguments.drop places.length
  if !others.isEmpty && !parameters.any Parameter.isOthers then failure
  let (placed, surplus) ← orFail (Parameter.distribute (ordinary.map keyword)
    ((places.map keyword).zip arguments) [] named)
  if !surplus.isEmpty && !parameters.any Parameter.isEntries then failure
  let address ← Action.allocate (.dict .empty)
  for (word, value) in surplus do
    Action.setEntry address (.ofBytes word) value
  orFail (Parameter.values placed (.tuple others.toArray) (.dict address) parameters defaults)

/-- Call a value.  A function cannot be called while it is executed, and the second
argument tells which are, by their sites.  The first is a bound for how deep calls are
nested. -/
def callWithin (defined : String → Option Int) : Nat → List Nat → Caller
  | 0, _, _, _, _ => failure
  | fuel + 1, active, called, arguments, named =>
      match called with
      | .builtin function => function.apply (callWithin defined fuel active) arguments named
      | .method _ receiver method => method.call receiver arguments named
      | .function _ code defaults frames => do
          if active.contains code.site then failure
          let frame : Frame :=
            ⟨← Action.identity, code.site, .ofList (ownNames code.parameters code.body)⟩
          let scope : Scope :=
            ⟨defined, callWithin defined fuel (code.site :: active), frame :: frames⟩
          for (word, value) in ← boundParameters code.parameters defaults arguments named do
            scope.assign word value
          match ← Statement.executeAll scope code.body with
          | .result value => return value
          | _ => return .none
      | _ => failure

def resultName : String := "rc"

def outermost (names : List String) : Frame := ⟨0, 0, .ofList names⟩

structure Execution where
  /-- The value of a name in the end, if it has one, or why it did not come that far. -/
  value : Except Failure (Option Value)
  printed : Array ByteArray

namespace Statement

/-- Resolve statements and execute them, and find the value of a name in the end.  The first
argument is a bound for how deep calls are nested. -/
def run (fuel : Nat) (defined : String → Option Int) (statements : List Statement)
    (word : String) : Execution :=
  let names := statements.flatMap fun statement =>
    statement.assignedNames ++ statement.loadedNames
  if !(bindsOnce ∅ ∅ (statements.flatMap boundNames) &&
      resolvesAll ⟨defined, .ofList names⟩ .nothing statements) then
    ⟨.error .undefined, #[]⟩
  else
    let scope : Scope := ⟨defined, callWithin defined fuel [], [outermost names]⟩
    let (flow, heap) := executeAll scope statements Heap.empty
    { value := flow.map fun _ =>
        (scope.owned? word).bind fun place => heap.bindings.get? place
      printed := heap.printed }

end Statement

/-- What is defined of the names that a text has in it.  No other name is asked for when the
text is executed. -/
def mentioned (text : List Char) (defined : String → Option Int) (name : String) : Option Int :=
  (defined name).filter fun _ => Text.hasPart name.toList text

/-- Execute a text as the right side of an assignment to `rc`.  A text that starts with an
equals sign makes a comparison of the assignment, which gives no value.  Every call that is
nested in another takes a function that the text has or a method or function that it names,
so that its length bounds how many there are. -/
def Execution.ofText (defined : String → Option Int) (text : List Char) : Execution :=
  let assignment := resultName.toList ++ '=' :: text ++ ['\n']
  match Statement.ofText? assignment with
  | none => ⟨.error .malformed, #[]⟩
  | some statements =>
      Statement.run (3 * (text.length + 1)) (mentioned assignment defined) statements resultName

def assignedValue (defined : String → Option Int) (text : List Char) :
    Except Failure (Option Value) :=
  (Execution.ofText defined text).value

end Expression
end ReversibleMips
