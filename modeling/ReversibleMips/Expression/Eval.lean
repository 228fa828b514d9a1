import ReversibleMips.Expression.Scope

/-!
# Evaluation

The value of an expression whose names are resolved, and assigning values to targets.
-/

namespace ReversibleMips
namespace Expression

structure Scope where
  defined : String → Option Int
  call : Caller
  frames : List Frame

namespace Scope

def owned? (scope : Scope) (name : String) : Option Variable :=
  scope.frames.findSome? fun frame =>
    if frame.names.contains name then some ⟨frame.activation, frame.site, name⟩ else none

/-- The value of a name.  A name that is assigned has none before. -/
def value (scope : Scope) (name : String) : Action Value := do
  match scope.owned? name with
  | some place => orFail ((← get).bindings.get? place)
  | none =>
      match scope.defined name with
      | some value => return .int value
      | none => orFail (constants.lookup name)

def assign (scope : Scope) (name : String) (value : Value) : Action Unit := do
  let place ← orFail (scope.owned? name)
  modify fun heap => { heap with bindings := heap.bindings.insert place value }

def within (scope : Scope) (site : Nat) (names : List String) : Scope :=
  let activation := (scope.frames.head?.map Frame.activation).getD 0
  { scope with frames := ⟨activation, site, .ofList names⟩ :: scope.frames }

end Scope

def positionalArguments : List (Passing × Value) → Action (List Value)
  | [] => return []
  | (passing, value) :: rest => do
      let own ←
        match passing with
        | .positional => pure [value]
        | .spread => do pure (← Action.itemsOf value).toList
        | .keyword _ | .entries => pure []
      return own ++ (← positionalArguments rest)

def entriesAsNamed? (dict : Dict) : Option Named :=
  dict.toArray.toList.mapM fun (key, value) =>
    key.text?.map fun word => (word.toList, value)

def namedArguments : List (Passing × Value) → Action Named
  | [] => return []
  | (passing, value) :: rest => do
      let own ←
        match passing, value with
        | .keyword name, value => pure [(keyword name, value)]
        | .entries, .dict address => do orFail (entriesAsNamed? ((← get).dict address))
        | .entries, _ => failure
        | _, _ => pure []
      return own ++ (← namedArguments rest)

def applyTo (call : Caller) (function : Value) (arguments : List (Passing × Value)) :
    Action Value := do
  let named ← namedArguments arguments
  let positional ← positionalArguments arguments
  call function positional named

def unpacked (count : Nat) (value : Value) : Action (List Value) := do
  let items ← orFail ((← get).itemsOf? value)
  if items.count = count then return items.toArray.toList else failure

namespace Tree

mutual

def eval (scope : Scope) : Tree → Action Value
  | absent => return .none
  | int value => return .int value
  | float value => return .float value
  | text content => return .ofBytes content
  | bytes content => return .bytes ⟨content.toArray⟩
  | name word => scope.value word
  | list items => do Action.newList (← evalAll scope items).toArray
  | tuple items => do return .tuple (← evalAll scope items).toArray
  | dict entries => do
      let address ← Action.allocate (.dict .empty)
      evalEntries scope address entries
      return .dict address
  | listOf site item clauses => do
      let inner := scope.within site (Clause.namesOf clauses)
      let items ← repeatFor scope inner
        (fun items => do return items.push (← item.eval inner)) clauses (#[] : Array Value)
      Action.newList items
  | dictOf site entry clauses => do
      let inner := scope.within site (Clause.namesOf clauses)
      let address ← Action.allocate (.dict .empty)
      let _ ← repeatFor scope inner
        (fun made => do
          let (key, value) ← evalEntry inner entry
          Action.setEntry address key value
          return made) clauses #[]
      return .dict address
  | lambda site parameters body => do
      let defaults ← evalDefaults scope parameters
      return .function (← Action.identity) ⟨site, "lambda", parameters, [.result body]⟩ defaults
        scope.frames
  | group body => body.eval scope
  | unary op operand => do
      let value ← operand.eval scope
      (← get).unary op value
  | binary op left right => do
      let value ← left.eval scope
      if op = .and && !(← get).holds value then return value
      else if op = .or && (← get).holds value then return value
      else Action.binary op value (← right.eval scope)
  | sum runs => evalSum scope runs
  | conditional body condition otherwise => do
      let value ← condition.eval scope
      if (← get).holds value then body.eval scope else otherwise.eval scope
  | index base key => do
      let value ← base.eval scope
      let key ← key.eval scope
      (← get).itemAt value key
  | slice base first last step => do
      let value ← base.eval scope
      let first ← first.eval scope
      let last ← last.eval scope
      Action.slice value first last (← step.eval scope)
  | member base word => do
      let value ← base.eval scope
      orFail (← Action.memberOf? value (keyword word))
  | call function passing arguments => do
      let called ← function.eval scope
      applyTo scope.call called (passing.zip (← evalAll scope arguments))

def evalAll (scope : Scope) : List Tree → Action (List Value)
  | [] => return []
  | tree :: rest => do
      let value ← tree.eval scope
      return value :: (← evalAll scope rest)

def evalSum (scope : Scope) : List (List Tree) → Action Value
  | [] => failure
  | [run] => evalRun scope run
  | last :: before => do
      let total ← evalSum scope before
      Action.binary .add total (← evalRun scope last)

def evalRun (scope : Scope) : List Tree → Action Value
  | [] => failure
  | [tree] => tree.eval scope
  | last :: before => do
      let value ← evalRun scope before
      Action.joined value (← last.eval scope)

def evalEntry (scope : Scope) : Entry → Action (Value × Value)
  | .entry key value => do
      let key ← key.eval scope
      return (key, ← value.eval scope)

/-- Put entries into the dictionary at an address.  No key may occur twice. -/
def evalEntries (scope : Scope) (address : Nat) : List Entry → Action Unit
  | [] => return ()
  | entry :: rest => do
      let (key, value) ← evalEntry scope entry
      if (← ((← get).dict address).look key).isSome then failure
      Action.setEntry address key value
      evalEntries scope address rest

def evalDefaults (scope : Scope) : List Parameter → Action (List Value)
  | [] => return []
  | parameter :: rest => do
      let own ← evalDefault scope parameter
      return own ++ (← evalDefaults scope rest)

def evalDefault (scope : Scope) : Parameter → Action (List Value)
  | .optional _ otherwise => do return [← otherwise.eval scope]
  | _ => return []

/-- Do something in the loops that clauses make.  What the first loop goes through is not
repeated, so that it is evaluated with the names from outside. -/
def repeatFor (outer inner : Scope) (act : Array Value → Action (Array Value)) :
    List Clause → Array Value → Action (Array Value)
  | [], made => act made
  | clause :: rest, made => do
      repeatClause outer inner clause (fun made => repeatFor inner inner act rest made) made

def repeatClause (outer inner : Scope) :
    Clause → (Array Value → Action (Array Value)) → Array Value → Action (Array Value)
  | .each target source, act, made => do
      let value ← source.eval outer
      Action.forEach value made fun made item => do
        target.assign inner item
        return .yield (← act made)
  | .only condition, act, made => do
      let value ← condition.eval inner
      if (← get).holds value then act made else return made

/-- Assign a value to a target.  The members of a value cannot be assigned to. -/
def assign (scope : Scope) : Tree → Value → Action Unit
  | name word, value => scope.assign word value
  | group target, value => target.assign scope value
  | list targets, value => do assignAll scope targets (← unpacked targets.length value)
  | tuple targets, value => do assignAll scope targets (← unpacked targets.length value)
  | index base key, value => do
      let base ← base.eval scope
      Action.setItem base (← key.eval scope) value
  | member base _, _ => do
      let _ ← base.eval scope
      failure
  | _, _ => failure

def assignAll (scope : Scope) : List Tree → List Value → Action Unit
  | target :: targets, value :: values => do
      target.assign scope value
      assignAll scope targets values
  | _, _ => return ()

end

end Tree
end Expression
end ReversibleMips
