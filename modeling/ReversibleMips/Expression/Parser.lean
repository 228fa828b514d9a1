import ReversibleMips.Expression.Token

/-!
# Parsing a line

A line is read token by token.  What has been read but not finished stands on a stack:
operators that still lack an operand, and brackets that are still open.  A finished operand
closes every operator on the stack that binds tighter than what comes next.  Items between
commas wait on the stack in reverse.

A line is a simple statement, or the head of a statement that others belong to.  A colon
ends a head.
-/

namespace ReversibleMips
namespace Expression

inductive LineKind where
  | plain
  | assign (target : Tree)
  | update (op : BinaryOp) (target : Tree)
  | branch
  | alternative
  | loop (target : Tree)
  | whileLoop

def LineKind.admitsTuple : LineKind → Bool
  | branch | alternative | whileLoop => false
  | _ => true

inductive Head where
  | branch (condition : Tree)
  | alternative (condition : Tree)
  | otherwise
  | loop (target source : Tree)
  | whileLoop (condition : Tree)
  | define (site : Nat) (name : String) (parameters : List Parameter)

inductive Made where
  | item (item : Tree)
  | entry (entry : Entry)

/-- A list or dictionary that loops make, with the clauses read so far in reverse. -/
structure Comprehension where
  site : Nat
  made : Made
  clauses : List Clause

namespace Comprehension

def add (comprehension : Comprehension) (clause : Clause) : Comprehension :=
  { comprehension with clauses := clause :: comprehension.clauses }

def tree (comprehension : Comprehension) : Tree :=
  match comprehension.made with
  | .item item => .listOf comprehension.site item comprehension.clauses.reverse
  | .entry entry => .dictOf comprehension.site entry comprehension.clauses.reverse

end Comprehension

inductive Signature where
  /-- A function without a name.  The flag tells that its body may be a conditional
  expression. -/
  | lambda (site : Nat) (conditional : Bool)
  | define (site : Nat) (name : String)

/-- Something that has been begun and not yet finished. -/
inductive Pending where
  | unary (op : UnaryOp)
  | binary (op : BinaryOp) (left : Tree)
  | condition (body : Tree)
  | alternative (body condition : Tree)
  | lambda (site : Nat) (parameters : List Parameter) (conditional : Bool)
  | parameter (signature : Signature) (before : List Parameter) (name : String)
  | paren (items : List Tree)
  | list (items : List Tree)
  | key (entries : List Entry)
  | value (entries : List Entry) (key : Tree)
  | index (base : Tree) (items : List Tree)
  | slice (base : Tree) (bounds : List Tree)
  | call (function : Tree) (passing : List Passing) (arguments : List Tree) (next : Passing)
  /-- A loop waits for a target.  It is part of a comprehension, or else a statement. -/
  | targets (within : Option Comprehension) (items : List Tree)
  | source (comprehension : Comprehension) (target : Tree)
  | filter (comprehension : Comprehension)
  | line (kind : LineKind) (items : List Tree)

namespace Pending

/-- How tight something on the stack binds what follows it.  Brackets do not bind at
all, nor does a conditional expression that lacks its condition. -/
def level : Pending → Option Nat
  | unary op => some op.level
  | binary op _ => some op.level
  | alternative _ _ | lambda _ _ _ => some 0
  | _ => none

def complete (pending : Pending) (operand : Tree) : Tree :=
  match pending with
  | unary op => .unary op operand
  | binary .add left => left.plus operand
  | binary op left => .binary op left operand
  | alternative body test => .conditional body test operand
  | lambda site parameters _ => .lambda site parameters operand
  | _ => operand

def isTargets : Pending → Bool
  | targets _ _ => true
  | _ => false

def admitsNegation (pending : Pending) : Bool :=
  match pending.level with
  | some level => level ≤ negationLevel
  | none => !pending.isTargets

/-- A function may stand as the operand that is waited for.  The result tells whether its
body may be a conditional expression. -/
def admitsLambda? : Pending → Option Bool
  | unary _ | binary _ _ | condition _ | targets _ _ | source _ _ => none
  | filter _ => some false
  | lambda _ _ conditional => some conditional
  | _ => some true

def isComparison : Pending → Bool
  | binary op _ => op.level = comparisonLevel
  | _ => false

end Pending

inductive ParseState where
  | operand (stack : List Pending)
  | operator (stack : List Pending) (value : Tree)
  | member (stack : List Pending) (base : Tree)
  | parameter (stack : List Pending) (signature : Signature) (before : List Parameter)
  /-- A name may come next, for what is passed by place beyond the parameters. -/
  | othersByPlace (stack : List Pending) (signature : Signature) (before : List Parameter)
  | othersByName (stack : List Pending) (signature : Signature) (before : List Parameter)
  | named (stack : List Pending) (signature : Signature) (before : List Parameter)
      (name : String)
  | behind (stack : List Pending) (signature : Signature) (parameters : List Parameter)
  | closed (head : Head)
  | headed (head : Head)

namespace ParseState

def close (level : Nat) : List Pending → Tree → List Pending × Tree
  | [], value => ([], value)
  | pending :: stack, value =>
      match pending.level with
      | none => (pending :: stack, value)
      | some tightness =>
          if level ≤ tightness then close level stack (pending.complete value)
          else (pending :: stack, value)

/-- One item stands for itself, and several make a tuple.  Those before the last come in
reverse. -/
def tupleOf (items : List Tree) (last : Tree) : Tree :=
  if items.isEmpty then last else .tuple (last :: items).reverse

def sliceOf (base : Tree) (bounds : List Tree) : Tree :=
  .slice base (bounds.getD 0 .absent) (bounds.getD 1 .absent) (bounds.getD 2 .absent)

def lambdaStep (site : Nat) (stack : List Pending) : Option ParseState :=
  (stack.head?.bind Pending.admitsLambda?).map fun conditional =>
    parameter stack (.lambda site conditional) []

def operandStep (stack : List Pending) (token : Token) : Option ParseState :=
  match token, stack with
  | .int value, stack => some (operator stack (.int value))
  | .float value, stack => some (operator stack (.float value))
  | .text bytes, stack => some (operator stack (.text bytes))
  | .bytes bytes, stack => some (operator stack (.bytes bytes))
  | .name name, stack => some (operator stack (.name name))
  | .plus, stack => some (operand (.unary .positive :: stack))
  | .minus, stack => some (operand (.unary .negate :: stack))
  | .tilde, stack => some (operand (.unary .complement :: stack))
  | .logicalNot, pending :: stack =>
      if pending.admitsNegation then
        some (operand (.unary .logicalNot :: pending :: stack))
      else
        none
  | .lambdaWord site, stack => lambdaStep site stack
  | .openParen, stack => some (operand (.paren [] :: stack))
  | .openBracket, stack => some (operand (.list [] :: stack))
  | .openBrace, stack => some (operand (.key [] :: stack))
  | .closeParen, .paren items :: stack => some (operator stack (.group (.tuple items.reverse)))
  | .closeParen, .call function passing arguments .positional :: stack =>
      some (operator stack (.call function passing.reverse arguments.reverse))
  | .binary .mul, .call function passing arguments .positional :: stack =>
      some (operand (.call function passing arguments .spread :: stack))
  | .doubleStar, .call function passing arguments .positional :: stack =>
      some (operand (.call function passing arguments .entries :: stack))
  | .closeBracket, .list items :: stack => some (operator stack (.list items.reverse))
  | .closeBrace, .key entries :: stack => some (operator stack (.dict entries.reverse))
  | .colon, .index base [] :: stack => some (operand (.slice base [.absent] :: stack))
  | .colon, .slice base [first] :: stack =>
      some (operand (.slice base [first, .absent] :: stack))
  | .closeBracket, .slice base bounds :: stack => some (operator stack (sliceOf base bounds))
  | _, _ => none

def commaStep (stack : List Pending) (value : Tree) : Option ParseState :=
  match close 0 stack value with
  | (.paren items :: stack, item) => some (operand (.paren (item :: items) :: stack))
  | (.list items :: stack, item) => some (operand (.list (item :: items) :: stack))
  | (.value entries key :: stack, item) =>
      some (operand (.key (.entry key item :: entries) :: stack))
  | (.index base items :: stack, item) =>
      some (operand (.index base (item :: items) :: stack))
  | (.call function passing arguments next :: stack, item) =>
      some (operand (.call function (next :: passing) (item :: arguments) .positional :: stack))
  | (.parameter signature before name :: stack, item) =>
      some (parameter stack signature (.optional name item :: before))
  | (.targets within items :: stack, item) =>
      some (operand (.targets within (item :: items) :: stack))
  | (.line kind items :: stack, item) =>
      if kind.admitsTuple then some (operand (.line kind (item :: items) :: stack)) else none
  | _ => none

def headOf? (kind : LineKind) (body : Tree) : Option Head :=
  match kind with
  | .branch => some (.branch body)
  | .alternative => some (.alternative body)
  | .loop target => some (.loop target body)
  | .whileLoop => some (.whileLoop body)
  | _ => none

/-- The parameters of a function end.  Those read come in reverse. -/
def endParameters (stack : List Pending) (signature : Signature)
    (parameters : List Parameter) (token : Token) : Option ParseState :=
  match signature, token with
  | .lambda site conditional, .colon =>
      some (operand (.lambda site parameters.reverse conditional :: stack))
  | .define site name, .closeParen => some (closed (.define site name parameters.reverse))
  | _, _ => none

def colonStep (stack : List Pending) (value : Tree) : Option ParseState :=
  match close 0 stack value with
  | (.index base items :: stack, item) =>
      some (operand (.slice base [tupleOf items item] :: stack))
  | (.slice base [first] :: stack, item) => some (operand (.slice base [first, item] :: stack))
  | (.key entries :: stack, item) => some (operand (.value entries item :: stack))
  | (.parameter signature before name :: stack, item) =>
      endParameters stack signature (.optional name item :: before) .colon
  | ([.line kind items], item) => (headOf? kind (tupleOf items item)).map headed
  | _ => none

def closeParenStep (stack : List Pending) (value : Tree) : Option ParseState :=
  match close 0 stack value with
  | (.paren items :: stack, item) => some (operator stack (.group (tupleOf items item)))
  | (.call function passing arguments next :: stack, item) =>
      some
        (operator stack
          (.call function (next :: passing).reverse (item :: arguments).reverse))
  | (.parameter signature before name :: stack, item) =>
      endParameters stack signature (.optional name item :: before) .closeParen
  | _ => none

def comprehension? (stack : List Pending) (value : Tree) :
    Option (Comprehension × List Pending) :=
  match close 0 stack value with
  | (.source comprehension target :: stack, item) =>
      some (comprehension.add (.each target item), stack)
  | (.filter comprehension :: stack, item) => some (comprehension.add (.only item), stack)
  | _ => none

def closeBracketStep (stack : List Pending) (value : Tree) : Option ParseState :=
  match close 0 stack value with
  | (.list items :: stack, item) => some (operator stack (.list (item :: items).reverse))
  | (.index base items :: stack, item) =>
      some (operator stack (.index base (tupleOf items item)))
  | (.slice base bounds :: stack, item) =>
      some (operator stack (sliceOf base (bounds ++ [item])))
  | _ =>
      match comprehension? stack value with
      | some (⟨site, .item item, clauses⟩, stack) =>
          some (operator stack (Comprehension.tree ⟨site, .item item, clauses⟩))
      | _ => none

def closeBraceStep (stack : List Pending) (value : Tree) : Option ParseState :=
  match close 0 stack value with
  | (.value entries key :: stack, item) =>
      some (operator stack (.dict (.entry key item :: entries).reverse))
  | _ =>
      match comprehension? stack value with
      | some (⟨site, .entry entry, clauses⟩, stack) =>
          some (operator stack (Comprehension.tree ⟨site, .entry entry, clauses⟩))
      | _ => none

def forStep (site : Nat) (stack : List Pending) (value : Tree) : Option ParseState :=
  match close 0 stack value with
  | (.list [] :: stack, item) =>
      some (operand (.targets (some ⟨site, .item item, []⟩) [] :: stack))
  | (.value [] key :: stack, item) =>
      some (operand (.targets (some ⟨site, .entry (.entry key item), []⟩) [] :: stack))
  | _ =>
      (comprehension? stack value).map fun (comprehension, stack) =>
        operand (.targets (some comprehension) [] :: stack)

/-- Read the word of a condition behind an operand: of a conditional expression, or of a
comprehension. -/
def ifStep (stack : List Pending) (value : Tree) : Option ParseState :=
  match close 1 stack value with
  | (.condition _ :: _, _) | (.targets _ _ :: _, _) => none
  | (.source _ _ :: _, _) | (.filter _ :: _, _) | (.lambda _ _ false :: _, _) =>
      (comprehension? stack value).map fun (comprehension, stack) =>
        operand (.filter comprehension :: stack)
  | (stack, body) => some (operand (.condition body :: stack))

def targetStep (kind : Tree → LineKind) (stack : List Pending) (value : Tree) :
    Option ParseState :=
  match close 0 stack value with
  | ([.line .plain items], item) =>
      some (operand [.line (kind (tupleOf items item)) []])
  | _ => none

/-- Read an equals sign behind an operand: the keyword of an argument, or the target
of the line. -/
def assignStep (stack : List Pending) (value : Tree) : Option ParseState :=
  match stack, value with
  | .call function passing arguments .positional :: stack, .name keyword =>
      some (operand (.call function passing arguments (.keyword keyword) :: stack))
  | stack, value => targetStep .assign stack value

def inStep (within : Option Comprehension) (stack : List Pending) (target : Tree) :
    ParseState :=
  match within with
  | some comprehension => operand (.source comprehension target :: stack)
  | none => operand (.line (.loop target) [] :: stack)

/-- Read a binary operator behind an operand.  Comparisons do not associate. -/
def binaryStep (op : BinaryOp) (stack : List Pending) (value : Tree) : Option ParseState :=
  let level := if op.level = comparisonLevel then comparisonLevel + 1 else op.level
  match close level stack value with
  | (.targets within items :: stack, item) =>
      if op = .isIn then some (inStep within stack (tupleOf items item)) else none
  | (stack, left) =>
      if op.level = comparisonLevel && stack.head?.any Pending.isComparison then none
      else some (operand (.binary op left :: stack))

def operatorStep (stack : List Pending) (value : Tree) (token : Token) : Option ParseState :=
  match token with
  | .openParen => some (operand (.call value [] [] .positional :: stack))
  | .openBracket => some (operand (.index value [] :: stack))
  | .dot => some (member stack value)
  | .plus => binaryStep .add stack value
  | .minus => binaryStep .sub stack value
  | .binary op => binaryStep op stack value
  | .ifWord => ifStep stack value
  | .elseWord =>
      match close 1 stack value with
      | (.condition body :: stack, condition) =>
          some (operand (.alternative body condition :: stack))
      | _ => none
  | .forWord site => forStep site stack value
  | .comma => commaStep stack value
  | .closeParen => closeParenStep stack value
  | .closeBracket => closeBracketStep stack value
  | .closeBrace => closeBraceStep stack value
  | .colon => colonStep stack value
  | .assign => assignStep stack value
  | .update op => targetStep (.update op) stack value
  | _ => none

/-- Read a token where a parameter is expected.  The parameters between parentheses may end
with a comma. -/
def parameterStep (stack : List Pending) (signature : Signature) (before : List Parameter)
    (token : Token) : Option ParseState :=
  match token with
  | .name name => some (named stack signature before name)
  | .binary .mul => some (othersByPlace stack signature before)
  | .doubleStar => some (othersByName stack signature before)
  | .colon => if before.isEmpty then endParameters stack signature before token else none
  | token => endParameters stack signature before token

def behindStep (stack : List Pending) (signature : Signature) (parameters : List Parameter)
    (token : Token) : Option ParseState :=
  match token with
  | .comma => some (parameter stack signature parameters)
  | token => endParameters stack signature parameters token

def step (token : Token) : ParseState → Option ParseState
  | operand stack => operandStep stack token
  | operator stack value => operatorStep stack value token
  | member stack base =>
      match token with
      | .name name => some (operator stack (.member base name))
      | _ => none
  | parameter stack signature before => parameterStep stack signature before token
  | othersByPlace stack signature before =>
      match token with
      | .name name => some (behind stack signature (.others name :: before))
      | token => behindStep stack signature (.separator :: before) token
  | othersByName stack signature before =>
      match token with
      | .name name => some (behind stack signature (.entries name :: before))
      | _ => none
  | named stack signature before name =>
      match token with
      | .assign => some (operand (.parameter signature before name :: stack))
      | token => behindStep stack signature (.required name :: before) token
  | behind stack signature parameters => behindStep stack signature parameters token
  | closed head =>
      match token with
      | .colon => some (headed head)
      | _ => none
  | headed _ => none

def run : List Token → ParseState → Option ParseState
  | [], state => some state
  | token :: rest, state =>
      match state.step token with
      | none => none
      | some state => run rest state

def finish : ParseState → Option Statement
  | operator stack value =>
      match close 0 stack value with
      | ([.line kind items], item) =>
          let body := tupleOf items item
          match kind with
          | .plain => some (.expression body)
          | .assign target => some (.assign target body)
          | .update op target => some (.update op target body)
          | _ => none
      | _ => none
  | _ => none

/-- Read a head up to its colon.  The result has the tokens behind it. -/
def runHead : List Token → ParseState → Option (Head × List Token)
  | rest, headed head => some (head, rest)
  | [], _ => none
  | token :: rest, state =>
      match state.step token with
      | none => none
      | some state => runHead rest state

end ParseState

namespace Statement

def basic? (tokens : List Token) : Option Statement :=
  (ParseState.run tokens (.operand [.line .plain []])).bind ParseState.finish

def textOf (bytes : List UInt8) : String :=
  (String.fromUTF8? ⟨bytes.toArray⟩).getD ""

/-- The names that are loaded, behind those already read, which come in reverse.  There is
at least one, and a comma may stand behind the last. -/
def loaded? (names : List (String × String)) : List Token → Option (List (String × String))
  | [.closeParen] | [.comma, .closeParen] =>
      if names.isEmpty then none else some names.reverse
  | .comma :: .text source :: rest =>
      loaded? ((textOf source, textOf source) :: names) rest
  | .comma :: .name name :: .assign :: .text source :: rest =>
      loaded? ((textOf source, name) :: names) rest
  | _ => none

def simple? : List Token → Option Statement
  | [.passWord] => some .pass
  | [.breakWord] => some .leave
  | [.continueWord] => some .proceed
  | [.returnWord] => some (.result .absent)
  | .returnWord :: tokens =>
      match basic? tokens with
      | some (.expression body) => some (.result body)
      | _ => none
  | .loadWord :: .openParen :: .text _ :: tokens => (loaded? [] tokens).map load
  | tokens => basic? tokens

end Statement

inductive LineContent where
  | blank
  | simple (statement : Statement)
  | header (head : Head) (inline : Option Statement)

namespace LineContent

def ofHead? (head : Head) (rest : List Token) : Option LineContent :=
  if rest.isEmpty then some (.header head none)
  else (Statement.simple? rest).map fun statement => .header head (some statement)

def ofState? (state : ParseState) (tokens : List Token) : Option LineContent :=
  (ParseState.runHead tokens state).bind fun (head, rest) => ofHead? head rest

def ofTokens? : List Token → Option LineContent
  | [] => some .blank
  | .ifWord :: rest => ofState? (.operand [.line .branch []]) rest
  | .elifWord :: rest => ofState? (.operand [.line .alternative []]) rest
  | .whileWord :: rest => ofState? (.operand [.line .whileLoop []]) rest
  | .forWord _ :: rest => ofState? (.operand [.targets none []]) rest
  | .defWord site :: .name name :: .openParen :: rest =>
      ofState? (.parameter [] (.define site name) []) rest
  | .elseWord :: .colon :: rest => ofHead? .otherwise rest
  | tokens => (Statement.simple? tokens).map .simple

end LineContent
end Expression
end ReversibleMips
