import ReversibleMips.Expression.Parser

/-!
# Statements by their layout

The statements that belong to a head stand behind it in its line, or in the lines below
that start further right.  All lines of a block start in the same column.  Lines are put
together one after another, with a stack of the blocks that are still open.
-/

namespace ReversibleMips
namespace Expression

structure Block where
  column : Nat
  head : Option Head
  statements : List Statement
  /-- The conditions read last, with their statements, to which there may be an alternative
  yet.  The latest comes first. -/
  chain : List (Tree × List Statement)

namespace Block

def chained : List (Tree × List Statement) → List Statement → List Statement
  | [], otherwise => otherwise
  | (condition, body) :: before, otherwise =>
      chained before [.branch condition body otherwise]

def settled (block : Block) (otherwise : List Statement) : Block :=
  { block with
    statements := chained block.chain otherwise ++ block.statements
    chain := [] }

def add (block : Block) (statement : Statement) : Block :=
  let block := block.settled []
  { block with statements := statement :: block.statements }

def addHead (block : Block) (head : Head) (body : List Statement) : Block :=
  match head with
  | .branch condition => { block.settled [] with chain := [(condition, body)] }
  | .alternative condition => { block with chain := (condition, body) :: block.chain }
  | .otherwise => block.settled body
  | .loop target source => block.add (.loop target source body)
  | .whileLoop condition => block.add (.whileLoop condition body)
  | .define site name parameters => block.add (.define site name parameters body)

def body (block : Block) : List Statement := (block.settled []).statements.reverse

/-- A head may stand in a block.  An alternative needs a condition before it. -/
def admits (block : Block) : Head → Bool
  | .alternative _ | .otherwise => !block.chain.isEmpty
  | _ => true

end Block

/-- The blocks that are open, the innermost first. -/
structure Layout where
  inner : Block
  outer : List Block
  waiting : Option Head

namespace Layout

def start : Layout := ⟨⟨0, none, [], []⟩, [], none⟩

/-- Close all blocks whose lines start right of a column.  The first argument is the
innermost block, the second has those around it. -/
def closeTo (column : Nat) : Block → List Block → Option Layout
  | inner, [] => if inner.column = column then some ⟨inner, [], none⟩ else none
  | inner, block :: outer =>
      if inner.column = column then some ⟨inner, block :: outer, none⟩
      else if inner.column < column then none
      else
        match inner.head with
        | some head => closeTo column (block.addHead head inner.body) outer
        | none => none

def enter? (layout : Layout) (column : Nat) : Option Layout :=
  match layout.waiting with
  | none => closeTo column layout.inner layout.outer
  | some head =>
      if layout.inner.column < column then
        some ⟨⟨column, some head, [], []⟩, layout.inner :: layout.outer, none⟩
      else
        none

def add? (layout : Layout) : LineContent → Option Layout
  | .blank =>
      if layout.outer.isEmpty then some { layout with inner := layout.inner.settled [] }
      else none
  | .simple statement => some { layout with inner := layout.inner.add statement }
  | .header head inline =>
      if layout.inner.admits head then
        match inline with
        | some statement =>
            some { layout with inner := layout.inner.addHead head [statement] }
        | none =>
            let inner :=
              match head with
              | .alternative _ | .otherwise => layout.inner
              | _ => layout.inner.settled []
            some { layout with inner, waiting := some head }
      else
        none

def read? (layout : Layout) (line : Line) : Option Layout := do
  let content ← LineContent.ofTokens? line.tokens
  (← layout.enter? line.column).add? content

def finish? (layout : Layout) : Option (List Statement) :=
  if layout.waiting.isSome then none
  else (closeTo 0 layout.inner layout.outer).map fun layout => layout.inner.body

end Layout

def Statement.ofText? (text : List Char) : Option (List Statement) := do
  let lines ← Line.ofText? text
  (← lines.foldlM Layout.read? Layout.start).finish?

end Expression
end ReversibleMips
