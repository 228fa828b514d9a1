import ReversibleMips.Proofs.FormulaTokens
import ReversibleMips.Proofs.MentionedWords

/-!
# The values of formulas

The tokens of a formula are read as its tree, whatever is waiting on the stack of the parser:
the operators of the formula are closed before anything that was there binds its value.  The
tree evaluates to the value of the formula, without touching the heap.
-/

namespace ReversibleMips
namespace Expression

namespace Formula

def tree : Formula → Tree
  | literal value => .int value
  | equate name => .name name
  | group body => .group body.tree
  | signed sign operand => .unary sign.op operand.tree
  | joined operator left right => (Pending.binary operator.op left.tree).complete right.tree

end Formula

namespace ParseState

theorem run_append (tokens others : List Token) (state : ParseState) :
    run (tokens ++ others) state = (run tokens state).bind (run others) := by
  induction tokens generalizing state with
  | nil => rfl
  | cons token tokens ih =>
      simp only [List.cons_append, run]
      cases state.step token with
      | none => rfl
      | some next => exact ih next

/-- What is on top of a stack binds nothing of a level. -/
def Loose (level : Nat) (stack : List Pending) : Prop :=
  ∀ pending ∈ stack.head?,
    pending.isTargets = false ∧ ∀ tightness ∈ pending.level, tightness < level

theorem loose_cons {level : Nat} {pending : Pending} {stack : List Pending}
    (noTargets : pending.isTargets = false)
    (below : ∀ tightness ∈ pending.level, tightness < level) : Loose level (pending :: stack) := by
  rintro top ⟨⟩
  exact ⟨noTargets, below⟩

theorem close_of_loose {level : Nat} {stack : List Pending} (loose : Loose level stack)
    (value : Tree) : close level stack value = (stack, value) := by
  cases stack with
  | nil => rfl
  | cons pending stack =>
      obtain ⟨-, below⟩ := loose pending rfl
      rw [close]
      split
      · rfl
      · rename_i tightness found
        rw [if_neg (Nat.not_le_of_lt (below tightness found))]

theorem operatorStep_operator {operator : Operator} {stack below : List Pending}
    {value left : Tree} (closed : close operator.op.level stack value = (below, left))
    (loose : Loose operator.op.level below) :
    operatorStep stack value operator.token =
      some (operand (.binary operator.op left :: below)) := by
  have noComparison : operator.op.level ≠ comparisonLevel := by cases operator <;> decide
  have step : operatorStep stack value operator.token = binaryStep operator.op stack value := by
    cases operator <;> rfl
  rw [step, binaryStep]
  simp only [noComparison, if_false, closed, decide_false, Bool.false_and, Bool.false_eq_true]
  split
  · rename_i within items rest item same
    obtain ⟨rfl, -⟩ := Prod.mk.inj same
    exact absurd (loose _ rfl).1 (by simp [Pending.isTargets])
  · rename_i same
    obtain ⟨rfl, rfl⟩ := Prod.mk.inj same
    rfl

/-- The tokens of a formula are read as an operand.  What they leave on the stack is closed
to the tree of the formula by everything that binds no tighter than the formula does. -/
theorem run_tokens {formula : Formula} (proper : formula.Proper) {stack : List Pending}
    (loose : Loose formula.level stack) :
    ∃ pending last, run formula.tokens (operand stack) = some (operator pending last) ∧
      ∀ level, level ≤ 11 → level ≤ formula.level →
        close level pending last = close level stack formula.tree := by
  induction formula generalizing stack with
  | literal value => exact ⟨stack, .int value, rfl, fun _ _ _ => rfl⟩
  | equate name => exact ⟨stack, .name name, rfl, fun _ _ _ => rfl⟩
  | group body ih =>
      have inside : Loose body.level (.paren [] :: stack) :=
        loose_cons rfl (by simp [Pending.level])
      obtain ⟨pending, last, read, closes⟩ := ih proper inside
      have closed : close 0 pending last = (.paren [] :: stack, body.tree) :=
        closes 0 (by omega) (by omega)
      refine ⟨stack, .group body.tree, ?_, fun _ _ _ => rfl⟩
      change run (body.tokens ++ [.closeParen]) (operand (.paren [] :: stack)) = _
      rw [run_append, read]
      simp only [Option.bind_some, run, step, operatorStep, closeParenStep, closed]
      rfl
  | signed sign body ih =>
      have unary : sign.op.level = 11 := by cases sign <;> rfl
      have below : Loose body.level (.unary sign.op :: stack) := by
        apply loose_cons rfl
        rintro tightness ⟨⟩
        exact proper.1
      obtain ⟨pending, last, read, closes⟩ := ih proper.2 below
      refine ⟨pending, last, ?_, fun level small _ => ?_⟩
      · have step : (operand stack).step sign.token = some (operand (.unary sign.op :: stack)) := by
          cases sign <;> rfl
        simp only [Formula.tokens, run, step, read]
      · have inner := proper.1
        rw [closes level small (by omega), close]
        simp only [Pending.level, unary, small, if_true]
        rfl
  | joined operator left right leftIH rightIH =>
      obtain ⟨leftTight, rightTight, leftProper, rightProper⟩ := proper
      have small : operator.op.level ≤ 10 := by cases operator <;> decide
      have leftLoose : Loose left.level stack := by
        intro pending top
        obtain ⟨noTargets, below⟩ := loose pending top
        exact ⟨noTargets, fun tightness found =>
          Nat.lt_of_lt_of_le (below tightness found) leftTight⟩
      obtain ⟨pending, last, read, closes⟩ := leftIH leftProper leftLoose
      have closed : close operator.op.level pending last = (stack, left.tree) := by
        rw [closes _ (by omega) leftTight]
        exact close_of_loose loose left.tree
      have rightLoose : Loose right.level (.binary operator.op left.tree :: stack) := by
        apply loose_cons rfl
        rintro tightness ⟨⟩
        exact rightTight
      obtain ⟨later, lastRight, readRight, closesRight⟩ := rightIH rightProper rightLoose
      refine ⟨later, lastRight, ?_, fun level small tight => ?_⟩
      · rw [Formula.tokens, run_append, read, Option.bind_some, run]
        simp only [step, operatorStep_operator closed loose, readRight]
      · have within : level ≤ operator.op.level := tight
        rw [closesRight level small (by omega), close]
        simp only [Pending.level, within, if_true]
        rfl

end ParseState

/-- The tokens of an assignment of a formula are its statement. -/
theorem ofTokens?_assign {formula : Formula} (proper : formula.Proper) :
    LineContent.ofTokens? (.name resultName :: .assign :: formula.tokens) =
      some (.simple (.assign (.name resultName) formula.tree)) := by
  have loose : ParseState.Loose formula.level [.line (.assign (.name resultName)) []] :=
    ParseState.loose_cons rfl (by simp [Pending.level])
  obtain ⟨pending, last, read, closes⟩ := ParseState.run_tokens proper loose
  have closed : ParseState.close 0 pending last =
      ([.line (.assign (.name resultName)) []], formula.tree) := closes 0 (by omega) (by omega)
  have basic : Statement.basic? (.name resultName :: .assign :: formula.tokens) =
      some (.assign (.name resultName) formula.tree) := by
    change (ParseState.run formula.tokens
      (.operand [.line (.assign (.name resultName)) []])).bind ParseState.finish = _
    rw [read, Option.bind_some, ParseState.finish, closed]
    rfl
  change (Statement.basic? _).map LineContent.simple = _
  rw [basic]
  rfl

/-- The text that assigns a formula is one statement. -/
theorem Spells.statement_eq {formula : Formula} {text : List Char} (spells : Spells formula text)
    (proper : formula.Proper) :
    Statement.ofText? (resultName.toList ++ '=' :: text ++ ['\n']) =
      some [.assign (.name resultName) formula.tree] := by
  have read : Layout.start.read? ⟨0, .name resultName :: .assign :: formula.tokens⟩ =
      some ⟨⟨0, none, [.assign (.name resultName) formula.tree], []⟩, [], none⟩ := by
    simp only [Layout.read?, ofTokens?_assign proper]
    rfl
  simp only [Statement.ofText?, spells.line_eq proper, Option.bind_eq_bind, Option.bind_some,
    List.foldlM_cons, List.foldlM_nil, read]
  rfl

theorem Action.bind_of_ok {α β : Type} {first : Action α} {next : α → Action β}
    {heap later : Heap} {value : α} (done : first heap = (.ok value, later)) :
    (first >>= next) heap = next value later := by
  change ExceptT.bindCont next (first heap).1 (first heap).2 = _
  rw [done]
  rfl

theorem Operator.binary_eq (operator : Operator) (left right : Int) (heap : Heap) :
    Action.binary operator.op (.int left) (.int right) heap =
      (.ok (.int (operator.exact left right)), heap) := by
  cases operator <;> rfl

namespace Tree

/-- A tree has an integer as its value, whatever the heap is, and leaves the heap alone. -/
def Yields (scope : Scope) (tree : Tree) (value : Int) : Prop :=
  ∀ heap, tree.eval scope heap = (.ok (.int value), heap)

theorem eval_ungrouped (scope : Scope) (tree : Tree) :
    tree.ungrouped.eval scope = tree.eval scope := by
  fun_induction ungrouped tree with
  | case1 body ih => exact ih
  | case2 tree single => rfl

theorem evalSum_runs (scope : Scope) (tree : Tree) :
    evalSum scope tree.runs = tree.eval scope := by
  rw [← eval_ungrouped, runs]
  split
  · rename_i runs sum
    rw [sum]
    rfl
  · rfl

theorem Yields.unary {scope : Scope} {operand : Tree} {value : Int}
    (yields : operand.Yields scope value) (sign : Sign) :
    (Tree.unary sign.op operand).Yields scope (sign.exact value) := by
  intro heap
  apply (Action.bind_of_ok (yields heap)).trans
  cases sign <;> rfl

theorem Yields.binary {scope : Scope} {left right : Tree} {first second : Int}
    (leftYields : left.Yields scope first) (rightYields : right.Yields scope second)
    (operator : Operator) :
    (Tree.binary operator.op left right).Yields scope (operator.exact first second) := by
  intro heap
  have both : (right.eval scope >>= fun value =>
      Action.binary operator.op (.int first) value) heap =
        (.ok (.int (operator.exact first second)), heap) :=
    (Action.bind_of_ok (rightYields heap)).trans (operator.binary_eq first second heap)
  rw [← both]
  cases operator <;> exact Action.bind_of_ok (leftYields heap)

/-- A summand that is no literal with parts is a run of its own. -/
theorem plus_eq {right : Tree} (single : ∀ tree : Tree, tree.sameLiteral right.ungrouped = false)
    (left : Tree) : left.plus right = .sum ([right.ungrouped] :: left.runs) := by
  unfold plus
  simp only
  split
  · rename_i before run rest runs
    rw [single before, if_neg Bool.false_ne_true, runs]
  · rfl

theorem Yields.plus {scope : Scope} {left right : Tree} {first second : Int}
    (leftYields : left.Yields scope first) (rightYields : right.Yields scope second)
    (single : ∀ tree : Tree, tree.sameLiteral right.ungrouped = false) :
    (left.plus right).Yields scope (first + second) := by
  intro heap
  have leftRuns : evalSum scope left.runs heap = (.ok (.int first), heap) := by
    rw [evalSum_runs]
    exact leftYields heap
  have rightRun : evalRun scope [right.ungrouped] heap = (.ok (.int second), heap) := by
    change right.ungrouped.eval scope heap = _
    rw [eval_ungrouped]
    exact rightYields heap
  rw [plus_eq single]
  cases runs : left.runs with
  | nil =>
      rw [runs] at leftRuns
      cases leftRuns
  | cons run before =>
      rw [runs] at leftRuns
      exact (Action.bind_of_ok leftRuns).trans (Action.bind_of_ok rightRun)

theorem resolves_ungrouped (names : Names) (tree : Tree) :
    tree.ungrouped.resolves names = tree.resolves names := by
  fun_induction ungrouped tree with
  | case1 body ih => exact ih
  | case2 tree single => rfl

theorem runsResolve_runs (names : Names) (tree : Tree) :
    runsResolve names tree.runs = tree.resolves names := by
  rw [← resolves_ungrouped, runs]
  split
  · rename_i runs sum
    rw [sum]
    rfl
  · change ((tree.ungrouped.resolves names && true) && true) = _
    rw [Bool.and_true, Bool.and_true]

end Tree

namespace Formula

/-- No formula is a literal with parts. -/
theorem sameLiteral_tree (formula : Formula) (tree : Tree) :
    tree.sameLiteral formula.tree.ungrouped = false := by
  induction formula generalizing tree with
  | literal value => cases tree <;> rfl
  | equate name => cases tree <;> rfl
  | group body ih => exact ih tree
  | signed sign operand ih => cases tree <;> rfl
  | joined operator left right leftIH rightIH =>
      have sum : ((left.tree.plus right.tree).ungrouped) =
          .sum ([right.tree.ungrouped] :: left.tree.runs) := by
        rw [Tree.plus_eq rightIH]
        rfl
      cases operator with
      | add =>
          change tree.sameLiteral (left.tree.plus right.tree).ungrouped = false
          rw [sum]
          cases tree <;> rfl
      | _ => cases tree <;> rfl

theorem yields_tree {scope : Scope} {values : String → Int} (formula : Formula)
    (named : ∀ name ∈ formula.names, (Tree.name name).Yields scope (values name)) :
    formula.tree.Yields scope (formula.exact values) := by
  induction formula with
  | literal value => exact fun _ => rfl
  | equate name => exact named name List.mem_cons_self
  | group body ih => exact ih named
  | signed sign operand ih => exact (ih named).unary sign
  | joined operator left right leftIH rightIH =>
      have leftYields := leftIH fun name member => named name (List.mem_append_left _ member)
      have rightYields := rightIH fun name member => named name (List.mem_append_right _ member)
      cases operator with
      | add => exact leftYields.plus rightYields right.sameLiteral_tree
      | sub => exact leftYields.binary rightYields .sub
      | mul => exact leftYields.binary rightYields .mul
      | bitAnd => exact leftYields.binary rightYields .bitAnd
      | bitOr => exact leftYields.binary rightYields .bitOr
      | bitXor => exact leftYields.binary rightYields .bitXor

theorem resolves_tree {names : Names} (formula : Formula)
    (known : ∀ name ∈ formula.names, names.knows name = true) :
    formula.tree.resolves names = true := by
  induction formula with
  | literal value => rfl
  | equate name => exact known name List.mem_cons_self
  | group body ih => exact ih known
  | signed sign operand ih => exact ih known
  | joined operator left right leftIH rightIH =>
      have leftKnown := leftIH fun name member => known name (List.mem_append_left _ member)
      have rightKnown := rightIH fun name member => known name (List.mem_append_right _ member)
      have both : (left.tree.resolves names && right.tree.resolves names) = true := by
        rw [leftKnown, rightKnown]
        rfl
      cases operator with
      | add =>
          change (left.tree.plus right.tree).resolves names = true
          rw [Tree.plus_eq right.sameLiteral_tree]
          change ((right.tree.ungrouped.resolves names && true) &&
            Tree.runsResolve names left.tree.runs) = true
          rw [Tree.runsResolve_runs, Tree.resolves_ungrouped, leftKnown, rightKnown]
          rfl
      | _ => exact both

end Formula

def resultScope (fuel : Nat) (defined : String → Option Int) : Scope :=
  ⟨defined, callWithin defined fuel [], [outermost [resultName]]⟩

theorem owned?_resultScope (fuel : Nat) (defined : String → Option Int) (name : String) :
    (resultScope fuel defined).owned? name =
      if name == resultName then some ⟨0, 0, name⟩ else none := by
  have contains : (Std.TreeSet.ofList [resultName]).contains name = (name == resultName) := by
    rw [Std.TreeSet.contains_ofList, List.contains_cons, List.contains_nil, Bool.or_false]
  simp only [Scope.owned?, resultScope, outermost, List.findSome?_cons, List.findSome?_nil,
    contains]
  cases name == resultName <;> rfl

theorem yields_name {defined : String → Option Int} {name : String} {value : Int}
    (other : name ≠ resultName) (found : defined name = some value) (fuel : Nat) :
    (Tree.name name).Yields (resultScope fuel defined) value := by
  have free : (resultScope fuel defined).owned? name = none := by
    rw [owned?_resultScope, beq_false_of_ne other]
    rfl
  intro heap
  change (resultScope fuel defined).value name heap = _
  rw [Scope.value, free]
  simp only [resultScope, found]
  rfl

def Heap.withResult (heap : Heap) (value : Value) : Heap :=
  { heap with bindings := heap.bindings.insert ⟨0, 0, resultName⟩ value }

theorem assign_resultName (fuel : Nat) (defined : String → Option Int) (value : Value)
    (heap : Heap) :
    (resultScope fuel defined).assign resultName value heap = (.ok (), heap.withResult value) := by
  rw [Scope.assign, owned?_resultScope, beq_self_eq_true]
  rfl

theorem execute_assign {fuel : Nat} {defined : String → Option Int} {tree : Tree} {value : Int}
    (yields : tree.Yields (resultScope fuel defined) value) (heap : Heap) :
    Statement.execute (resultScope fuel defined) (.assign (.name resultName) tree) heap =
      (.ok .next, heap.withResult (.int value)) := by
  apply (Action.bind_of_ok (yields heap)).trans
  exact Action.bind_of_ok (assign_resultName fuel defined (.int value) heap)

/-- The value that is assigned to the result is what the result has in the end. -/
theorem run_assign {fuel : Nat} {defined : String → Option Int} {tree : Tree} {value : Int}
    (resolves : tree.resolves ⟨defined, .ofList [resultName]⟩ = true)
    (yields : tree.Yields (resultScope fuel defined) value) :
    (Statement.run fuel defined [.assign (.name resultName) tree] resultName).value =
      .ok (some (.int value)) := by
  have once : Statement.bindsOnce ∅ ∅ [(false, resultName)] = true := by decide +kernel
  have resolved : Statement.resolvesAll ⟨defined, .ofList [resultName]⟩ .nothing
      [.assign (.name resultName) tree] = true := by
    change ((tree.resolves ⟨defined, .ofList [resultName]⟩ && true) && true) = true
    rw [resolves]
    rfl
  have executed : Statement.executeAll (resultScope fuel defined)
      [.assign (.name resultName) tree] Heap.empty =
        (.ok .next, Heap.empty.withResult (.int value)) :=
    Action.bind_of_ok (execute_assign yields Heap.empty)
  have passed : (!(Statement.bindsOnce ∅ ∅ [(false, resultName)] &&
      Statement.resolvesAll ⟨defined, .ofList [resultName]⟩ .nothing
        [.assign (.name resultName) tree])) = false := by
    rw [once, resolved]
    rfl
  have owned := owned?_resultScope fuel defined resultName
  rw [beq_self_eq_true, if_pos rfl] at owned
  calc (Statement.run fuel defined [.assign (.name resultName) tree] resultName).value
      = (Statement.executeAll (resultScope fuel defined)
          [.assign (.name resultName) tree] Heap.empty).1.map fun _ =>
            ((resultScope fuel defined).owned? resultName).bind fun place =>
              (Statement.executeAll (resultScope fuel defined)
                [.assign (.name resultName) tree] Heap.empty).2.bindings.get? place :=
        congrArg Execution.value (if_neg (Bool.eq_false_iff.mp passed))
    _ = .ok (some (.int value)) := by
        rw [executed, owned]
        rfl

theorem Spells.names_inside {formula : Formula} {text : List Char} (spells : Spells formula text) :
    ∀ name ∈ formula.names, name.toList <:+: text := by
  induction spells with
  | decimal => exact fun _ member => nomatch member
  | hex => exact fun _ member => nomatch member
  | equate name =>
      intro other member
      obtain rfl := List.mem_singleton.mp member
      exact List.infix_rfl
  | group _ ih => exact fun name member => (ih name member).trans ⟨['('], [')'], rfl⟩
  | signed _ _ ih => exact fun name member => List.infix_cons (ih name member)
  | joined _ _ _ leftIH rightIH =>
      intro name member
      rcases List.mem_append.mp member with left | right
      · exact List.infix_append_of_infix_left (leftIH name left)
      · exact List.infix_append_of_infix_right (List.infix_cons (rightIH name right))
  | blankBefore _ _ ih => exact fun name member => List.infix_cons (ih name member)
  | blankBehind _ _ ih =>
      exact fun name member => List.infix_append_of_infix_left (ih name member)

theorem Formula.isIdentifier_of_proper {formula : Formula} (proper : formula.Proper) :
    ∀ name ∈ formula.names, isIdentifier name = true := by
  induction formula with
  | literal value => exact fun _ member => nomatch member
  | equate name =>
      intro other member
      rw [List.mem_singleton.mp member]
      exact proper
  | group body ih => exact ih proper
  | signed sign operand ih => exact ih proper.2
  | joined operator left right leftIH rightIH =>
      intro name member
      obtain ⟨_, _, leftProper, rightProper⟩ := proper
      rcases List.mem_append.mp member with left | right
      · exact leftIH leftProper name left
      · exact rightIH rightProper name right

/-- A text that spells a formula has the exact value of the formula. -/
theorem Spells.assignedValue_eq {formula : Formula} {text : List Char}
    {defined : String → Option Int} {values : String → Int} (spells : Spells formula text)
    (proper : formula.Proper)
    (bound : ∀ name ∈ formula.names, defined name = some (values name)) :
    assignedValue defined text = .ok (some (.int (formula.exact values))) := by
  have seen : ∀ name ∈ formula.names,
      mentioned (resultName.toList ++ '=' :: text ++ ['\n']) defined name =
        some (values name) := by
    intro name member
    have inside : name.toList <:+: resultName.toList ++ '=' :: text ++ ['\n'] :=
      (spells.names_inside name member).trans ⟨resultName.toList ++ ['='], ['\n'], rfl⟩
    rw [mentioned, bound name member, Text.hasPart_iff.mpr inside]
    rfl
  unfold assignedValue Execution.ofText
  simp only [spells.statement_eq proper]
  apply run_assign
  · apply formula.resolves_tree
    intro name member
    simp only [Names.knows, seen name member, Option.isSome_some, Bool.or_true, Bool.true_or]
  · apply formula.yields_tree
    intro name member
    have identifier := formula.isIdentifier_of_proper proper name member
    exact yields_name (isIdentifier_eq identifier).2.2.2 (seen name member) _

end Expression
end ReversibleMips
