/-!
# Traversals

A traversal shows values one after another to a visitor, who may stop it at any
point.  What comes after that point is never asked for.
-/

namespace ReversibleMips

/-- Values that are shown one after another to a visitor that carries a state. -/
structure Traversal (α : Type) where
  visit : {σ : Type} → (σ → α → ForInStep σ) → σ → ForInStep σ

namespace Traversal

variable {α β : Type}

/-- Show items to a visitor until it stops. -/
def visitList {ι : Type _} {σ : Type} (visitor : σ → ι → ForInStep σ) : List ι → σ → ForInStep σ
  | [], state => .yield state
  | item :: rest, state =>
      match visitor state item with
      | .done state => .done state
      | .yield state => visitList visitor rest state

def ofList (items : List α) : Traversal α :=
  ⟨fun visitor state => visitList visitor items state⟩

def indexed (items : List α) : Traversal (Nat × α) :=
  ofList (items.mapIdx fun index item => (index, item))

/-- The values of several traversals, one traversal after another. -/
def concat (traversals : List (Traversal α)) : Traversal α :=
  ⟨fun visitor state =>
    visitList (fun state (traversal : Traversal α) => traversal.visit visitor state)
      traversals state⟩

def map (traversal : Traversal α) (image : α → β) : Traversal β :=
  ⟨fun visitor state => traversal.visit (fun state value => visitor state (image value)) state⟩

/-- A visitor that keeps the values it is shown, in reverse, and stops when it has seen
as many as it wants. -/
def keep (limit : Option Nat) (seen : List α) (value : α) : ForInStep (List α) :=
  let seen := value :: seen
  match limit with
  | none => .yield seen
  | some limit => if limit ≤ seen.length then .done seen else .yield seen

def collect (traversal : Traversal α) (limit : Option Nat) : List α :=
  if limit = some 0 then [] else (traversal.visit (keep limit) []).value.reverse

end Traversal
end ReversibleMips
