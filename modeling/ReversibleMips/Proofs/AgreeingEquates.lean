import Mathlib.Data.List.Forall2
import ReversibleMips.Proofs.FirstPass

/-!
# Equates that agree

What a line is encoded to depends on its equates only through what its words stand for.  Two
sets of equates that differ in some hidden words therefore encode a line alike if it uses none
of these words, or if a word with the same meaning stands in the place of another.
-/

namespace ReversibleMips
namespace Assembler

/-- A word has a hidden word in it, which it is itself or which its place is made of. -/
def Uses (hidden : Glyphs → Prop) (word : Glyphs) : Prop :=
  hidden word ∨
    ∃ offset base, indexed? word = some (offset, base) ∧ (hidden offset ∨ hidden base)

instance {hidden : Glyphs → Prop} [DecidablePred hidden] (word : Glyphs) :
    Decidable (Uses hidden word) :=
  decidable_of_iff
    (hidden word ∨ ∃ parts ∈ (indexed? word).toList, hidden parts.1 ∨ hidden parts.2)
    (by simp [Uses])

namespace Equates

/-- Words that are not hidden stand for the same. -/
def AgreeOff (hidden : Glyphs → Prop) (left right : Equates) : Prop :=
  ∀ word, ¬ hidden word → right[word]? = left[word]?

/-- A word stands for the same as another does with other equates. -/
structure Alike (left right : Equates) (word other : Glyphs) : Prop where
  resolve_eq : right.resolve other = left.resolve word
  isLabel_eq : right.isLabel other = left.isLabel word
  label_eq : left.isLabel word = true → other = word

def AlikePlaces (left right : Equates) (place other : Glyphs) : Prop :=
  ∀ offset base, indexed? place = some (offset, base) →
    right.resolve offset = left.resolve offset ∧
      ∃ otherBase, indexed? other = some (offset, otherBase) ∧
        right.resolve otherBase = left.resolve base

section Agree

variable {hidden : Glyphs → Prop} {left right : Equates} (agree : left.AgreeOff hidden right)
include agree

theorem AgreeOff.symm : right.AgreeOff hidden left :=
  fun word visible => (agree word visible).symm

theorem AgreeOff.resolve_eq {word : Glyphs} (visible : ¬ hidden word) :
    right.resolve word = left.resolve word := by
  rw [resolve, resolve, agree word visible]

theorem AgreeOff.contains_eq {word : Glyphs} (visible : ¬ hidden word) :
    right.contains word = left.contains word := by
  rw [Std.TreeMap.contains_eq_isSome_getElem?, Std.TreeMap.contains_eq_isSome_getElem?,
    agree word visible]

theorem AgreeOff.alike {word : Glyphs} (visible : ¬ hidden word) : left.Alike right word word where
  resolve_eq := agree.resolve_eq visible
  isLabel_eq := by simp only [isLabel, agree.contains_eq visible]
  label_eq := fun _ => rfl

theorem AgreeOff.alikePlaces {word : Glyphs} (unused : ¬ Uses hidden word) :
    left.AlikePlaces right word word := by
  intro offset base cut
  have visible : ¬ hidden offset ∧ ¬ hidden base := by
    rw [← not_or]
    exact fun isHidden => unused (.inr ⟨offset, base, cut, isHidden⟩)
  exact ⟨agree.resolve_eq visible.1, base, cut, agree.resolve_eq visible.2⟩

theorem AgreeOff.insert (word text : Glyphs) :
    AgreeOff hidden (left.insert word text) (right.insert word text) := by
  intro other visible
  rw [Std.TreeMap.getElem?_insert, Std.TreeMap.getElem?_insert, agree other visible]

/-- Hidden words may stand for anything. -/
theorem AgreeOff.insert_hidden {word : Glyphs} (isHidden : hidden word) (text : Glyphs) :
    AgreeOff hidden left (right.insert word text) := by
  intro other visible
  have differs : compare word other ≠ .eq := by
    intro same
    exact visible (Std.compare_eq_iff_eq.mp same ▸ isHidden)
  rw [Std.TreeMap.getElem?_insert, if_neg differs, agree other visible]

end Agree

section Operand

variable {left right : Equates} {word other : Glyphs}
    (same : right.resolve other = left.resolve word)
include same

theorem registerOf_congr : right.registerOf other = left.registerOf word := by
  rw [registerOf, registerOf, same]

theorem valueOf_congr : right.valueOf other = left.valueOf word := by
  rw [valueOf, valueOf, same]

theorem immediateOf_congr {immediate : Int16} (read : left.immediateOf word = .ok immediate) :
    right.immediateOf other = .ok immediate := by
  rw [immediateOf] at read ⊢
  rw [valueOf_congr same]
  split at read
  · cases read
  · simp only at read ⊢
    split at read
    · rename_i inside
      rw [if_pos inside]
      exact read
    · cases read

end Operand

end Equates

section Encode

open Equates

variable {left right : Equates} {op : Op} {arguments others : List Glyphs} {encoded : Encoded}

theorem encodeDatum_congr (alike : List.Forall₂ (left.Alike right) arguments others)
    (read : encodeDatum left arguments = .ok encoded) :
    encodeDatum right others = .ok encoded := by
  unfold encodeDatum at read
  split at read
  · rename_i argument
    obtain _ | ⟨same, _ | _⟩ := alike
    rw [encodeDatum, same.isLabel_eq, valueOf_congr same.resolve_eq]
    split at read
    · rename_i isLabel
      rw [if_pos isLabel, same.label_eq isLabel]
      exact read
    · rename_i isNumber
      rw [if_neg isNumber]
      exact read
  · cases read

theorem encodeThree_congr (alike : List.Forall₂ (left.Alike right) arguments others)
    (read : encodeThree left op arguments = .ok encoded) :
    encodeThree right op others = .ok encoded := by
  unfold encodeThree at read
  split at read
  · obtain _ | ⟨dSame, _ | ⟨sSame, _ | ⟨tSame, _ | _⟩⟩⟩ := alike
    rw [encodeThree, registerOf_congr dSame.resolve_eq, registerOf_congr sSame.resolve_eq,
      registerOf_congr tSame.resolve_eq]
    exact read
  · cases read

theorem encodeTwo_congr (alike : List.Forall₂ (left.Alike right) arguments others)
    (read : encodeTwo left op arguments = .ok encoded) :
    encodeTwo right op others = .ok encoded := by
  unfold encodeTwo at read
  split at read
  · obtain _ | ⟨sSame, _ | ⟨tSame, _ | _⟩⟩ := alike
    rw [encodeTwo, registerOf_congr sSame.resolve_eq, registerOf_congr tSame.resolve_eq]
    exact read
  · cases read

theorem encodeOne_congr (alike : List.Forall₂ (left.Alike right) arguments others)
    (read : encodeOne left op arguments = .ok encoded) :
    encodeOne right op others = .ok encoded := by
  unfold encodeOne at read
  split at read
  · obtain _ | ⟨same, _ | _⟩ := alike
    rw [encodeOne, registerOf_congr same.resolve_eq]
    exact read
  · cases read

theorem encodeBranch_congr (alike : List.Forall₂ (left.Alike right) arguments others)
    (read : encodeBranch left op arguments = .ok encoded) :
    encodeBranch right op others = .ok encoded := by
  unfold encodeBranch at read
  split at read
  · rename_i first second target rest
    obtain _ | ⟨sSame, _ | ⟨tSame, _ | ⟨same, behind⟩⟩⟩ := alike
    obtain ⟨s, sRead, afterFirst⟩ := exists_of_bind_eq_ok read
    obtain ⟨t, tRead, afterSecond⟩ := exists_of_bind_eq_ok afterFirst
    simp only [encodeBranch, registerOf_congr sSame.resolve_eq, registerOf_congr tSame.resolve_eq,
      sRead, tRead, same.isLabel_eq, bind, Except.bind]
    cases rest with
    | cons superfluous rest => cases afterSecond
    | nil =>
        obtain _ | _ := behind
        rw [if_neg (by simp)] at afterSecond ⊢
        split at afterSecond
        · rename_i isLabel
          rw [same.label_eq isLabel, if_pos isLabel]
          exact afterSecond
        · rename_i isNumber
          obtain ⟨immediate, number, encodes⟩ := exists_of_bind_eq_ok afterSecond
          rw [if_neg isNumber, immediateOf_congr same.resolve_eq number]
          exact encodes
  · cases read

theorem encodeIndexed_congr {register other place otherPlace : Glyphs}
    (same : right.resolve other = left.resolve register)
    (places : left.AlikePlaces right place otherPlace)
    (read : encodeIndexed left op [register, place] = .ok encoded) :
    encodeIndexed right op [other, otherPlace] = .ok encoded := by
  rw [encodeIndexed] at read
  obtain ⟨t, tRead, read⟩ := exists_of_bind_eq_ok read
  split at read
  · cases read
  · rename_i offset base cut
    obtain ⟨offsetSame, otherBase, otherCut, baseSame⟩ := places offset base cut
    obtain ⟨s, sRead, read⟩ := exists_of_bind_eq_ok read
    simp only [encodeIndexed, registerOf_congr same, tRead, otherCut, registerOf_congr baseSame,
      sRead, bind, Except.bind]
    simp only at read
    split at read
    · rename_i noOffset
      rw [if_pos noOffset]
      exact read
    · rename_i isOffset
      obtain ⟨immediate, number, read⟩ := exists_of_bind_eq_ok read
      rw [if_neg isOffset, immediateOf_congr offsetSame number]
      exact read

/-- Arguments with the same meaning are encoded alike. -/
theorem encode_congr (alike : List.Forall₂ (left.Alike right) arguments others)
    (places : List.Forall₂ (left.AlikePlaces right) arguments others)
    (read : encode left op arguments = .ok encoded) : encode right op others = .ok encoded := by
  have indexed {op : Op} (read : encodeIndexed left op arguments = .ok encoded) :
      encodeIndexed right op others = .ok encoded := by
    unfold encodeIndexed at read
    split at read
    · obtain _ | ⟨-, _ | ⟨samePlace, _ | _⟩⟩ := places
      obtain _ | ⟨same, -⟩ := alike
      exact encodeIndexed_congr same.resolve_eq samePlace read
    · cases read
  cases op
  case word => exact encodeDatum_congr alike read
  case add | sub | slt | sltu => exact encodeThree_congr alike read
  case mult | multu | div | divu => exact encodeTwo_congr alike read
  case mfhi | mflo | lis | jr | jalr => exact encodeOne_congr alike read
  case beq | bne => exact encodeBranch_congr alike read
  case lw | sw => exact indexed read
  case other => cases read

/-- Arguments without hidden words are encoded alike. -/
theorem encode_agree {hidden : Glyphs → Prop} (agree : left.AgreeOff hidden right)
    (unused : ∀ word ∈ arguments, ¬ Uses hidden word)
    (read : encode left op arguments = .ok encoded) :
    encode right op arguments = .ok encoded := by
  apply encode_congr _ _ read
  · rw [List.forall₂_same]
    exact fun word member => agree.alike fun isHidden => unused word member (.inl isHidden)
  · rw [List.forall₂_same]
    exact fun word member => agree.alikePlaces (unused word member)

end Encode

end Assembler
end ReversibleMips
