import ReversibleMips.Proofs.CoherentMemory

/-!
# Consecutive words

Words that are written to consecutive addresses of memory are all written.  This file says what
memory has at every index afterwards.
-/

namespace ReversibleMips
namespace Ram

/-- Write words one after another, from an index on.  Words that memory has no
room for are left out. -/
def writeFrom (ram : Ram) (index : Nat) : List Word → Ram
  | [] => ram
  | word :: rest => (ram.setIndex index word).writeFrom (index + 1) rest

@[simp]
theorem size_writeFrom (ram : Ram) (index : Nat) (words : List Word) :
    (ram.writeFrom index words).size = ram.size := by
  induction words generalizing ram index with
  | nil => rfl
  | cons word rest ih => simp [writeFrom, ih]

/-- Writing to addresses that memory has never fails. -/
theorem writeAll_eq {ram : Ram} {place : Nat → Address} {number start : Nat} {words : List Word}
    (placed : ∀ offset < words.length, (place (number + offset)).index = start + offset)
    (room : words = [] ∨ start + words.length ≤ ram.size) :
    ram.writeAll place number words = (ram.writeFrom start words, none) := by
  induction words generalizing ram number start with
  | nil => rfl
  | cons word words ih =>
      have sized : start + (words.length + 1) ≤ ram.size := by simpa using room
      have first : (place number).index = start := placed 0 (Nat.zero_lt_succ _)
      have accepted : ram.write (place number) word = .ok (ram.setIndex start word) := by
        rw [write, first, if_pos (by omega)]
      have others : ∀ offset < words.length,
          (place (number + 1 + offset)).index = start + 1 + offset := by
        intro offset inside
        have next := placed (offset + 1) (Nat.succ_lt_succ inside)
        rw [Nat.add_right_comm, Nat.add_assoc, next]
        omega
      simp only [writeAll, accepted, writeFrom]
      exact ih others (.inr (by rw [size_setIndex]; omega))

theorem read_writeFrom_of_lt {ram : Ram} {start : Nat} {address : Address}
    (before : address.index < start) (words : List Word) :
    (ram.writeFrom start words).read address = ram.read address := by
  induction words generalizing ram start with
  | nil => rfl
  | cons word words ih =>
      rw [writeFrom, ih (by omega), read_setIndex, if_neg (by omega)]

/-- Words are where they were written to. -/
theorem read_writeFrom {ram : Ram} {start offset : Nat} {words : List Word} {word : Word}
    {address : Address} (found : words[offset]? = some word)
    (here : address.index = start + offset) (inside : address.index < ram.size) :
    (ram.writeFrom start words).read address = .ok word := by
  induction words generalizing ram start offset with
  | nil => simp at found
  | cons first words ih =>
      cases offset with
      | zero =>
          have same : first = word := by simpa using found
          rw [Nat.add_zero] at here
          subst here same
          rw [writeFrom, read_writeFrom_of_lt (by omega), read_setIndex_self inside]
      | succ offset =>
          rw [writeFrom]
          exact ih (by simpa using found) (by omega) (by simpa using inside)

theorem written_writeFrom (ram : Ram) (index : Nat) (words : List Word) :
    Written ram (ram.writeFrom index words) := by
  induction words generalizing ram index with
  | nil => exact .same
  | cons word rest ih =>
      have first : Written ram (ram.setIndex index word) := Written.same.setIndex index word
      exact first.trans (ih (ram.setIndex index word) (index + 1))

/-- What memory has at an index once words have been written from some place on. -/
theorem getElem?_writeFrom (ram : Ram) (start : Nat) (words : List Word) (index : Nat) :
    (ram.writeFrom start words).words[index]? =
      if index < ram.size ∧ start ≤ index ∧ index < start + words.length then
        words[index - start]?
      else
        ram.words[index]? := by
  induction words generalizing ram start with
  | nil =>
      rw [if_neg (by simp only [List.length_nil]; omega)]
      rfl
  | cons word words ih =>
      rw [writeFrom, ih, size_setIndex, words_setIndex, Array.getElem?_setIfInBounds,
        List.length_cons]
      by_cases here : start = index
      · subst here
        rw [if_neg (by omega), if_pos rfl, Nat.sub_self, List.getElem?_cons_zero]
        by_cases inside : start < ram.size
        · have insideWords : start < ram.words.size := inside
          rw [if_pos insideWords, if_pos (by omega)]
        · have outside : ¬ start < ram.words.size := inside
          rw [if_neg outside, if_neg (by omega), Array.getElem?_eq_none (Nat.le_of_not_lt outside)]
      · rw [if_neg here]
        by_cases written : index < ram.size ∧ start ≤ index ∧ index < start + (words.length + 1)
        · have next : index - start = index - (start + 1) + 1 := by omega
          rw [if_pos written, if_pos (by omega), next, List.getElem?_cons_succ]
        · rw [if_neg written, if_neg (by omega)]

end Ram
end ReversibleMips
