import ReversibleMips.Cell
import ReversibleMips.Instruction
import Std.Data.ExtTreeMap

/-!
# Main memory

Memory is an array of words.  Beside the words it keeps the instructions that they
were decoded as when they were written, so that fetching an instruction is a
look-up.  A word of zero has no instruction kept for it, and is decoded when it is
fetched.
-/

namespace ReversibleMips

/-- An access to a word that memory does not have. -/
structure RamError where
  address : Address
deriving DecidableEq

namespace RamError

/-- What is reported of an access outside memory. -/
def message (error : RamError) : String :=
  "data is outside memory range: " ++ error.address.text

end RamError

/-- Main memory. -/
@[ext]
structure Ram where
  words : Array Word
  /-- The decoded instructions of words that are not zero, by the index of the word. -/
  code : Std.ExtTreeMap Nat Instruction
deriving DecidableEq

namespace Ram

/-- The highest address of the memory of a full machine, where its stack
starts. -/
def maxAddress : Word := 0x01000000

/-- The number of words of a full machine, its highest address included. -/
def fullSize : Nat := maxAddress.toNat / 4 + 1

def ofSize (size : Nat) : Ram := ⟨Array.replicate size 0, ∅⟩

/-- The number of words that no memory can exceed: its bytes have to fit in an address
space of forty-eight bits. -/
def maxSize : Nat := 0x400000000000

/-- A memory of zeros, whose size must lie between zero and the largest there can be. -/
def ofSizeChecked (size : Int) : Except Misuse Ram :=
  if 0 ≤ size ∧ size ≤ maxSize then .ok (ofSize size.toNat) else .error .sizeOutOfRange

instance : Inhabited Ram := ⟨ofSize 0⟩

def size (ram : Ram) : Nat := ram.words.size

def reset (ram : Ram) : Ram := ofSize ram.size

def read (ram : Ram) (address : Address) : Except RamError Word :=
  if inside : address.index < ram.words.size then
    .ok ram.words[address.index]
  else
    .error ⟨address⟩

def instruction (ram : Ram) (address : Address) : Except RamError Instruction :=
  if address.index < ram.size then
    .ok (ram.code[address.index]?.getD (.decode 0 address))
  else
    .error ⟨address⟩

def setIndex (ram : Ram) (index : Nat) (value : Word) : Ram :=
  if index < ram.size then
    { words := ram.words.setIfInBounds index value
      code :=
        if value = 0 then ram.code.erase index
        else ram.code.insert index (.decode value (.ofNat index)) }
  else
    ram

@[inline]
def write (ram : Ram) (address : Address) (value : Word) : Except RamError Ram :=
  if address.index < ram.size then
    .ok (ram.setIndex address.index value)
  else
    .error ⟨address⟩

/-- Write words one after another, from a number on, to the addresses that numbers have.  The
first word that cannot be written is the last that is tried. -/
def writeAll (ram : Ram) (place : Nat → Address) (number : Nat) :
    List Word → Ram × Option RamError
  | [] => (ram, none)
  | word :: rest =>
      match ram.write (place number) word with
      | .error error => (ram, some error)
      | .ok written => written.writeAll place (number + 1) rest

/-- The words that are not zero with their addresses, in the order of the
addresses. -/
def nonzero (ram : Ram) : List (Address × Word) :=
  ram.words.size.foldRev
    (fun index inside found =>
      let word := ram.words[index]
      if word = 0 then found else (Address.ofNat index, word) :: found)
    []

def cell (ram : Ram) (address : Address) : Except RamError Cell :=
  (ram.instruction address).map fun instruction =>
    { tag := "M[" ++ address.hex ++ "]"
      word := instruction.word
      details := instruction.text }

@[simp]
theorem size_ofSize (count : Nat) : (ofSize count).size = count := by
  simp [size, ofSize]

@[simp]
theorem words_setIndex (ram : Ram) (index : Nat) (value : Word) :
    (ram.setIndex index value).words = ram.words.setIfInBounds index value := by
  unfold setIndex size
  split
  · rfl
  · rename_i outside
    exact (Array.setIfInBounds_eq_of_size_le (Nat.le_of_not_lt outside)).symm

@[simp]
theorem size_setIndex (ram : Ram) (index : Nat) (value : Word) :
    (ram.setIndex index value).size = ram.size := by
  simp [size]

theorem read_setIndex (ram : Ram) (written : Nat) (value : Word) (address : Address) :
    (ram.setIndex written value).read address =
      if written = address.index ∧ written < ram.size then .ok value
      else ram.read address := by
  unfold read size
  by_cases inside : address.index < ram.words.size
  · by_cases same : written = address.index
    · subst same
      simp [inside]
    · simp [inside, same]
  · by_cases same : written = address.index
    · subst same
      simp [inside]
    · simp [inside, same]

theorem read_eq_error_iff (ram : Ram) (address : Address) (error : RamError) :
    ram.read address = .error error ↔ ram.size ≤ address.index ∧ error = ⟨address⟩ := by
  unfold read size
  by_cases inside : address.index < ram.words.size
  · simp [inside, Nat.not_le_of_lt inside]
  · simp [inside, Nat.le_of_not_lt inside, eq_comm]

theorem read_setIndex_self {ram : Ram} {address : Address}
    (inside : address.index < ram.size) (value : Word) :
    (ram.setIndex address.index value).read address = .ok value := by
  rw [read_setIndex, if_pos ⟨rfl, inside⟩]

end Ram
end ReversibleMips
