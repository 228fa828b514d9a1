import ReversibleMips.Proofs.Decoding
import ReversibleMips.Ram

/-!
# Coherent memory

Memory keeps decoded instructions in a map beside its words.  It is coherent if the map
has an entry for exactly the words that are not zero, and the entry is what the word
decodes to.  Blank memory is coherent and every write keeps it so, however many there
are.  In coherent memory fetching an instruction is the same as decoding the word that is
there, and the words alone determine all of memory.
-/

namespace ReversibleMips
namespace Ram

def kept (index : Nat) (word : Word) : Option Instruction :=
  if word = 0 then none else some (.decode word (.ofNat index))

theorem kept_getD (address : Address) (word : Word) :
    (kept address.index word).getD (.decode 0 address) = .decode word address := by
  unfold kept
  split
  · rename_i isZero
    rw [isZero, Option.getD_none]
  · rw [Option.getD_some, Address.ofNat_index]

/-- The map of decoded instructions has for each word what has to be kept for it, and
nothing else. -/
def Coherent (ram : Ram) : Prop :=
  ∀ index, ram.code[index]? = ram.words[index]?.bind (kept index)

theorem coherent_ofSize (size : Nat) : (ofSize size).Coherent := by
  intro index
  simp only [ofSize, Std.ExtTreeMap.getElem?_empty, Array.getElem?_replicate]
  split
  · rfl
  · rfl

theorem code_setIndex {ram : Ram} {written : Nat} (inside : written < ram.size)
    (value : Word) (index : Nat) :
    (ram.setIndex written value).code[index]? =
      if written = index then kept index value else ram.code[index]? := by
  unfold setIndex kept
  rw [if_pos inside]
  by_cases isZero : value = 0
  · simp [isZero, Std.ExtTreeMap.getElem?_erase]
  · by_cases same : written = index
    · simp [isZero, same]
    · simp [isZero, same, Std.ExtTreeMap.getElem?_insert]

theorem Coherent.setIndex {ram : Ram} (coherent : ram.Coherent) (written : Nat)
    (value : Word) : (ram.setIndex written value).Coherent := by
  intro index
  by_cases inside : written < ram.size
  · rw [code_setIndex inside, words_setIndex, Array.getElem?_setIfInBounds, coherent index]
    by_cases same : written = index
    · have insideWords : index < ram.words.size := same ▸ inside
      simp [same, insideWords]
    · simp [same]
  · have unchanged : ram.setIndex written value = ram := if_neg inside
    rw [unchanged]
    exact coherent index

/-- A memory that comes from another by some writes. -/
inductive Written (ram : Ram) : Ram → Prop
  | same : Written ram ram
  | setIndex {later : Ram} (written : Written ram later) (index : Nat) (value : Word) :
      Written ram (later.setIndex index value)

theorem Written.trans {first second third : Ram} (before : Written first second)
    (after : Written second third) : Written first third := by
  induction after with
  | same => exact before
  | setIndex _ index value ih => exact ih.setIndex index value

theorem Written.size_eq {ram later : Ram} (written : Written ram later) :
    later.size = ram.size := by
  induction written with
  | same => rfl
  | setIndex _ index value ih => rw [size_setIndex, ih]

theorem Written.coherent {ram later : Ram} (written : Written ram later)
    (coherent : ram.Coherent) : later.Coherent := by
  induction written with
  | same => exact coherent
  | setIndex _ index value ih => exact ih.setIndex index value

/-- Coherent memories with the same words are the same. -/
theorem Coherent.eq_of_words {first second : Ram} (firstCoherent : first.Coherent)
    (secondCoherent : second.Coherent) (words : first.words = second.words) :
    first = second := by
  apply Ram.ext words
  apply Std.ExtTreeMap.ext_getElem?
  intro index
  rw [firstCoherent index, secondCoherent index, words]

/-- In coherent memory the instruction that is kept is the one that decoding the word
would give. -/
theorem Coherent.instruction_eq {ram : Ram} (coherent : ram.Coherent) (address : Address) :
    ram.instruction address =
      (ram.read address).map fun word => Instruction.decode word address := by
  unfold instruction read
  by_cases inside : address.index < ram.words.size
  · have insideSize : address.index < ram.size := inside
    rw [if_pos insideSize, dif_pos inside, coherent, Array.getElem?_eq_getElem inside,
      Option.bind_some, kept_getD]
    rfl
  · have outside : ¬ address.index < ram.size := inside
    rw [if_neg outside, dif_neg inside]
    rfl

/-- In coherent memory every word can be fetched as what it decodes to. -/
theorem Coherent.exists_instruction {ram : Ram} (coherent : ram.Coherent) {address : Address}
    (inside : address.index < ram.size) :
    ∃ word, ram.read address = .ok word ∧
      ram.instruction address = .ok (.decode word address) := by
  have insideWords : address.index < ram.words.size := inside
  refine ⟨_, dif_pos insideWords, ?_⟩
  rw [coherent.instruction_eq, read, dif_pos insideWords]
  rfl

theorem lt_size_of_read {ram : Ram} {address : Address} {word : Word}
    (found : ram.read address = .ok word) : address.index < ram.size := by
  apply Nat.lt_of_not_le
  intro outside
  have failed : ram.read address = .error ⟨address⟩ :=
    (ram.read_eq_error_iff address ⟨address⟩).mpr ⟨outside, rfl⟩
  rw [failed] at found
  cases found

theorem getElem?_of_read {ram : Ram} {address : Address} {word : Word}
    (found : ram.read address = .ok word) : ram.words[address.index]? = some word := by
  have inside : address.index < ram.words.size := lt_size_of_read found
  rw [read, dif_pos inside] at found
  rw [Array.getElem?_eq_getElem inside, Except.ok.inj found]

/-- Writing back the word that was there before a write gives back the whole memory, the
decoded instructions included. -/
theorem Coherent.setIndex_setIndex {ram : Ram} (coherent : ram.Coherent)
    {address : Address} {prior : Word} (found : ram.read address = .ok prior)
    (value : Word) :
    (ram.setIndex address.index value).setIndex address.index prior = ram := by
  apply ((coherent.setIndex _ value).setIndex _ prior).eq_of_words coherent
  rw [words_setIndex, words_setIndex, Array.setIfInBounds_setIfInBounds]
  apply Array.ext_getElem?
  intro index
  rw [Array.getElem?_setIfInBounds]
  by_cases same : address.index = index
  · have inside : address.index < ram.words.size := lt_size_of_read found
    rw [if_pos same, if_pos inside, ← same, getElem?_of_read found]
  · rw [if_neg same]

end Ram
end ReversibleMips
