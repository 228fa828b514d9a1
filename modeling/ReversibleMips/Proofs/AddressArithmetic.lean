import ReversibleMips.Address

/-!
# Address arithmetic

Moves of addresses are exact arithmetic on the indices of words.  A move gets to an index if and
only if the address space has it, and otherwise the address stays where it is.

An address has thirty-two bits and a count of words has sixty-four, and every move can be made
in these widths.  The room before and behind an address is compared with the count before the
byte offset is moved, so that no number that has wrapped around decides over a move.
-/

namespace ReversibleMips
namespace Address

theorem ofIndex_eq_ok_iff (index : Int) (place : Address) :
    ofIndex index = .ok place ↔ (place.index : Int) = index := by
  constructor
  · intro found
    unfold ofIndex at found
    split at found
    · split at found
      · rename_i inside
        cases found
        rw [index_ofNat inside]
        rfl
      · cases found
    · cases found
  · rintro rfl
    exact ofIndex_index place

theorem ofIndex_of_outside {index : Int} (outside : index < 0 ∨ 0x3fffffff < index) :
    ofIndex index = .error .outside := by
  cases index with
  | ofNat number =>
      have beyond : ¬ number ≤ maxIndex := by
        rw [Int.ofNat_eq_natCast] at outside
        unfold maxIndex
        omega
      exact if_neg beyond
  | negSucc number => rfl

theorem ofIndex_natCast (index : Nat) :
    ofIndex index = if index ≤ maxIndex then .ok (ofNat index) else .error .outside :=
  rfl

theorem add_natCast (address : Address) (words : Nat) :
    address.add words =
      if address.index + words ≤ maxIndex then .ok (ofNat (address.index + words))
      else .error .outside := by
  rw [add, ← Int.natCast_add, ofIndex_natCast]

theorem add_eq_ok_iff (address place : Address) (words : Int) :
    address.add words = .ok place ↔ (place.index : Int) = address.index + words :=
  ofIndex_eq_ok_iff _ _

theorem sub_eq_ok_iff (address place : Address) (words : Int) :
    address.sub words = .ok place ↔ (place.index : Int) = address.index - words :=
  ofIndex_eq_ok_iff _ _

theorem shift_of_dvd (address : Address) {bytes : Int} (even : 4 ∣ bytes) :
    address.shift bytes = address.add (bytes / 4) :=
  if_pos (by omega)

theorem shift_of_not_dvd (address : Address) {bytes : Int} (uneven : ¬ 4 ∣ bytes) :
    address.shift bytes = .error (.misalignedOffset bytes) :=
  if_neg (by omega)

theorem error_of_add {address : Address} {words : Int} {error : AddressError}
    (fails : address.add words = .error error) : error = .outside := by
  unfold add ofIndex at fails
  split at fails
  · split at fails
    · cases fails
    · exact (Except.error.inj fails).symm
  · exact (Except.error.inj fails).symm

/-- What a move leaves: the place of the address, and the error if it is not where it should
be. -/
structure Move where
  place : Address
  error : Option AddressError
deriving DecidableEq

namespace Move

def ofResult (address : Address) : Except AddressError Address → Move
  | .ok place => ⟨place, none⟩
  | .error error => ⟨address, some error⟩

theorem error_ofResult (address : Address) (result : Except AddressError Address)
    (error : AddressError) :
    (ofResult address result).error = some error ↔ result = .error error := by
  cases result with
  | ok place => simp [ofResult]
  | error cause => simp [ofResult]

theorem place_ofResult {address : Address} {result : Except AddressError Address}
    (fails : (ofResult address result).error ≠ none) :
    (ofResult address result).place = address := by
  cases result with
  | ok place => exact absurd rfl fails
  | error cause => rfl

/-- A move to an index is exact: it succeeds if and only if the address space has the index,
and gets there; otherwise it does nothing. -/
structure Exact (address : Address) (target : Int) (move : Move) : Prop where
  succeeds : move.error = none ↔ 0 ≤ target ∧ target ≤ 0x3fffffff
  index : move.error = none → (move.place.index : Int) = target
  value : move.error = none → (move.place.value.toNat : Int) = 4 * target
  stays : move.error ≠ none → move.error = some .outside ∧ move.place = address

theorem exact_ofResult (address : Address) (target : Int) :
    (ofResult address (ofIndex target)).Exact address target := by
  by_cases inside : 0 ≤ target ∧ target ≤ 0x3fffffff
  · have small : target.toNat ≤ maxIndex := by
      unfold maxIndex
      omega
    have index : ((ofNat target.toNat).index : Int) = target := by
      rw [index_ofNat small]
      omega
    have value := four_mul_index (ofNat target.toNat)
    rw [(ofIndex_eq_ok_iff target (ofNat target.toNat)).mpr index]
    refine ⟨?_, fun _ => index, fun _ => ?_, fun fails => absurd rfl fails⟩
    · exact ⟨fun _ => inside, fun _ => rfl⟩
    · change ((ofNat target.toNat).value.toNat : Int) = 4 * target
      omega
  · have fails : ¬ (ofResult address (.error .outside)).error = none := Option.some_ne_none _
    rw [ofIndex_of_outside (by omega)]
    refine ⟨?_, fun succeeds => absurd succeeds fails, fun succeeds => absurd succeeds fails,
      fun _ => ⟨rfl, rfl⟩⟩
    exact ⟨fun succeeds => absurd succeeds fails, fun within => absurd within inside⟩

end Move

namespace FixedWidth

def wordIndex (address : Address) : Int64 := (address.value / 4).toUInt64.toInt64

/-- The amount of a negative count.  The least count has no counterpart, so that one is added
before the sign changes and again when there is no sign any more. -/
def magnitude (words : Int64) : UInt64 := (-(words + 1)).toUInt64 + 1

def bytes (words : UInt64) : UInt32 := words.toUInt32 * 4

/-- A count is read from its sixty-four bits in two's complement. -/
theorem toInt_eq_bits (count : Int64) :
    count.toInt =
      if count.toUInt64.toNat < 0x8000000000000000 then (count.toUInt64.toNat : Int)
      else count.toUInt64.toNat - 0x10000000000000000 := by
  have reading := BitVec.toInt_eq_toNat_cond count.toBitVec
  change count.toInt = if 2 * count.toUInt64.toNat < 2 ^ 64 then (count.toUInt64.toNat : Int)
    else count.toUInt64.toNat - (2 ^ 64 : Nat) at reading
  rw [reading]
  split
  · rw [if_pos (by omega)]
  · rw [if_neg (by omega)]
    rfl

theorem toNat_of_nonneg {count : Int64} (nonneg : ¬ count < 0) :
    (count.toUInt64.toNat : Int) = count.toInt := by
  have above : ¬ count.toInt < 0 := fun below => nonneg (Int64.lt_iff_toInt_lt.mpr below)
  have bounded := count.toUInt64.toNat_lt
  have reading := toInt_eq_bits count
  split at reading
  · exact reading.symm
  · omega

theorem toNat_magnitude {words : Int64} (negative : words < 0) :
    ((magnitude words).toNat : Int) = -words.toInt := by
  have below : words.toInt < 0 := Int64.lt_iff_toInt_lt.mp negative
  have least := words.le_toInt
  have next : (words + 1).toInt = words.toInt + 1 := by
    have one : (1 : Int64).toInt = 1 := rfl
    rw [Int64.toInt_add, one]
    exact Int.bmod_eq_of_le (by omega) (by omega)
  have opposite : (-(words + 1)).toInt = -(words.toInt + 1) := by
    rw [Int64.toInt_neg, next]
    exact Int.bmod_eq_of_le (by omega) (by omega)
  have nonneg : ¬ -(words + 1) < 0 := by
    rw [Int64.lt_iff_toInt_lt, opposite]
    change ¬ -(words.toInt + 1) < 0
    omega
  have distance := toNat_of_nonneg nonneg
  rw [magnitude, UInt64.toNat_add]
  change (((_ + 1) % 2 ^ 64 : Nat) : Int) = _
  omega

theorem toNat_wordIndex (address : Address) :
    (wordIndex address).toUInt64.toNat = address.index := by
  rw [wordIndex, UInt64.toUInt64_toInt64, UInt32.toNat_toUInt64, UInt32.toNat_div]
  rfl

theorem toInt_wordIndex (address : Address) : (wordIndex address).toInt = address.index := by
  have small := address.index_le_maxIndex
  unfold maxIndex at small
  rw [toInt_eq_bits, toNat_wordIndex, if_pos (by omega)]

theorem toNat_bytes (words : UInt64) : (bytes words).toNat = 4 * words.toNat % 0x100000000 := by
  rw [bytes, UInt32.toNat_mul, UInt64.toNat_toUInt32]
  change words.toNat % 2 ^ 32 * 4 % 2 ^ 32 = _
  omega

theorem aligned_bytes (words : UInt64) : (bytes words).toNat % 4 = 0 := by
  rw [toNat_bytes]
  omega

theorem aligned_add (address : Address) (words : UInt64) :
    (address.value + bytes words).toNat % 4 = 0 := by
  have before := address.aligned
  have moved := aligned_bytes words
  rw [UInt32.toNat_add]
  omega

theorem aligned_sub (address : Address) (words : UInt64) :
    (address.value - bytes words).toNat % 4 = 0 := by
  have before := address.aligned
  have moved := aligned_bytes words
  rw [UInt32.toNat_sub]
  omega

def ofIndex (index : Int64) : Move :=
  if index < 0 ∨ 0x3fffffff < index then
    ⟨.zero, some .outside⟩
  else
    ⟨⟨bytes index.toUInt64, aligned_bytes index.toUInt64⟩, none⟩

def forward (address : Address) (words : UInt64) : Move :=
  if 0x3fffffff - (wordIndex address).toUInt64 < words then
    ⟨address, some .outside⟩
  else
    ⟨⟨address.value + bytes words, aligned_add address words⟩, none⟩

def backward (address : Address) (words : UInt64) : Move :=
  if (wordIndex address).toUInt64 < words then
    ⟨address, some .outside⟩
  else
    ⟨⟨address.value - bytes words, aligned_sub address words⟩, none⟩

def add (address : Address) (words : Int64) : Move :=
  if words < 0 then backward address (magnitude words) else forward address words.toUInt64

def sub (address : Address) (words : Int64) : Move :=
  if words < 0 then forward address (magnitude words) else backward address words.toUInt64

def addAddress (address other : Address) : Move := add address (wordIndex other)

def subAddress (address other : Address) : Move := sub address (wordIndex other)

def shift (address : Address) (count : Int64) : Move :=
  if count % 4 ≠ 0 then ⟨address, some (.misalignedOffset count.toInt)⟩
  else add address (count / 4)

/-- A place that has an index is where an exact move gets to. -/
theorem move_eq {address place : Address} {target : Int}
    (reached : (place.value.toNat : Int) = 4 * target) :
    (⟨place, none⟩ : Move) = .ofResult address (Address.ofIndex target) := by
  have value := place.four_mul_index
  rw [(ofIndex_eq_ok_iff target place).mpr (by omega)]
  rfl

theorem ofIndex_eq (index : Int64) :
    ofIndex index = .ofResult .zero (Address.ofIndex index.toInt) := by
  unfold ofIndex
  have limit : (0x3fffffff : Int64).toInt = 0x3fffffff := rfl
  by_cases outside : index < 0 ∨ 0x3fffffff < index
  · rw [if_pos outside]
    rw [Int64.lt_iff_toInt_lt, Int64.lt_iff_toInt_lt, limit] at outside
    rw [ofIndex_of_outside outside]
    rfl
  · rw [if_neg outside]
    rw [not_or] at outside
    obtain ⟨nonneg, small⟩ := outside
    rw [Int64.lt_iff_toInt_lt, limit] at small
    have number := toNat_of_nonneg nonneg
    apply move_eq
    rw [toNat_bytes]
    omega

theorem forward_eq (address : Address) (words : UInt64) :
    forward address words =
      .ofResult address (Address.ofIndex (address.index + words.toNat)) := by
  have fits := address.index_le_maxIndex
  have value := address.four_mul_index
  unfold maxIndex at fits
  have room : (0x3fffffff - (wordIndex address).toUInt64).toNat = 0x3fffffff - address.index := by
    have limit : (0x3fffffff : UInt64).toNat = 0x3fffffff := rfl
    have within : (wordIndex address).toUInt64 ≤ 0x3fffffff := by
      rw [UInt64.le_iff_toNat_le, toNat_wordIndex]
      exact fits
    rw [UInt64.toNat_sub_of_le _ _ within, toNat_wordIndex, limit]
  unfold forward
  by_cases far : 0x3fffffff - (wordIndex address).toUInt64 < words
  · rw [if_pos far]
    rw [UInt64.lt_iff_toNat_lt, room] at far
    rw [ofIndex_of_outside (by omega)]
    rfl
  · rw [if_neg far]
    rw [UInt64.lt_iff_toNat_lt, room] at far
    apply move_eq
    rw [UInt32.toNat_add, toNat_bytes]
    omega

theorem backward_eq (address : Address) (words : UInt64) :
    backward address words =
      .ofResult address (Address.ofIndex (address.index - words.toNat)) := by
  have fits := address.index_le_maxIndex
  have value := address.four_mul_index
  unfold maxIndex at fits
  unfold backward
  by_cases far : (wordIndex address).toUInt64 < words
  · rw [if_pos far]
    rw [UInt64.lt_iff_toNat_lt, toNat_wordIndex] at far
    rw [ofIndex_of_outside (by omega)]
    rfl
  · rw [if_neg far]
    rw [UInt64.lt_iff_toNat_lt, toNat_wordIndex] at far
    apply move_eq
    rw [UInt32.toNat_sub, toNat_bytes]
    omega

theorem add_eq (address : Address) (words : Int64) :
    add address words = .ofResult address (address.add words.toInt) := by
  unfold add Address.add
  by_cases negative : words < 0
  · rw [if_pos negative, backward_eq, toNat_magnitude negative, Int.sub_neg]
  · rw [if_neg negative, forward_eq, toNat_of_nonneg negative]

theorem sub_eq (address : Address) (words : Int64) :
    sub address words = .ofResult address (address.sub words.toInt) := by
  unfold sub Address.sub
  by_cases negative : words < 0
  · rw [if_pos negative, forward_eq, toNat_magnitude negative, ← Int.sub_eq_add_neg]
  · rw [if_neg negative, backward_eq, toNat_of_nonneg negative]

theorem addAddress_eq (address other : Address) :
    addAddress address other = .ofResult address (address.addAddress other) := by
  rw [addAddress, add_eq, toInt_wordIndex, Address.addAddress]

theorem subAddress_eq (address other : Address) :
    subAddress address other = .ofResult address (address.subAddress other) := by
  rw [subAddress, sub_eq, toInt_wordIndex, Address.subAddress]

theorem shift_eq (address : Address) (count : Int64) :
    shift address count = .ofResult address (address.shift count.toInt) := by
  have remainder : (count % 4).toInt = count.toInt.tmod 4 := Int64.toInt_mod count 4
  have quotient : (count / 4).toInt = count.toInt.tdiv 4 :=
    Int64.toInt_div_of_ne_right count 4 (by decide)
  have whole : count % 4 = 0 ↔ 4 ∣ count.toInt := by
    rw [← Int64.toInt_inj, remainder, Int.dvd_iff_tmod_eq_zero]
    rfl
  unfold shift
  by_cases even : 4 ∣ count.toInt
  · have isZero : ¬ count % 4 ≠ 0 := fun uneven => uneven (whole.mpr even)
    rw [if_neg isZero, add_eq, quotient, Int.tdiv_eq_ediv_of_dvd even, shift_of_dvd address even]
  · have notZero : count % 4 ≠ 0 := fun isWhole => even (whole.mp isWhole)
    rw [if_pos notZero, shift_of_not_dvd address even]
    rfl

end FixedWidth

/-- Address arithmetic is exact, for every count of sixty-four bits, the least and the greatest
included.  Made in fixed width, each move is the exact one: it succeeds if and only if the index
that it leads to lies in the address space, and otherwise returns the address that it started
from.  Moves undo each other, and addresses and indices belong together one by one. -/
theorem moves_exact (address other : Address) (count : Int64) :
    let added := FixedWidth.add address count
    let subtracted := FixedWidth.sub address count
    let shifted := FixedWidth.shift address count
    let joined := FixedWidth.addAddress address other
    let parted := FixedWidth.subAddress address other
    let indexed := FixedWidth.ofIndex count
    (added = .ofResult address (address.add count.toInt) ∧
      added.Exact address (address.index + count.toInt)) ∧
    (subtracted = .ofResult address (address.sub count.toInt) ∧
      subtracted.Exact address (address.index - count.toInt)) ∧
    (∀ place, address.add count.toInt = .ok place ↔ place.sub count.toInt = .ok address) ∧
    (shifted = .ofResult address (address.shift count.toInt) ∧
      (shifted.error = some (.misalignedOffset count.toInt) ↔ ¬ 4 ∣ count.toInt) ∧
      (shifted.error ≠ none → shifted.place = address) ∧
      (4 ∣ count.toInt → address.shift count.toInt = address.add (count.toInt / 4))) ∧
    (joined = .ofResult address (address.addAddress other) ∧
      joined = FixedWidth.add address (FixedWidth.wordIndex other) ∧
      joined.Exact address (address.index + other.index) ∧
      address.addAddress other = other.addAddress address) ∧
    (parted = .ofResult address (address.subAddress other) ∧
      parted = FixedWidth.sub address (FixedWidth.wordIndex other) ∧
      parted.Exact address (address.index - other.index)) ∧
    (indexed = .ofResult .zero (ofIndex count.toInt) ∧ indexed.Exact .zero count.toInt) ∧
    (FixedWidth.wordIndex address).toInt = address.index ∧
    FixedWidth.ofIndex (FixedWidth.wordIndex address) = ⟨address, none⟩ := by
  intro added subtracted shifted joined parted indexed
  have addedEq : added = _ := FixedWidth.add_eq address count
  have subtractedEq : subtracted = _ := FixedWidth.sub_eq address count
  have shiftedEq : shifted = _ := FixedWidth.shift_eq address count
  have joinedEq : joined = _ := FixedWidth.addAddress_eq address other
  have partedEq : parted = _ := FixedWidth.subAddress_eq address other
  have indexedEq : indexed = _ := FixedWidth.ofIndex_eq count
  refine ⟨⟨addedEq, ?_⟩, ⟨subtractedEq, ?_⟩, fun place => ?_, ⟨shiftedEq, ?_, ?_, ?_⟩,
    ⟨joinedEq, rfl, ?_, ?_⟩, ⟨partedEq, rfl, ?_⟩, ⟨indexedEq, ?_⟩,
    FixedWidth.toInt_wordIndex address, ?_⟩
  · exact addedEq ▸ Move.exact_ofResult address _
  · exact subtractedEq ▸ Move.exact_ofResult address _
  · rw [add_eq_ok_iff, sub_eq_ok_iff]
    omega
  · rw [shiftedEq, Move.error_ofResult]
    refine ⟨fun fails even => ?_, shift_of_not_dvd address⟩
    rw [shift_of_dvd address even] at fails
    exact nomatch error_of_add fails
  · rw [shiftedEq]
    exact Move.place_ofResult
  · exact fun even => shift_of_dvd address even
  · exact joinedEq ▸ Move.exact_ofResult address _
  · rw [addAddress, addAddress, add, add, Int.add_comm]
  · exact partedEq ▸ Move.exact_ofResult address _
  · exact indexedEq ▸ Move.exact_ofResult .zero _
  · rw [FixedWidth.ofIndex_eq, FixedWidth.toInt_wordIndex, ofIndex_index]
    rfl

/-- The least count leads out of the address space, as a number of words and also as a number of
bytes.  The longest move that succeeds goes from one end of the address space to the other. -/
theorem moves_exact_extreme :
    ((FixedWidth.add (.ofNat 0x40) Int64.minValue).error = some .outside ∧
      (FixedWidth.add (.ofNat 0x40) Int64.minValue).place = .ofNat 0x40) ∧
    (4 ∣ Int64.minValue.toInt ∧
      (ofNat 0x40).shift Int64.minValue.toInt = (ofNat 0x40).add (-0x2000000000000000)) ∧
    ((FixedWidth.add (.ofNat 0x3fffffff) (-0x3fffffff)).error = none ∧
      (FixedWidth.add (.ofNat 0x3fffffff) (-0x3fffffff)).place.index = 0) := by
  obtain ⟨⟨-, least⟩, -, -, ⟨-, -, -, whole⟩, -⟩ :=
    moves_exact (.ofNat 0x40) (.ofNat 0x3fffffff) Int64.minValue
  obtain ⟨⟨-, across⟩, -⟩ := moves_exact (.ofNat 0x3fffffff) (.ofNat 0x40) (-0x3fffffff)
  have fails : (FixedWidth.add (.ofNat 0x40) Int64.minValue).error ≠ none := by
    rw [ne_eq, least.succeeds]
    decide
  have even : 4 ∣ Int64.minValue.toInt := by decide
  have succeeds : (FixedWidth.add (.ofNat 0x3fffffff) (-0x3fffffff)).error = none :=
    across.succeeds.mpr (by decide)
  exact ⟨least.stays fails, ⟨even, whole even⟩, succeeds,
    Int.ofNat_eq_zero.mp (across.index succeeds)⟩

end Address
end ReversibleMips
