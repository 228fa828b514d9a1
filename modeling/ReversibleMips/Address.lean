import ReversibleMips.Text.Numeral

/-!
# Addresses

An address is a byte offset into the thirty-two-bit address space that falls on
a word boundary.  Moving an address counts in words and is exact: a move that
would leave the address space fails instead of wrapping around.
-/

namespace ReversibleMips

/-- Why an address cannot be formed. -/
inductive AddressError where
  /-- A byte offset between two words. -/
  | misaligned (value : UInt32)
  | misalignedOffset (bytes : Int)
  /-- A place before the first or after the last word of the address space. -/
  | outside
deriving DecidableEq

namespace AddressError

def message : AddressError → String
  | misaligned value =>
      "address must be a multiple of four: " ++ Text.hexWord value.toNat
  | misalignedOffset bytes =>
      "address must be a multiple of four: offset " ++ toString bytes
  | outside => "address is outside of 0x00000000..0xffffffff"

end AddressError

/-- A word-aligned byte offset. -/
@[ext]
structure Address where
  value : UInt32
  aligned : value.toNat % 4 = 0
deriving DecidableEq

namespace Address

def zero : Address := ⟨0, rfl⟩

instance : Inhabited Address := ⟨zero⟩

def index (address : Address) : Nat :=
  address.value.toNat / 4

def maxIndex : Nat := 0x3fffffff

/-- The address with an index, counted modulo the number of words of the
address space. -/
def ofNat (index : Nat) : Address :=
  ⟨UInt32.ofNat (4 * index), by
    simp only [UInt32.toNat_ofNat']
    omega⟩

def ofValue (value : UInt32) : Except AddressError Address :=
  if aligned : value.toNat % 4 = 0 then
    .ok ⟨value, aligned⟩
  else
    .error (.misaligned value)

def ofIndex : Int → Except AddressError Address
  | .ofNat index => if index ≤ maxIndex then .ok (ofNat index) else .error .outside
  | .negSucc _ => .error .outside

/-- Move forward by a number of words, or backward by a negative one. -/
def add (address : Address) (words : Int) : Except AddressError Address :=
  ofIndex (address.index + words)

/-- Move backward by a number of words, or forward by a negative one. -/
def sub (address : Address) (words : Int) : Except AddressError Address :=
  ofIndex (address.index - words)

/-- Move forward by as many words as lie before another address. -/
def addAddress (address other : Address) : Except AddressError Address :=
  address.add other.index

/-- Move backward by as many words as lie before another address. -/
def subAddress (address other : Address) : Except AddressError Address :=
  address.sub other.index

/-- Move by a number of bytes, which has to be a number of words. -/
def shift (address : Address) (bytes : Int) : Except AddressError Address :=
  if bytes % 4 = 0 then
    address.add (bytes / 4)
  else
    .error (.misalignedOffset bytes)

def text (address : Address) : String :=
  Text.hexWord address.value.toNat

def hex (address : Address) : String :=
  Text.hex address.value.toNat

def binary (address : Address) : String :=
  Text.binaryWord address.value.toNat

theorem four_mul_index (address : Address) : 4 * address.index = address.value.toNat := by
  have aligned := address.aligned
  unfold index
  omega

theorem index_le_maxIndex (address : Address) : address.index ≤ maxIndex := by
  have bounded := address.value.toNat_lt
  unfold index maxIndex
  omega

theorem index_ofNat {index : Nat} (inside : index ≤ maxIndex) : (ofNat index).index = index := by
  have bounded : 4 * index < 2 ^ 32 := by
    unfold maxIndex at inside
    omega
  simp only [Address.index, ofNat, UInt32.toNat_ofNat', Nat.mod_eq_of_lt bounded]
  omega

@[simp]
theorem ofNat_index (address : Address) : ofNat address.index = address := by
  apply Address.ext
  apply UInt32.toNat_inj.mp
  have bounded := address.value.toNat_lt
  simp only [ofNat, UInt32.toNat_ofNat', four_mul_index, Nat.mod_eq_of_lt bounded]

@[simp]
theorem ofIndex_index (address : Address) : ofIndex address.index = .ok address := by
  have inside := address.index_le_maxIndex
  simp [ofIndex, inside]

theorem toNat_ofNat {index : Nat} (inside : index ≤ maxIndex) :
    (ofNat index).value.toNat = 4 * index := by
  rw [← four_mul_index, index_ofNat inside]

theorem add_eq_ofNat {address : Address} {words : Int} {index : Nat}
    (sum : address.index + words = index) (inside : index ≤ maxIndex) :
    address.add words = .ok (ofNat index) := by
  rw [add, sum]
  simp only [ofIndex, inside, if_true]

theorem add_one_eq {address : Address} (inside : address.index < maxIndex) :
    address.add 1 = .ok (ofNat (address.index + 1)) :=
  add_eq_ofNat rfl inside

theorem ofValue_value (address : Address) : ofValue address.value = .ok address := by
  simp [ofValue, address.aligned]

end Address
end ReversibleMips
