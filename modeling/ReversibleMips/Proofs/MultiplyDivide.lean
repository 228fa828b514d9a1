import ReversibleMips.Emulator.Load
import ReversibleMips.Proofs.StepCases

/-!
# Multiplication and division

The product of two words fits in two words, read as signed numbers and also as unsigned ones.
Both readings have the same low word, and their high words differ by the operands whose partner
is negative.  A division rounds toward zero, so that the remainder is smaller than the divisor
and has the sign of the dividend.  There is one quotient that does not fit in a word: that of
the least number and minus one, which wraps around to the least number.
-/

namespace ReversibleMips

namespace Word

def pair (high low : Word) : Nat := high.toNat * 0x100000000 + low.toNat

def signedPair (high low : Word) : Int := (UInt64.ofNat (pair high low)).toInt64.toInt

/-- A number of sixty-four bits is put together from its halves. -/
theorem signedPair_halves {value : Int} (least : -0x8000000000000000 ≤ value)
    (greatest : value < 0x8000000000000000) :
    signedPair (UInt32.ofInt (value / 0x100000000)) (UInt32.ofInt value) = value := by
  have bits : ((pair (UInt32.ofInt (value / 0x100000000)) (UInt32.ofInt value) : Nat) : Int) =
      value % 0x10000000000000000 := by
    have high := toNat_ofInt (value / 0x100000000)
    have low := toNat_ofInt value
    unfold pair
    omega
  have width : ((Int64.size : Nat) : Int) = 0x10000000000000000 := rfl
  rw [signedPair, UInt64.toInt64_ofNat', Int64.toInt_ofNat', bits, ← width, Int.emod_bmod]
  apply Int.bmod_eq_of_le
  · rw [width]
    omega
  · rw [width]
    omega

theorem natAbs_toInt32_le (word : Word) : word.toInt32.toInt.natAbs ≤ 0x80000000 := by
  have bounded := word.toNat_lt
  rw [toInt_toInt32]
  split
  · omega
  · omega

/-- The product of two numbers of thirty-two bits does not leave those of sixty-four. -/
theorem natAbs_product_le (s t : Word) :
    (s.toInt32.toInt * t.toInt32.toInt).natAbs ≤ 0x4000000000000000 := by
  rw [Int.natAbs_mul]
  exact Nat.mul_le_mul (natAbs_toInt32_le s) (natAbs_toInt32_le t)

theorem signedPair_product (s t : Word) :
    let product := s.toInt32.toInt * t.toInt32.toInt
    signedPair (UInt32.ofInt (product / 0x100000000)) (UInt32.ofInt product) = product := by
  intro product
  have bounded : product.natAbs ≤ 0x4000000000000000 := natAbs_product_le s t
  exact signedPair_halves (by omega) (by omega)

theorem pair_product (s t : Word) :
    let product := s.toNat * t.toNat
    pair (UInt32.ofNat (product / 0x100000000)) (UInt32.ofNat product) = product := by
  intro product
  have bounded : product ≤ 0xffffffff * 0xffffffff :=
    Nat.mul_le_mul (Nat.le_of_lt_succ s.toNat_lt) (Nat.le_of_lt_succ t.toNat_lt)
  rw [pair, UInt32.toNat_ofNat', UInt32.toNat_ofNat']
  omega

/-- What a negative operand takes away from the high word of an unsigned product. -/
def correction (operand partner : Word) : Word := if operand.toInt32 < 0 then partner else 0

theorem toInt32_neg_iff (word : Word) : word.toInt32 < 0 ↔ 0x80000000 ≤ word.toNat := by
  have bounded := word.toNat_lt
  rw [Int32.lt_iff_toInt_lt, toInt_toInt32]
  change _ < (0 : Int) ↔ _
  split
  · omega
  · omega

/-- A negative number is its word less the number of all words, so that the product loses a
multiple of that number for each negative operand. -/
theorem signed_product_eq (s t : Word) :
    ∃ wraps : Int, s.toInt32.toInt * t.toInt32.toInt =
      (s.toNat * t.toNat : Nat) -
        0x100000000 * ((correction s t).toNat + (correction t s).toNat) +
        0x10000000000000000 * wraps := by
  have zero : (0 : Word).toNat = 0 := rfl
  rw [toInt_toInt32, toInt_toInt32, Int.natCast_mul]
  unfold correction
  simp only [toInt32_neg_iff]
  by_cases sNegative : 0x80000000 ≤ s.toNat
  · rw [if_neg (by omega), if_pos sNegative]
    by_cases tNegative : 0x80000000 ≤ t.toNat
    · rw [if_neg (by omega), if_pos tNegative, Int.sub_mul, Int.mul_sub]
      exact ⟨1, by omega⟩
    · rw [if_pos (by omega), if_neg tNegative, Int.sub_mul, zero]
      exact ⟨0, by omega⟩
  · rw [if_pos (by omega), if_neg sNegative]
    by_cases tNegative : 0x80000000 ≤ t.toNat
    · rw [if_neg (by omega), if_pos tNegative, Int.mul_sub, zero]
      exact ⟨0, by omega⟩
    · rw [if_pos (by omega), if_neg tNegative, zero]
      exact ⟨0, by omega⟩

theorem low_product_eq (s t : Word) :
    UInt32.ofInt (s.toInt32.toInt * t.toInt32.toInt) = UInt32.ofNat (s.toNat * t.toNat) := by
  obtain ⟨wraps, product⟩ := signed_product_eq s t
  have low := toNat_ofInt (s.toInt32.toInt * t.toInt32.toInt)
  apply UInt32.toNat_inj.mp
  rw [UInt32.toNat_ofNat']
  omega

theorem high_product_eq (s t : Word) :
    UInt32.ofInt (s.toInt32.toInt * t.toInt32.toInt / 0x100000000) =
      UInt32.ofNat (s.toNat * t.toNat / 0x100000000) - correction s t - correction t s := by
  obtain ⟨wraps, product⟩ := signed_product_eq s t
  have high := toNat_ofInt (s.toInt32.toInt * t.toInt32.toInt / 0x100000000)
  have sBound := (correction s t).toNat_lt
  have tBound := (correction t s).toNat_lt
  apply UInt32.toNat_inj.mp
  rw [UInt32.toNat_sub, UInt32.toNat_sub, UInt32.toNat_ofNat']
  omega

/-- Division toward zero, with what remains. -/
structure Divides (dividend divisor quotient remainder : Int) : Prop where
  sum : dividend = quotient * divisor + remainder
  small : remainder.natAbs < divisor.natAbs
  sign : remainder = 0 ∨ remainder.sign = dividend.sign

theorem divides_tdiv (dividend : Int) {divisor : Int} (notZero : divisor ≠ 0) :
    Divides dividend divisor (dividend.tdiv divisor) (dividend.tmod divisor) := by
  constructor
  · rw [Int.mul_comm]
    exact (Int.mul_tdiv_add_tmod dividend divisor).symm
  · rw [Int.natAbs_tmod]
    exact Nat.mod_lt _ (Int.natAbs_pos.mpr notZero)
  · have sign := Int.sign_tmod dividend divisor
    split at sign
    · exact .inl (Int.sign_eq_zero_iff_zero.mp sign)
    · exact .inr sign

theorem toInt32_ne_zero {word : Word} (notZero : word ≠ 0) : word.toInt32.toInt ≠ 0 := by
  intro isZero
  have bounded := word.toNat_lt
  apply notZero
  apply UInt32.toNat_inj.mp
  change word.toNat = 0
  rw [toInt_toInt32] at isZero
  split at isZero
  · omega
  · omega

theorem divides_signed {s t : Word} (notZero : t ≠ 0)
    (fits : ¬ (s.toInt32.toInt = -0x80000000 ∧ t.toInt32.toInt = -1)) :
    Divides s.toInt32.toInt t.toInt32.toInt (s.toInt32 / t.toInt32).toInt
      (s.toInt32 % t.toInt32).toInt := by
  have quotient : (s.toInt32 / t.toInt32).toInt = s.toInt32.toInt.tdiv t.toInt32.toInt := by
    by_cases least : s.toInt32 = Int32.minValue
    · have notMinusOne : t.toInt32 ≠ -1 := by
        intro minusOne
        rw [least, minusOne] at fits
        exact fits ⟨rfl, rfl⟩
      exact Int32.toInt_div_of_ne_right _ _ notMinusOne
    · exact Int32.toInt_div_of_ne_left _ _ least
  rw [quotient, Int32.toInt_mod]
  exact divides_tdiv _ (toInt32_ne_zero notZero)

theorem divides_wrapping {s t : Word} (least : s.toInt32.toInt = -0x80000000)
    (minusOne : t.toInt32.toInt = -1) :
    (s.toInt32 / t.toInt32).toUInt32 = 0x80000000 ∧ (s.toInt32 % t.toInt32).toUInt32 = 0 := by
  have sEq : s.toInt32 = Int32.minValue := Int32.toInt_inj.mp least
  have tEq : t.toInt32 = -1 := Int32.toInt_inj.mp minusOne
  rw [sEq, tEq]
  decide

theorem divides_unsigned (s : Word) {t : Word} (notZero : t ≠ 0) :
    s.toNat = (s / t).toNat * t.toNat + (s % t).toNat ∧ (s % t).toNat < t.toNat := by
  have positive : 0 < t.toNat := by
    apply Nat.pos_of_ne_zero
    exact fun isZero => notZero (UInt32.toNat_inj.mp isZero)
  rw [UInt32.toNat_div, UInt32.toNat_mod]
  exact ⟨(Nat.div_add_mod' s.toNat t.toNat).symm, Nat.mod_lt _ positive⟩

end Word

/-- The operations with a high and a low word as their result. -/
def Op.multiplicative : List Op := [.mult, .multu, .div, .divu]

theorem Op.eq_of_mem_multiplicative {op : Op} (multiplicative : op ∈ Op.multiplicative) :
    op = .mult ∨ op = .multu ∨ op = .div ∨ op = .divu := by
  simpa [Op.multiplicative] using multiplicative

namespace Instruction

theorem effect_withPc {instruction : Instruction}
    (multiplicative : instruction.op ∈ Op.multiplicative) (machine : Machine) (pc : Address) :
    instruction.effect { machine with pc := pc } = instruction.effect machine := by
  obtain isMult | isMultu | isDiv | isDivu := Op.eq_of_mem_multiplicative multiplicative
  · simp only [effect, isMult]
  · simp only [effect, isMultu]
  · simp only [effect, isDiv]
  · simp only [effect, isDivu]

theorem writePair_of_effect {instruction : Instruction} {machine : Machine} {asked : Effect}
    (multiplicative : instruction.op ∈ Op.multiplicative)
    (found : instruction.effect machine = .ok asked) :
    ∃ high low, asked = .writePair high low := by
  obtain isMult | isMultu | isDiv | isDivu := Op.eq_of_mem_multiplicative multiplicative
  · simp only [effect, isMult] at found
    exact ⟨_, _, (Except.ok.inj found).symm⟩
  · simp only [effect, isMultu] at found
    exact ⟨_, _, (Except.ok.inj found).symm⟩
  · simp only [effect, isDiv] at found
    split at found
    · cases found
    · exact ⟨_, _, (Except.ok.inj found).symm⟩
  · simp only [effect, isDivu] at found
    split at found
    · cases found
    · exact ⟨_, _, (Except.ok.inj found).symm⟩

end Instruction

namespace Emulator

/-- An instruction has written the high and the low word of its result, and no other register. -/
structure Yields (emulator : Emulator) (instruction : Instruction) (high low : Word) : Prop where
  fault : (emulator.execute instruction).fault = none
  high : (emulator.execute instruction).emulator.registers.read .hi = high
  low : (emulator.execute instruction).emulator.registers.read .lo = low
  others : ∀ register, register ≠ .hi → register ≠ .lo →
    (emulator.execute instruction).emulator.registers.read register =
      emulator.registers.read register

theorem yields_of_effect {emulator : Emulator} {instruction : Instruction} {high low : Word}
    (found : instruction.effect emulator.toMachine = .ok (.writePair high low)) :
    Yields emulator instruction high low := by
  have done : emulator.execute instruction = emulator.perform (.writePair high low) := by
    rw [execute, found]
  have registersEq : (emulator.execute instruction).emulator.registers =
      (emulator.registers.write .hi high).write .lo low := by
    rw [done]
    rfl
  constructor
  · rw [done]
    rfl
  · rw [registersEq, Registers.read_write, if_neg (by decide), Registers.read_write,
      if_pos (by decide)]
  · rw [registersEq, Registers.read_write, if_pos (by decide)]
  · intro register notHigh notLow
    rw [registersEq, Registers.read_write, if_neg (fun same => notLow same.1),
      Registers.read_write, if_neg (fun same => notHigh same.1)]

section Operands

variable {emulator : Emulator} {instruction : Instruction} {s t : Word}
    (first : emulator.registers.read instruction.word.regS = s)
    (second : emulator.registers.read instruction.word.regT = t)
include first second

theorem yields_mult (isMult : instruction.op = .mult) :
    let product := s.toInt32.toInt * t.toInt32.toInt
    Yields emulator instruction (UInt32.ofInt (product / 0x100000000)) (UInt32.ofInt product) := by
  apply yields_of_effect
  simp only [Instruction.effect, isMult, first, second]

theorem yields_multu (isMultu : instruction.op = .multu) :
    let product := s.toNat * t.toNat
    Yields emulator instruction (UInt32.ofNat (product / 0x100000000)) (UInt32.ofNat product) := by
  apply yields_of_effect
  simp only [Instruction.effect, isMultu, first, second]

theorem yields_div (isDiv : instruction.op = .div) (notZero : t ≠ 0) :
    Yields emulator instruction (s.toInt32 % t.toInt32).toUInt32
      (s.toInt32 / t.toInt32).toUInt32 := by
  apply yields_of_effect
  simp only [Instruction.effect, isDiv, first, second, if_neg notZero]

theorem yields_divu (isDivu : instruction.op = .divu) (notZero : t ≠ 0) :
    Yields emulator instruction (s % t) (s / t) := by
  apply yields_of_effect
  simp only [Instruction.effect, isDivu, first, second, if_neg notZero]

end Operands

/-- Nothing is written by a division by zero. -/
theorem execute_of_zero {emulator : Emulator} {instruction : Instruction}
    (divides : instruction.op = .div ∨ instruction.op = .divu)
    (isZero : emulator.registers.read instruction.word.regT = 0) :
    emulator.execute instruction = ⟨emulator, [], [], some .divisionByZero⟩ := by
  have fails : instruction.effect emulator.toMachine = .error .divisionByZero := by
    obtain isDiv | isDivu := divides
    · simp only [Instruction.effect, isDiv, isZero, if_true]
    · simp only [Instruction.effect, isDivu, isZero, if_true]
  rw [execute, fails]

theorem others_of_multiplicative {emulator : Emulator} {instruction : Instruction}
    {register : Register} (multiplicative : instruction.op ∈ Op.multiplicative)
    (notHigh : register ≠ .hi) (notLow : register ≠ .lo) :
    (emulator.execute instruction).emulator.registers.read register =
      emulator.registers.read register := by
  cases found : instruction.effect emulator.toMachine with
  | error fault => rw [execute, found]
  | ok effect =>
      obtain ⟨high, low, rfl⟩ := Instruction.writePair_of_effect multiplicative found
      exact (yields_of_effect found).others register notHigh notLow

/-- The program counter has moved on when a step executes an instruction, which makes no
difference to products and quotients. -/
theorem step_of_multiplicative {emulator : Emulator} {instruction : Instruction} {next : Address}
    (multiplicative : instruction.op ∈ Op.multiplicative) (running : emulator.terminated = false)
    (fetched : emulator.ram.instruction emulator.pc = .ok instruction)
    (moved : emulator.pc.add 1 = .ok next) :
    emulator.step.emulator.registers = (emulator.execute instruction).emulator.registers ∧
      emulator.step.error = (emulator.execute instruction).fault.map
        fun fault => .step (.failed emulator.pc instruction fault) := by
  have effectEq := Instruction.effect_withPc multiplicative emulator.toMachine next
  rw [step_of_fetched running fetched moved]
  simp only [execute, effectEq]
  cases found : instruction.effect emulator.toMachine with
  | error fault => exact ⟨rfl, rfl⟩
  | ok effect =>
      obtain ⟨high, low, rfl⟩ := Instruction.writePair_of_effect multiplicative found
      exact ⟨rfl, rfl⟩

/-- Products and quotients are right for all operands.  A product is the whole number in the
high and the low word, in either reading; quotient and remainder belong to division toward zero,
but for the one quotient that wraps around.  Only the high and the low word are written, and by a
division by zero not even they.  The same happens in a step that fetches the instruction. -/
theorem multiply_divide_exact (emulator : Emulator) (instruction : Instruction) :
    let s := emulator.registers.read instruction.word.regS
    let t := emulator.registers.read instruction.word.regT
    let done := emulator.execute instruction
    let hi := done.emulator.registers.read .hi
    let lo := done.emulator.registers.read .lo
    (instruction.op = .mult →
      done.fault = none ∧
      Word.signedPair hi lo = s.toInt32.toInt * t.toInt32.toInt ∧
      ∀ (other : Emulator) (unsigned : Instruction), unsigned.op = .multu →
        other.registers.read unsigned.word.regS = s →
        other.registers.read unsigned.word.regT = t →
        let registers := (other.execute unsigned).emulator.registers
        lo = registers.read .lo ∧
          hi = registers.read .hi - Word.correction s t - Word.correction t s) ∧
    (instruction.op = .multu →
      done.fault = none ∧ Word.pair hi lo = s.toNat * t.toNat) ∧
    (instruction.op = .divu → t ≠ 0 →
      done.fault = none ∧ s.toNat = lo.toNat * t.toNat + hi.toNat ∧ hi.toNat < t.toNat) ∧
    (instruction.op = .div → t ≠ 0 →
      done.fault = none ∧
      (¬ (s.toInt32.toInt = -0x80000000 ∧ t.toInt32.toInt = -1) →
        Word.Divides s.toInt32.toInt t.toInt32.toInt lo.toInt32.toInt hi.toInt32.toInt) ∧
      (s.toInt32.toInt = -0x80000000 ∧ t.toInt32.toInt = -1 → lo = 0x80000000 ∧ hi = 0)) ∧
    (instruction.op = .div ∨ instruction.op = .divu → t = 0 →
      done.fault = some .divisionByZero ∧ hi = emulator.registers.read .hi ∧
        lo = emulator.registers.read .lo) ∧
    (instruction.op ∈ Op.multiplicative →
      (∀ register, register ≠ .hi → register ≠ .lo →
        done.emulator.registers.read register = emulator.registers.read register) ∧
      ∀ next, emulator.terminated = false →
        emulator.ram.instruction emulator.pc = .ok instruction → emulator.pc.add 1 = .ok next →
        emulator.step.emulator.registers = done.emulator.registers ∧
          emulator.step.error = done.fault.map
            fun fault => .step (.failed emulator.pc instruction fault)) := by
  intro s t done hi lo
  refine ⟨fun isMult => ?_, fun isMultu => ?_, fun isDivu notZero => ?_, fun isDiv notZero => ?_,
    fun divides isZero => ?_, fun multiplicative => ⟨?_, fun next running fetched moved => ?_⟩⟩
  · have yields : Yields emulator instruction _ _ := yields_mult rfl rfl isMult
    have high : hi = _ := yields.high
    have low : lo = _ := yields.low
    refine ⟨yields.fault, ?_, fun other unsigned isMultu first second => ?_⟩
    · rw [high, low]
      exact Word.signedPair_product s t
    · have unsignedYields := yields_multu first second isMultu
      rw [high, low]
      simp only [unsignedYields.high, unsignedYields.low]
      exact ⟨Word.low_product_eq s t, Word.high_product_eq s t⟩
  · have yields : Yields emulator instruction _ _ := yields_multu rfl rfl isMultu
    have high : hi = _ := yields.high
    have low : lo = _ := yields.low
    refine ⟨yields.fault, ?_⟩
    rw [high, low]
    exact Word.pair_product s t
  · have yields := yields_divu rfl rfl isDivu notZero
    have high : hi = s % t := yields.high
    have low : lo = s / t := yields.low
    refine ⟨yields.fault, ?_⟩
    rw [high, low]
    exact Word.divides_unsigned s notZero
  · have yields := yields_div rfl rfl isDiv notZero
    have high : hi = (s.toInt32 % t.toInt32).toUInt32 := yields.high
    have low : lo = (s.toInt32 / t.toInt32).toUInt32 := yields.low
    refine ⟨yields.fault, fun fits => ?_, fun ⟨least, minusOne⟩ => ?_⟩
    · rw [high, low, Int32.toInt32_toUInt32, Int32.toInt32_toUInt32]
      exact Word.divides_signed notZero fits
    · rw [high, low]
      exact Word.divides_wrapping least minusOne
  · have unchanged : done = _ := execute_of_zero divides isZero
    have registersEq : done.emulator = emulator := congrArg Performance.emulator unchanged
    refine ⟨congrArg Performance.fault unchanged, ?_, ?_⟩
    · exact congrArg (fun after : Emulator => after.registers.read .hi) registersEq
    · exact congrArg (fun after : Emulator => after.registers.read .lo) registersEq
  · exact fun register => others_of_multiplicative multiplicative
  · exact step_of_multiplicative multiplicative running fetched moved

def aboutToWrap : Emulator :=
  ((ofSize 1).loadTwoInts [0x00, 0x22, 0x00, 0x1a] (-0x80000000) (-1)).emulator

theorem multiply_divide_exact_wrapping :
    (aboutToWrap.step.error = none ∧
      aboutToWrap.step.emulator.registers.read .lo = 0x80000000 ∧
      aboutToWrap.step.emulator.registers.read .hi = 0) ∧
    Word.signedPair
        ((aboutToWrap.execute (.decode 0x00220018 .zero)).emulator.registers.read .hi)
        ((aboutToWrap.execute (.decode 0x00220018 .zero)).emulator.registers.read .lo) =
      0x80000000 ∧
    (aboutToWrap.execute (.decode 0x0020001a .zero)).fault = some .divisionByZero := by
  obtain ⟨-, -, -, divides, -, steps⟩ :=
    multiply_divide_exact aboutToWrap (.decode 0x0022001a .zero)
  obtain ⟨multiplies, -⟩ := multiply_divide_exact aboutToWrap (.decode 0x00220018 .zero)
  obtain ⟨-, -, -, -, fails, -⟩ := multiply_divide_exact aboutToWrap (.decode 0x0020001a .zero)
  obtain ⟨fault, -, wraps⟩ := divides (by decide) (by decide)
  obtain ⟨low, high⟩ := wraps (by decide)
  obtain ⟨registers, error⟩ := (steps (by decide)).2 (.ofNat 1) (by decide) (by rfl) (by rfl)
  rw [fault] at error
  refine ⟨⟨error, ?_, ?_⟩, (multiplies (by decide)).2.1, (fails (by decide) (by decide)).1⟩
  · rw [registers]
    exact low
  · rw [registers]
    exact high

end Emulator
end ReversibleMips
