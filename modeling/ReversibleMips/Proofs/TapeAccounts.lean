import ReversibleMips.Tape

/-!
# Accounts of a tape

The input of a tape may pause, fail and end in several ways, but to a reader it is a list of
bytes.  An account says how many reads were made of the bytes and which bytes were written.
Accounts add up: what passes over a tape in two stretches is what passes in the first, and
then in the second.
-/

namespace ReversibleMips

/-- A source delivers bytes and then ends.  Reads without a byte in front of a byte are fewer
than are tolerated, and behind the last byte no read has a byte any more. -/
inductive Delivers : List Delivery → List UInt8 → Prop
  | ended {source : List Delivery}
      (silent : ∀ delivery ∈ source, delivery = .empty ∨ delivery = .failure) :
      Delivers source []
  | next {empties : Nat} {delivery : Delivery} {value : UInt8} {source : List Delivery}
      {bytes : List UInt8} (tolerated : empties < Tape.maxEmptyReads)
      (carries : delivery = .byte value ∨ delivery = .byteAndFailure value)
      (later : Delivers source bytes) :
      Delivers (List.replicate empties .empty ++ delivery :: source) (value :: bytes)

namespace Tape

/-- The input of a tape delivers bytes and then ends. -/
def Carries (tape : Tape) (bytes : List UInt8) : Prop :=
  match tape.input with
  | none => bytes = []
  | some source => Delivers source bytes

theorem nextByte_replicate {attempts empties : Nat} (enough : empties < attempts)
    {delivery : Delivery} {value : UInt8}
    (carries : delivery = .byte value ∨ delivery = .byteAndFailure value)
    (source : List Delivery) :
    nextByte attempts (List.replicate empties .empty ++ delivery :: source) =
      (some value, source) := by
  induction empties generalizing attempts with
  | zero =>
      obtain ⟨attempts, rfl⟩ := Nat.exists_eq_succ_of_ne_zero (Nat.ne_of_gt enough)
      rcases carries with rfl | rfl
      · rfl
      · rfl
  | succ empties ih =>
      have some : attempts ≠ 0 := Nat.ne_of_gt (Nat.zero_lt_of_lt enough)
      obtain ⟨attempts, rfl⟩ := Nat.exists_eq_succ_of_ne_zero some
      rw [List.replicate_succ, List.cons_append, nextByte]
      exact ih (Nat.lt_of_succ_lt_succ enough)

theorem nextByte_silent (attempts : Nat) {source : List Delivery}
    (silent : ∀ delivery ∈ source, delivery = .empty ∨ delivery = .failure) :
    ∃ rest, nextByte attempts source = (none, rest) ∧
      ∀ delivery ∈ rest, delivery = .empty ∨ delivery = .failure := by
  induction attempts generalizing source with
  | zero => exact ⟨source, rfl, silent⟩
  | succ attempts ih =>
      cases source with
      | nil => exact ⟨[], rfl, by simp⟩
      | cons delivery source =>
          have later := fun other member => silent other (List.mem_cons_of_mem delivery member)
          rcases silent delivery List.mem_cons_self with rfl | rfl
          · exact ih later
          · exact ⟨source, rfl, later⟩

/-- A read takes the first byte that is left, if there is one. -/
theorem Carries.read {tape : Tape} {bytes : List UInt8} (carries : tape.Carries bytes) :
    tape.read.1 = bytes.head? ∧
      ∃ input, tape.read.2 =
          { tape with input := input, bytesRead := tape.bytesRead + min 1 bytes.length } ∧
        tape.read.2.Carries (bytes.drop 1) := by
  unfold Carries at carries
  cases inputEq : tape.input with
  | none =>
      rw [inputEq] at carries
      subst carries
      have stays : tape.read = (none, tape) := by rw [Tape.read, inputEq]
      rw [stays]
      exact ⟨rfl, none, by simp [← inputEq], by simp [Carries, inputEq]⟩
  | some source =>
      rw [inputEq] at carries
      cases carries with
      | ended silent =>
          obtain ⟨rest, nothing, stillSilent⟩ := nextByte_silent maxEmptyReads silent
          have reads : tape.read = (none, { tape with input := some rest }) := by
            rw [Tape.read, inputEq]
            simp only [nothing]
          rw [reads]
          exact ⟨rfl, some rest, rfl, .ended stillSilent⟩
      | @next empties delivery value rest bytes tolerated carries later =>
          have reads : tape.read =
              (some value, { tape with input := some rest, bytesRead := tape.bytesRead + 1 }) := by
            rw [Tape.read, inputEq]
            simp only [nextByte_replicate tolerated carries]
          rw [reads]
          refine ⟨rfl, some rest, ?_, later⟩
          simp only [List.length_cons, Nat.min_eq_left (Nat.succ_le_succ (Nat.zero_le _))]

end Tape

namespace Sink

theorem stored_eq {first second : Sink}
    (same : first.carriageReturns = second.carriageReturns) : first.stored = second.stored := by
  funext value
  rw [stored, stored, same]

theorem flatMap_stored {sink : Sink} (plain : sink.carriageReturns = false)
    (values : List UInt8) : values.flatMap sink.stored = values := by
  induction values with
  | nil => rfl
  | cons value values ih => simp [ih, stored, plain]

end Sink

/-- A tape has passed on some bytes of its input and added some bytes to its output. -/
structure Passed (tape : Tape) (bytes : List UInt8) (reads : Nat) (sent : List UInt8)
    (later : Tape) : Prop where
  carries : later.Carries (bytes.drop reads)
  bytesRead : later.bytesRead = tape.bytesRead + min reads bytes.length
  bytesWritten : later.bytesWritten = tape.bytesWritten + sent.length
  output : ∀ sink, tape.output = some sink → ∃ laterSink, later.output = some laterSink ∧
    laterSink.carriageReturns = sink.carriageReturns ∧
    laterSink.bytes.toList = sink.bytes.toList ++ sent.flatMap sink.stored

namespace Passed

theorem trans {first second third : Tape} {bytes : List UInt8} {reads laterReads : Nat}
    {sent laterSent : List UInt8} (before : Passed first bytes reads sent second)
    (after : Passed second (bytes.drop reads) laterReads laterSent third) :
    Passed first bytes (reads + laterReads) (sent ++ laterSent) third where
  carries := by
    have carries := after.carries
    rwa [List.drop_drop] at carries
  bytesRead := by
    have counted := after.bytesRead
    rw [before.bytesRead, List.length_drop] at counted
    omega
  bytesWritten := by
    rw [after.bytesWritten, before.bytesWritten, List.length_append, Nat.add_assoc]
  output := by
    intro sink isOpen
    obtain ⟨middle, stillOpen, sameStyle, stored⟩ := before.output sink isOpen
    obtain ⟨last, lastOpen, lastStyle, lastStored⟩ := after.output middle stillOpen
    refine ⟨last, lastOpen, lastStyle.trans sameStyle, ?_⟩
    rw [lastStored, stored, Sink.stored_eq sameStyle, List.flatMap_append, List.append_assoc]

/-- A tape that stays as it is, except that its sink may take another view of what it
accepts. -/
theorem nothing {tape : Tape} {bytes : List UInt8} (carries : tape.Carries bytes)
    {later : Tape} (input : later.input = tape.input)
    (bytesRead : later.bytesRead = tape.bytesRead)
    (bytesWritten : later.bytesWritten = tape.bytesWritten)
    (output : ∀ sink, tape.output = some sink → ∃ laterSink, later.output = some laterSink ∧
      laterSink.carriageReturns = sink.carriageReturns ∧ laterSink.bytes = sink.bytes) :
    Passed tape bytes 0 [] later where
  carries := by
    rw [List.drop_zero, Tape.Carries, input]
    exact carries
  bytesRead := by rw [bytesRead, Nat.zero_min, Nat.add_zero]
  bytesWritten := bytesWritten
  output := by
    intro sink isOpen
    obtain ⟨laterSink, stillOpen, sameStyle, sameBytes⟩ := output sink isOpen
    exact ⟨laterSink, stillOpen, sameStyle, by simp [sameBytes]⟩

theorem same {tape : Tape} {bytes : List UInt8} (carries : tape.Carries bytes) :
    Passed tape bytes 0 [] tape :=
  nothing carries rfl rfl rfl fun sink isOpen => ⟨sink, isOpen, rfl, rfl⟩

theorem read {tape : Tape} {bytes : List UInt8} (carries : tape.Carries bytes) :
    Passed tape bytes 1 [] tape.read.2 := by
  obtain ⟨-, input, readEq, later⟩ := carries.read
  rw [readEq] at later ⊢
  exact
    { carries := later
      bytesRead := rfl
      bytesWritten := rfl
      output := fun sink isOpen => ⟨sink, isOpen, rfl, by simp⟩ }

theorem write {tape : Tape} {bytes : List UInt8} (carries : tape.Carries bytes) {value : UInt8}
    {later : Tape} (written : tape.write value = .ok later) :
    Passed tape bytes 0 [value] later := by
  obtain ⟨input, output, bytesRead, bytesWritten⟩ := tape
  cases output with
  | none => cases written
  | some sink =>
      simp only [Tape.write, Sink.accept] at written
      split at written
      · cases written
        exact
          { carries := carries
            bytesRead := by simp
            bytesWritten := rfl
            output := by
              rintro _ ⟨⟩
              exact ⟨_, rfl, rfl, by simp⟩ }
      · cases written

end Passed

theorem Tape.write_ok_iff (tape : Tape) (value : UInt8) :
    (∃ later, tape.write value = .ok later) ↔
      ∃ sink, tape.output = some sink ∧ sink.hasRoom (sink.stored value).length = true := by
  obtain ⟨input, output, bytesRead, bytesWritten⟩ := tape
  cases output with
  | none => simp [Tape.write]
  | some sink =>
      simp only [Tape.write, Sink.accept]
      split
      · rename_i hasRoom
        exact ⟨fun _ => ⟨sink, rfl, hasRoom⟩, fun _ => ⟨_, rfl⟩⟩
      · rename_i full
        constructor
        · rintro ⟨later, ⟨⟩⟩
        · rintro ⟨_, ⟨⟩, hasRoom⟩
          exact absurd hasRoom full

end ReversibleMips
