import ReversibleMips.Proofs.WrittenInstructions

/-!
# The earliest fault

A source is read up to the first line that is wrong, so the lines behind it do not matter, and
what is reported is the place and the fault of that line.  Labels are looked up only behind the
last line.  If none of the lines is wrong, what is reported is the first opcode that cannot be
linked, and a source without such an opcode becomes a program.

One kind of fault is reported nowhere: an expression may ask for a sequence that cannot be, and
then its evaluation breaks down.

Labels are not looked up while lines are read, so no line is wrong because a label is missing.
-/

namespace ReversibleMips

/-- The number of words from the word behind an opcode to a byte address.  Behind the last
address of the address space comes the first one. -/
def Opcode.wordsTo (opcode : Opcode) (target : UInt32) : Int :=
  ((target.toNat : Int) - (opcode.pc + 4).toNat) / 4

namespace Assembler

inductive Result where
  | program (program : Program)
  | refusal (error : SourceError)
  /-- The evaluation of an expression breaks down, and nothing is told of the source. -/
  | breakdown (misuse : Misuse)
deriving DecidableEq

def Result.ofError (error : SourceError) : Result :=
  match error.fault with
  | .expression (.misuse misuse) => .breakdown misuse
  | _ => .refusal error

def resultOf (predefined : Definitions) (source : Glyphs) : Result :=
  match assemble predefined source with
  | (assembly, none) => .program assembly.program
  | (_, some error) => .ofError error

theorem resultOf_eq_program {predefined : Definitions} {source : Glyphs}
    (assembles : (assemble predefined source).2 = none) :
    resultOf predefined source = .program (assemble predefined source).1.program := by
  have split : assemble predefined source = ((assemble predefined source).1, none) :=
    Prod.ext rfl assembles
  rw [resultOf, split]

theorem resultOf_eq_ofError {predefined : Definitions} {source : Glyphs}
    {error : SourceError} (isError : (assemble predefined source).2 = some error) :
    resultOf predefined source = .ofError error := by
  have split : assemble predefined source = ((assemble predefined source).1, some error) :=
    Prod.ext rfl isError
  rw [resultOf, split]

theorem Fault.exists_misuse_of_isFinal {fault : Fault} (final : fault.isFinal = true) :
    ∃ misuse, fault = .expression (.misuse misuse) := by
  unfold Fault.isFinal at final
  split at final
  · exact ⟨_, rfl⟩
  · cases final

theorem Result.ofError_of_isFinal {error : SourceError} (reported : error.fault.isFinal = false) :
    ofError error = .refusal error := by
  unfold ofError
  split
  · rename_i final
    rw [final] at reported
    cases reported
  · rfl

theorem Result.ofError_ne_program (error : SourceError) (program : Program) :
    ofError error ≠ .program program := by
  unfold ofError
  split <;> exact nofun

theorem Result.eq_of_ofError {error reported : SourceError}
    (same : ofError error = .refusal reported) : error = reported := by
  unfold ofError at same
  split at same
  · cases same
  · exact Result.refusal.inj same

/-- The first pass over some lines fails. -/
def FailsFirst (predefined : Definitions) (lines : List Glyphs) : Prop :=
  ((Assembly.start predefined).readLines 0 [] lines).2 ≠ none

instance (predefined : Definitions) (lines : List Glyphs) :
    Decidable (FailsFirst predefined lines) :=
  inferInstanceAs (Decidable (_ ≠ _))

/-- The first line that is wrong: its number, its text without comment and surrounding blanks,
and what is wrong with it. -/
structure FirstFault (predefined : Definitions) (lines : List Glyphs) (lineNo : Nat)
    (line : Glyphs) (fault : Fault) : Prop where
  fails : FailsFirst predefined (lines.take lineNo)
  least : ∀ fewer < lineNo, ¬ FailsFirst predefined (lines.take fewer)
  line_eq : (lines[lineNo - 1]?.map fun raw => statementText raw.dropCarriageReturn) = some line
  faulty : ∃ before,
    (Assembly.start predefined).readLines 0 [] (lines.take (lineNo - 1)) = (before, none) ∧
      (before.readLine lineNo line).2 = some fault

namespace Assembly

/-- The lines behind one that is wrong are not read. -/
theorem readLines_faulty {assembly before failed : Assembly} {lineNo : Nat}
    {previous raw : Glyphs} {front : List Glyphs} {fault : Fault}
    (read : assembly.readLines lineNo previous front = (before, none))
    (fits : raw.byteLength < maxLineBytes)
    (faulty : before.readLine (lineNo + front.length + 1) (statementText raw.dropCarriageReturn) =
      (failed, some fault))
    (rest : List Glyphs) :
    assembly.readLines lineNo previous (front ++ raw :: rest) =
      (failed, some ⟨lineNo + front.length + 1, (statementText raw.dropCarriageReturn).shown,
        fault⟩) := by
  obtain ⟨line, behind⟩ := readLines_append read (raw :: rest)
  rw [behind, readLines, if_neg (Nat.not_le_of_lt fits)]
  simp only [faulty]

/-- Lines that are short enough fail at the first one that is wrong. -/
theorem exists_faulty_of_readLines {assembly failed : Assembly} {lineNo : Nat} {previous : Glyphs}
    {lines : List Glyphs} {error : SourceError}
    (short : ∀ line ∈ lines, line.byteLength < maxLineBytes)
    (read : assembly.readLines lineNo previous lines = (failed, some error)) :
    ∃ front raw rest before fault, lines = front ++ raw :: rest ∧
      assembly.readLines lineNo previous front = (before, none) ∧
      before.readLine (lineNo + front.length + 1) (statementText raw.dropCarriageReturn) =
        (failed, some fault) := by
  induction lines generalizing assembly lineNo previous with
  | nil => cases read
  | cons raw lines ih =>
      have fits := short raw List.mem_cons_self
      rw [readLines, if_neg (Nat.not_le_of_lt fits)] at read
      simp only at read
      split at read
      · rename_i reached fault faulty
        cases read
        exact ⟨[], raw, lines, assembly, fault, rfl, rfl, faulty⟩
      · rename_i next first
        obtain ⟨front, culprit, rest, before, fault, cut, frontRead, faulty⟩ :=
          ih (fun line member => short line (List.mem_cons_of_mem _ member)) read
        refine ⟨raw :: front, culprit, rest, before, fault, ?_, ?_, ?_⟩
        · rw [cut, List.cons_append]
        · rw [readLines_cons fits first]
          exact frontRead
        · rw [List.length_cons, Nat.add_comm front.length, ← Nat.add_assoc]
          exact faulty

end Assembly

section FirstFault

variable {predefined : Definitions} {lines : List Glyphs}
    (short : ∀ line ∈ lines, line.byteLength < Assembly.maxLineBytes)

/-- What is read without a fault, is read without a fault up to any of its lines. -/
theorem passes_take {front : List Glyphs} (passes : ¬ FailsFirst predefined front) (count : Nat) :
    ¬ FailsFirst predefined (front.take count) := by
  have read : (Assembly.start predefined).readLines 0 [] (front.take count ++ front.drop count) =
      (((Assembly.start predefined).readLines 0 [] front).1, none) := by
    rw [List.take_append_drop]
    exact Prod.ext rfl (Classical.not_not.mp passes)
  obtain ⟨middle, line, frontRead, -⟩ := Assembly.readLines_append_ok read
  rw [FailsFirst, frontRead]
  exact fun some => some rfl

include short in
theorem exists_firstFault (fails : FailsFirst predefined lines) :
    ∃ lineNo line fault, FirstFault predefined lines lineNo line fault := by
  obtain ⟨error, isError⟩ := Option.ne_none_iff_exists'.mp fails
  obtain ⟨front, raw, rest, before, fault, cut, read, faulty⟩ :=
    Assembly.exists_faulty_of_readLines short (Prod.ext rfl isError)
  have fits : raw.byteLength < Assembly.maxLineBytes := short raw (by simp [cut])
  rw [Nat.zero_add] at faulty
  refine ⟨front.length + 1, statementText raw.dropCarriageReturn, fault, ?_, ?_, ?_, before, ?_, ?_⟩
  · have upTo : lines.take (front.length + 1) = front ++ raw :: [] := by
      rw [cut, List.take_length_add_append]
      rfl
    rw [FailsFirst, upTo, Assembly.readLines_faulty read fits (by rwa [Nat.zero_add])]
    exact Option.some_ne_none _
  · intro fewer below
    have inside : lines.take fewer = front.take fewer := by
      rw [cut, List.take_append_of_le_length (by omega)]
    rw [inside]
    apply passes_take
    rw [FailsFirst, read]
    exact fun some => some rfl
  · simp [cut]
  · rw [Nat.add_sub_cancel, cut, List.take_left]
    exact read
  · rw [faulty]

theorem FirstFault.pos {lineNo : Nat} {line : Glyphs} {fault : Fault}
    (first : FirstFault predefined lines lineNo line fault) : 0 < lineNo := by
  apply Nat.pos_of_ne_zero
  rintro rfl
  exact first.fails rfl

include short in
/-- The first line that is wrong decides what is reported, whatever is behind it. -/
theorem FirstFault.error_eq {lineNo : Nat} {line : Glyphs} {fault : Fault}
    (first : FirstFault predefined lines lineNo line fault) {other : Glyphs}
    (same : other.lines.take lineNo = lines.take lineNo) :
    (assemble predefined other).2 = some ⟨lineNo, line.shown, fault⟩ := by
  obtain ⟨raw, found, rfl⟩ := Option.map_eq_some_iff.mp first.line_eq
  obtain ⟨before, read, faulty⟩ := first.faulty
  obtain ⟨front, rfl⟩ : ∃ front, lineNo = front + 1 := ⟨lineNo - 1, by have := first.pos; omega⟩
  rw [Nat.add_sub_cancel] at found read
  have length : (lines.take front).length = front := by
    have inside := (List.getElem?_eq_some_iff.mp found).1
    rw [List.length_take]
    omega
  have upTo : lines.take (front + 1) = lines.take front ++ [raw] := by
    rw [List.take_add_one, found]
    rfl
  have otherEq : other.lines = lines.take front ++ raw :: other.lines.drop (front + 1) := by
    calc other.lines
      _ = other.lines.take (front + 1) ++ other.lines.drop (front + 1) :=
          (List.take_append_drop ..).symm
      _ = lines.take front ++ raw :: other.lines.drop (front + 1) := by
          rw [same, upTo, List.append_assoc, List.singleton_append]
  have fits : raw.byteLength < Assembly.maxLineBytes := short raw (List.mem_of_getElem? found)
  have readOther := Assembly.readLines_faulty read fits
    (by rw [length, Nat.zero_add]; exact Prod.ext rfl faulty) (other.lines.drop (front + 1))
  rw [length, Nat.zero_add, ← otherEq] at readOther
  rw [assemble, readOther]

end FirstFault

/-- What keeps an opcode from being linked: its label is missing, or it is a branch and the label
is too far from the word behind it. -/
inductive Unlinkable (labels : Labels) (opcode : Opcode) : Fault → Prop
  | missing {label : Glyphs} (refers : opcode.label = some label)
      (undefined : labels[label]? = none) : Unlinkable labels opcode (.labelMissing label.shown)
  | outOfRange {label : Glyphs} {target : UInt32} (refers : opcode.label = some label)
      (defined : labels[label]? = some target) (branch : opcode.IsBranch)
      (far : opcode.wordsTo target < -0x8000 ∨ 0x7fff < opcode.wordsTo target) :
      Unlinkable labels opcode (.immediateRange label.shown)

/-- An error is about the first opcode that cannot be linked. -/
def FirstUnlinkable (labels : Labels) (opcodes : List Opcode) (error : SourceError) : Prop :=
  ∃ earlier opcode later, opcodes = earlier ++ opcode :: later ∧
    (∀ other ∈ earlier, ∀ fault, ¬ Unlinkable labels other fault) ∧
    Unlinkable labels opcode error.fault ∧
    (error.lineNo : Int) = opcode.lineNo ∧
    error.line = " ".intercalate (opcode.words.map Glyphs.shown)

/-- The number of words that the second pass computes is exact. -/
theorem Placed.tdiv_eq_wordsTo {index : Nat} {opcode : Opcode} (placed : Placed index opcode)
    {target : UInt32} (whole : target.toNat % 4 = 0) :
    ((target.toNat : Int) - (opcode.pc + 4).toNat).tdiv 4 = opcode.wordsTo target := by
  have behind : (opcode.pc + 4).toNat % 4 = 0 := by
    rw [placed.pc_eq, UInt32.toNat_add, UInt32.toNat_ofNat']
    change (4 * index % 2 ^ 32 + 4) % 2 ^ 32 % 4 = 0
    omega
  exact Int.tdiv_eq_ediv_of_dvd (by omega)

section Link

variable {labels : Labels}

theorem not_unlinkable_of_near {opcode : Opcode} {label : Glyphs} {target : UInt32}
    (refers : opcode.label = some label) (defined : labels[label]? = some target)
    (near : opcode.IsBranch →
      -0x8000 ≤ opcode.wordsTo target ∧ opcode.wordsTo target ≤ 0x7fff) (fault : Fault) :
    ¬ Unlinkable labels opcode fault := by
  rintro (⟨otherRefers, undefined⟩ | ⟨otherRefers, otherDefined, branch, far⟩)
  · obtain rfl := Option.some.inj (refers.symm.trans otherRefers)
    rw [defined] at undefined
    cases undefined
  · obtain rfl := Option.some.inj (refers.symm.trans otherRefers)
    obtain rfl := Option.some.inj (defined.symm.trans otherDefined)
    have inside := near branch
    omega

variable (aligned : ∀ (label : Glyphs) (target : UInt32), labels[label]? = some target →
  target.toNat % 4 = 0)
include aligned

/-- An opcode is linked, or something keeps it from being linked. -/
theorem linkOpcode_outcome {index : Nat} {opcode : Opcode} (placed : Placed index opcode) :
    (∃ linked, Assembly.linkOpcode labels opcode = .ok linked ∧
        ∀ fault, ¬ Unlinkable labels opcode fault) ∨
      ∃ fault, Assembly.linkOpcode labels opcode = .error fault ∧
        Unlinkable labels opcode fault := by
  cases refers : opcode.label with
  | none =>
      refine .inl ⟨opcode, linkOpcode_eq_ok refers, ?_⟩
      rintro fault (⟨other, -⟩ | ⟨other, -⟩)
      · cases refers.symm.trans other
      · cases refers.symm.trans other
  | some label =>
      cases defined : labels[label]? with
      | none =>
          exact .inr ⟨_, linkOpcode_eq_missing refers defined, .missing refers defined⟩
      | some target =>
          obtain ⟨op, mnemonic, unlinked⟩ := placed.unlinked (by simp [refers])
          rw [linkOpcode_eq_map refers defined]
          cases unlinked with
          | datum word blank =>
              subst word
              rw [linkedCode_datum blank]
              refine .inl ⟨_, rfl, not_unlinkable_of_near refers defined ?_⟩
              simp [Opcode.IsBranch, mnemonic]
          | branch conditional s t sGeneral tGeneral registers =>
              have branch : opcode.IsBranch := by
                rcases conditional with rfl | rfl
                · exact .inl mnemonic
                · exact .inr mnemonic
              simp only [linkedCode_placeholder conditional sGeneral tGeneral registers,
                placed.tdiv_eq_wordsTo (aligned label target defined)]
              split
              · rename_i near
                exact .inl ⟨_, rfl, not_unlinkable_of_near refers defined fun _ => near⟩
              · rename_i far
                exact .inr ⟨_, rfl, .outOfRange refers defined branch (by omega)⟩

/-- All opcodes are linked, or the first that cannot be linked is reported. -/
theorem linkOpcodes_outcome {opcodes : List Opcode}
    (placed : ∀ opcode ∈ opcodes, ∃ index, Placed index opcode) :
    ((Assembly.linkOpcodes labels opcodes).2 = none ∧
        ∀ opcode ∈ opcodes, ∀ fault, ¬ Unlinkable labels opcode fault) ∨
      ∃ error, (Assembly.linkOpcodes labels opcodes).2 = some error ∧
        FirstUnlinkable labels opcodes error := by
  induction opcodes with
  | nil => exact .inl ⟨rfl, by simp⟩
  | cons opcode opcodes ih =>
      obtain ⟨index, place⟩ := placed opcode List.mem_cons_self
      have later := ih fun opcode member => placed opcode (List.mem_cons_of_mem _ member)
      rcases linkOpcode_outcome aligned place with ⟨linked, link, fine⟩ | ⟨fault, link, stuck⟩
      · simp only [Assembly.linkOpcodes, link]
        rcases later with ⟨noError, allFine⟩ | ⟨error, isError, first⟩
        · exact .inl ⟨noError, List.forall_mem_cons.mpr ⟨fine, allFine⟩⟩
        · obtain ⟨earlier, culprit, behind, cut, earlierFine, rest⟩ := first
          refine .inr ⟨error, isError, opcode :: earlier, culprit, behind, ?_,
            List.forall_mem_cons.mpr ⟨fine, earlierFine⟩, rest⟩
          rw [cut, List.cons_append]
      · simp only [Assembly.linkOpcodes, link]
        exact .inr ⟨_, rfl, [], opcode, opcodes, rfl, by simp, stuck,
          Int.toNat_of_nonneg place.numbered, rfl⟩

end Link

/-- Nothing is wrong because a label is missing. -/
def AsksNoLabel {α : Type} (result : Except Fault α) : Prop :=
  ∀ label, result ≠ .error (.labelMissing label)

section AsksNoLabel

variable {α β : Type}

theorem asksNoLabel_ok (value : α) : AsksNoLabel (.ok value) := nofun

theorem AsksNoLabel.bind {first : Except Fault α} {next : α → Except Fault β}
    (firstAsks : AsksNoLabel first) (nextAsks : ∀ value, AsksNoLabel (next value)) :
    AsksNoLabel (first >>= next) := by
  cases first with
  | error fault =>
      intro label failed
      exact firstAsks label (congrArg Except.error (Except.error.inj failed))
  | ok value => exact nextAsks value

theorem AsksNoLabel.map {result : Except Fault α} (asks : AsksNoLabel result) (change : α → β) :
    AsksNoLabel (result.map change) := by
  cases result with
  | error fault =>
      intro label failed
      exact asks label (congrArg Except.error (Except.error.inj failed))
  | ok value => exact asksNoLabel_ok (change value)

end AsksNoLabel

namespace Equates

theorem asksNoLabel_registerOf (equates : Equates) (word : Glyphs) :
    AsksNoLabel (equates.registerOf word) := by
  unfold registerOf
  simp only
  split
  · split
    · split <;> exact nofun
    · exact nofun
  · exact nofun

theorem asksNoLabel_valueOf (equates : Equates) (word : Glyphs) :
    AsksNoLabel (equates.valueOf word) := by
  unfold valueOf
  simp only
  split
  · split <;> exact nofun
  · exact nofun

theorem asksNoLabel_immediateOf (equates : Equates) (word : Glyphs) :
    AsksNoLabel (equates.immediateOf word) := by
  unfold immediateOf
  split
  · rename_i fault failed
    intro label same
    obtain rfl := Except.error.inj same
    exact equates.asksNoLabel_valueOf word label failed
  · simp only
    split <;> exact nofun

theorem asksNoLabel_evaluate (equates : Equates) (expression : Glyphs) :
    AsksNoLabel (equates.evaluate expression) := by
  unfold evaluate
  split
  · exact nofun
  · split <;> exact nofun
  · exact nofun

theorem asksNoLabel_expandPiece (equates : Equates) (piece : Glyphs) :
    AsksNoLabel (equates.expandPiece piece) := by
  unfold expandPiece
  split
  · exact asksNoLabel_ok _
  · exact (equates.asksNoLabel_evaluate _).map _

end Equates

theorem asksNoLabel_joinPieces {pieces : List (Except Fault Glyphs)}
    (asks : ∀ piece ∈ pieces, AsksNoLabel piece) : AsksNoLabel (joinPieces pieces) := by
  induction pieces with
  | nil => exact asksNoLabel_ok _
  | cons piece pieces ih =>
      obtain ⟨first, others⟩ := List.forall_mem_cons.mp asks
      have later := ih others
      cases piece with
      | ok text => exact later.map _
      | error fault =>
          unfold joinPieces
          split
          · exact first
          · split
            · rename_i failed
              rw [← failed]
              exact later
            · exact first

theorem Equates.asksNoLabel_wordsOf (equates : Equates) (line : Glyphs) :
    AsksNoLabel (equates.wordsOf line) := by
  unfold wordsOf expandExpressions
  apply AsksNoLabel.map
  split
  · exact asksNoLabel_ok _
  · apply AsksNoLabel.map
    apply asksNoLabel_joinPieces
    exact List.forall_mem_map.mpr fun piece _ => equates.asksNoLabel_expandPiece piece

section Encode

variable (equates : Equates) (op : Op) (arguments : List Glyphs)

theorem asksNoLabel_wrongCount {α : Type} (needed : Nat) :
    AsksNoLabel (.error (wrongCount needed arguments) : Except Fault α) := by
  unfold wrongCount
  split <;> exact nofun

theorem asksNoLabel_encodeDatum : AsksNoLabel (encodeDatum equates arguments) := by
  unfold encodeDatum
  split
  · split
    · exact asksNoLabel_ok _
    · exact (equates.asksNoLabel_valueOf _).map _
  · exact asksNoLabel_wrongCount _ 1

theorem asksNoLabel_encodeThree : AsksNoLabel (encodeThree equates op arguments) := by
  unfold encodeThree
  split
  · refine (equates.asksNoLabel_registerOf _).bind fun d => ?_
    refine (equates.asksNoLabel_registerOf _).bind fun s => ?_
    exact (equates.asksNoLabel_registerOf _).bind fun t => asksNoLabel_ok _
  · exact asksNoLabel_wrongCount _ 3

theorem asksNoLabel_encodeTwo : AsksNoLabel (encodeTwo equates op arguments) := by
  unfold encodeTwo
  split
  · refine (equates.asksNoLabel_registerOf _).bind fun s => ?_
    exact (equates.asksNoLabel_registerOf _).bind fun t => asksNoLabel_ok _
  · exact asksNoLabel_wrongCount _ 2

theorem asksNoLabel_encodeOne : AsksNoLabel (encodeOne equates op arguments) := by
  unfold encodeOne
  split
  · exact (equates.asksNoLabel_registerOf _).bind fun register => asksNoLabel_ok _
  · exact asksNoLabel_wrongCount _ 1

theorem asksNoLabel_encodeBranch : AsksNoLabel (encodeBranch equates op arguments) := by
  unfold encodeBranch
  split
  · refine (equates.asksNoLabel_registerOf _).bind fun s => ?_
    refine (equates.asksNoLabel_registerOf _).bind fun t => ?_
    split
    · exact nofun
    · split
      · exact asksNoLabel_ok _
      · exact (equates.asksNoLabel_immediateOf _).bind fun immediate => asksNoLabel_ok _
  · exact nofun

theorem asksNoLabel_encodeIndexed : AsksNoLabel (encodeIndexed equates op arguments) := by
  unfold encodeIndexed
  split
  · refine (equates.asksNoLabel_registerOf _).bind fun t => ?_
    split
    · exact nofun
    · refine (equates.asksNoLabel_registerOf _).bind fun s => ?_
      split
      · exact asksNoLabel_ok _
      · exact (equates.asksNoLabel_immediateOf _).bind fun immediate => asksNoLabel_ok _
  · exact asksNoLabel_wrongCount _ 2

theorem asksNoLabel_encode : AsksNoLabel (encode equates op arguments) := by
  cases op
  case word => exact asksNoLabel_encodeDatum equates arguments
  case add | sub | slt | sltu => exact asksNoLabel_encodeThree equates _ arguments
  case mult | multu | div | divu => exact asksNoLabel_encodeTwo equates _ arguments
  case mfhi | mflo | lis | jr | jalr => exact asksNoLabel_encodeOne equates _ arguments
  case beq | bne => exact asksNoLabel_encodeBranch equates _ arguments
  case lw | sw => exact asksNoLabel_encodeIndexed equates _ arguments
  case other => exact nofun

end Encode

namespace Assembly

theorem fault_emit (assembly : Assembly) (lineNo : Nat) (words : List Glyphs) (label : String) :
    (assembly.emit lineNo words).2 ≠ some (.labelMissing label) := by
  unfold emit
  split
  · exact nofun
  · split
    · exact nofun
    · split
      · rename_i fault failed
        intro same
        obtain rfl := Option.some.inj same
        exact asksNoLabel_encode _ _ _ label failed
      · exact nofun

theorem asksNoLabel_defineLabels (assembly : Assembly) (words : List Glyphs) :
    AsksNoLabel (assembly.defineLabels words).2 := by
  induction words generalizing assembly with
  | nil => exact asksNoLabel_ok _
  | cons word words ih =>
      unfold defineLabels
      split
      · exact asksNoLabel_ok _
      · split
        · exact nofun
        · exact ih _

/-- No line is wrong because a label is missing. -/
theorem fault_readLine (assembly : Assembly) (lineNo : Nat) (line : Glyphs) (label : String) :
    (assembly.readLine lineNo line).2 ≠ some (.labelMissing label) := by
  unfold readLine
  simp only
  split
  · rename_i fault failed
    intro same
    obtain rfl := Option.some.inj same
    exact Equates.asksNoLabel_wordsOf _ _ label failed
  · exact nofun
  · split
    · unfold defineEquate
      split
      · split <;> exact nofun
      · exact nofun
    · split
      · rename_i fault failed
        intro same
        obtain rfl := Option.some.inj same
        exact asksNoLabel_defineLabels _ _ label (congrArg Prod.snd failed)
      · exact fault_emit _ _ _ label

end Assembly

theorem Unlinkable.isFinal {labels : Labels} {opcode : Opcode} {fault : Fault}
    (stuck : Unlinkable labels opcode fault) : fault.isFinal = false := by
  cases stuck <;> rfl

theorem FirstFault.fault_ne {predefined : Definitions} {lines : List Glyphs}
    {lineNo : Nat} {line : Glyphs} {fault : Fault}
    (first : FirstFault predefined lines lineNo line fault) (label : String) :
    fault ≠ .labelMissing label := by
  rintro rfl
  obtain ⟨before, -, faulty⟩ := first.faulty
  exact Assembly.fault_readLine before lineNo line label faulty

/-- A source whose lines are all right becomes a program, or its first opcode that cannot be
linked is reported. -/
theorem resultOf_outcome {predefined : Definitions} {source : Glyphs}
    (passes : ¬ FailsFirst predefined source.lines) :
    let first := (firstPass predefined source).1
    ((∃ program, resultOf predefined source = .program program) ∧
        ∀ opcode ∈ first.opcodes.toList, ∀ fault, ¬ Unlinkable first.labels opcode fault) ∨
      ∃ error, resultOf predefined source = .refusal error ∧
        FirstUnlinkable first.labels first.opcodes.toList error := by
  intro first
  have passed : (firstPass predefined source).2 = none := Classical.not_not.mp passes
  have linked : (assemble predefined source).2 =
      (Assembly.linkOpcodes first.labels first.opcodes.toList).2 := by
    rw [assemble_of_firstPass passed, Assembly.link]
  rcases linkOpcodes_outcome (aligned_firstPass passed)
      (fun opcode member => placed_firstPass passed member) with
    ⟨noError, fine⟩ | ⟨error, isError, unlinkable⟩
  · exact .inl ⟨⟨_, resultOf_eq_program (linked.trans noError)⟩, fine⟩
  · refine .inr ⟨error, ?_, unlinkable⟩
    obtain ⟨_, _, _, -, -, stuck, -⟩ := unlinkable
    rw [resultOf_eq_ofError (linked.trans isError), Result.ofError_of_isFinal stuck.isFinal]

/-- The earliest fault decides.  If some line is wrong, the first such line is reported, whatever
is behind it; only an expression that breaks down is not reported.  If no line is wrong, the
first opcode that cannot be linked is reported, and without one there is a program. -/
theorem earliest_fault_decides (predefined : Definitions) (source : Glyphs)
    (short : ∀ line ∈ source.lines, line.byteLength < Assembly.maxLineBytes) :
    let first := (firstPass predefined source).1
    (FailsFirst predefined source.lines →
      ∃ lineNo line fault, FirstFault predefined source.lines lineNo line fault ∧
        ∀ other : Glyphs, other.lines.take lineNo = source.lines.take lineNo →
          (fault.isFinal = false →
            resultOf predefined other = .refusal ⟨lineNo, line.shown, fault⟩) ∧
          ∀ misuse, fault = .expression (.misuse misuse) →
            resultOf predefined other = .breakdown misuse) ∧
    (¬ FailsFirst predefined source.lines →
      (∃ program, resultOf predefined source = .program program) ∨
      ∃ error, resultOf predefined source = .refusal error ∧
        FirstUnlinkable first.labels first.opcodes.toList error) ∧
    (∀ error label, resultOf predefined source = .refusal error →
      error.fault = .labelMissing label → ¬ FailsFirst predefined source.lines) ∧
    ((∃ program, resultOf predefined source = .program program) ↔
      ¬ FailsFirst predefined source.lines ∧
        ∀ opcode ∈ first.opcodes.toList, ∀ fault, ¬ Unlinkable first.labels opcode fault) := by
  intro first
  have failing : FailsFirst predefined source.lines →
      ∃ lineNo line fault, FirstFault predefined source.lines lineNo line fault ∧
        ∀ other : Glyphs, other.lines.take lineNo = source.lines.take lineNo →
          resultOf predefined other = .ofError ⟨lineNo, line.shown, fault⟩ := by
    intro fails
    obtain ⟨lineNo, line, fault, found⟩ := exists_firstFault short fails
    exact ⟨lineNo, line, fault, found, fun other same =>
      resultOf_eq_ofError (found.error_eq short same)⟩
  refine ⟨?_, ?_, ?_, ?_, ?_⟩
  · intro fails
    obtain ⟨lineNo, line, fault, found, decides⟩ := failing fails
    refine ⟨lineNo, line, fault, found, fun other same => ⟨?_, ?_⟩⟩
    · intro reported
      rw [decides other same, Result.ofError_of_isFinal reported]
    · rintro misuse rfl
      rw [decides other same]
      rfl
  · intro passes
    exact (resultOf_outcome passes).imp_left And.left
  · rintro error label isRefused isMissing fails
    obtain ⟨lineNo, line, fault, found, decides⟩ := failing fails
    rw [decides source rfl] at isRefused
    obtain rfl := Result.eq_of_ofError isRefused
    exact found.fault_ne label isMissing
  · rintro ⟨program, isProgram⟩
    have passes : ¬ FailsFirst predefined source.lines := by
      intro fails
      obtain ⟨lineNo, line, fault, -, decides⟩ := failing fails
      rw [decides source rfl] at isProgram
      exact Result.ofError_ne_program _ _ isProgram
    refine ⟨passes, ?_⟩
    rcases resultOf_outcome passes with ⟨-, fine⟩ | ⟨error, isRefused, -⟩
    · exact fine
    · rw [isRefused] at isProgram
      cases isProgram
  · rintro ⟨passes, fine⟩
    rcases resultOf_outcome passes with ⟨isProgram, -⟩ | ⟨error, -, unlinkable⟩
    · exact isProgram
    · obtain ⟨earlier, opcode, later, cut, -, stuck, -⟩ := unlinkable
      have member : opcode ∈ first.opcodes.toList := by simp [first, cut]
      exact absurd stuck (fine opcode member _)

/-- A line that lacks a register, between a line that is right and a label that is defined
twice. -/
def twoFaults : Glyphs := Glyphs.ofString "add $1, $2, $3\n add $1, $2 ; one is missing\nx: x:"

theorem earliest_fault_decides_twoFaults :
    (∀ line ∈ twoFaults.lines, line.byteLength < Assembly.maxLineBytes) ∧
      Glyphs.ofString "x: x:" ∈ twoFaults.lines ∧ FailsFirst [] twoFaults.lines ∧
      ∀ other : Glyphs, other.lines.take 2 = twoFaults.lines.take 2 →
        resultOf [] other = .refusal ⟨2, "add $1, $2", .valueMissing⟩ := by
  obtain ⟨short, last, fails, isRefused⟩ :
      (∀ line ∈ twoFaults.lines, line.byteLength < Assembly.maxLineBytes) ∧
        Glyphs.ofString "x: x:" ∈ twoFaults.lines ∧ FailsFirst [] twoFaults.lines ∧
        resultOf [] twoFaults = .refusal ⟨2, "add $1, $2", .valueMissing⟩ := by
    decide +kernel
  refine ⟨short, last, fails, fun other same => ?_⟩
  obtain ⟨lineNo, line, fault, -, decides⟩ := (earliest_fault_decides [] twoFaults short).1 fails
  cases final : fault.isFinal with
  | true =>
      obtain ⟨misuse, rfl⟩ := Fault.exists_misuse_of_isFinal final
      have broken := (decides twoFaults rfl).2 misuse rfl
      rw [isRefused] at broken
      cases broken
  | false =>
      have here := (decides twoFaults rfl).1 final
      rw [isRefused] at here
      obtain rfl := congrArg SourceError.lineNo (Result.refusal.inj here)
      rw [(decides other same).1 final, ← here]

def wrappedStep : Glyphs := Glyphs.ofString ".word $(1 if range(0,1<<62,1<<61)[::8] else 2)"

/-- An expression that breaks down is wrong, but it is not reported. -/
theorem breakdown_not_reported :
    (∀ line ∈ wrappedStep.lines, line.byteLength < Assembly.maxLineBytes) ∧
      FailsFirst [] wrappedStep.lines ∧
      ¬ ∃ error, resultOf [] wrappedStep = .refusal error := by
  obtain ⟨short, fails, broken⟩ :
      (∀ line ∈ wrappedStep.lines, line.byteLength < Assembly.maxLineBytes) ∧
        FailsFirst [] wrappedStep.lines ∧ resultOf [] wrappedStep = .breakdown .noStep := by
    decide +kernel
  refine ⟨short, fails, ?_⟩
  rintro ⟨error, isRefused⟩
  rw [broken] at isRefused
  cases isRefused

end Assembler
end ReversibleMips
