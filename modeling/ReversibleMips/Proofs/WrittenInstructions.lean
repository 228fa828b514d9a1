import ReversibleMips.Proofs.Linking
import ReversibleMips.Proofs.WrittenOperands

/-!
# Instructions as they were written

Every opcode of an assembled program comes from one line of the source, and decodes to the
instruction that the line spells: the operation of its mnemonic, the registers that its words
name, and the number or the label that it ends with.  The first pass encodes what the words
of a line name, and the second pass changes only what refers to a label.
-/

namespace ReversibleMips
namespace Assembler

open Instruction Equates

/-- How the words behind a mnemonic spell the operands of its instruction, at an address of a
program with labels. -/
inductive Spells (equates : Equates) (labels : Labels) (pc : UInt32) :
    Op → List Glyphs → List String → Prop
  | three {op : Op} {first second third : Glyphs} {d s t : Register}
      (three : op ∈ [.add, .sub, .slt, .sltu]) (dNamed : equates.NamesRegister first d)
      (sNamed : equates.NamesRegister second s) (tNamed : equates.NamesRegister third t) :
      Spells equates labels pc op [first, second, third]
        [registerText d, registerText s, registerText t]
  | two {op : Op} {first second : Glyphs} {s t : Register}
      (two : op ∈ [.mult, .multu, .div, .divu]) (sNamed : equates.NamesRegister first s)
      (tNamed : equates.NamesRegister second t) :
      Spells equates labels pc op [first, second] [registerText s, registerText t]
  | one {op : Op} {word : Glyphs} {register : Register}
      (one : op ∈ [.mfhi, .mflo, .lis, .jr, .jalr])
      (named : equates.NamesRegister word register) :
      Spells equates labels pc op [word] [registerText register]
  | branch {op : Op} {first second distance : Glyphs} {s t : Register} {immediate : Int16}
      (conditional : op ∈ [.beq, .bne]) (sNamed : equates.NamesRegister first s)
      (tNamed : equates.NamesRegister second t) (isNumber : equates.isLabel distance = false)
      (named : equates.NamesImmediate distance immediate) :
      Spells equates labels pc op [first, second, distance]
        [registerText s, registerText t, toString immediate.toInt]
  | branchTo {op : Op} {first second label : Glyphs} {s t : Register} {immediate : Int16}
      {target : UInt32} (conditional : op ∈ [.beq, .bne])
      (sNamed : equates.NamesRegister first s) (tNamed : equates.NamesRegister second t)
      (isLabel : equates.isLabel label = true) (defined : labels[label]? = some target)
      (distance : 4 * immediate.toInt = target.toNat - (pc + 4).toNat) :
      Spells equates labels pc op [first, second, label]
        [registerText s, registerText t, toString immediate.toInt]
  | indexed {op : Op} {register offset base : Glyphs} {s t : Register} {immediate : Int16}
      (indexed : op ∈ [.lw, .sw]) (last : .char '(' ∉ base)
      (tNamed : equates.NamesRegister register t)
      (sNamed : equates.NamesRegister base s)
      (named : offset = [] ∧ immediate = 0 ∨
        offset ≠ [] ∧ equates.NamesImmediate offset immediate) :
      Spells equates labels pc op [register, offset ++ .char '(' :: base ++ [.char ')']]
        [registerText t, toString immediate.toInt ++ "(" ++ registerText s ++ ")"]

/-- The word of data that a line spells. -/
inductive SpellsDatum (equates : Equates) (labels : Labels) : List Glyphs → Word → Prop
  | number {word : Glyphs} {number : Int} {code : Word}
      (isNumber : equates.isLabel word = false) (named : equates.NamesNumber word number)
      (codeEq : (code.toNat : Int) = number % 0x100000000) :
      SpellsDatum equates labels [word] code
  | label {label : Glyphs} {address : UInt32} (isLabel : equates.isLabel label = true)
      (defined : labels[label]? = some address) : SpellsDatum equates labels [label] address

/-- What the first pass encodes of the words behind a mnemonic.  A branch to a label has its
registers in place. -/
inductive Encodes (equates : Equates) (op : Op) : List Glyphs → Encoded → Prop
  | whole {arguments : List Glyphs} {operands : List String} {code : Word}
      (spells : ∀ labels pc, Spells equates labels pc op arguments operands)
      (written : WrittenWith code op operands) : Encodes equates op arguments ⟨code, none⟩
  | branchTo {first second label : Glyphs} {s t : Register} (conditional : op ∈ [.beq, .bne])
      (sNamed : equates.NamesRegister first s) (tNamed : equates.NamesRegister second t)
      (isLabel : equates.isLabel label = true) :
      Encodes equates op [first, second, label] ⟨op.encode s.val t.val 0 0, some label⟩

section Encode

variable {equates : Equates} {op : Op} {arguments : List Glyphs} {encoded : Encoded}

theorem encodes_of_encodeThree (three : op ∈ [.add, .sub, .slt, .sltu])
    (read : encodeThree equates op arguments = .ok encoded) :
    Encodes equates op arguments encoded := by
  unfold encodeThree at read
  split at read
  · obtain ⟨d, dRead, read⟩ := exists_of_bind_eq_ok read
    obtain ⟨s, sRead, read⟩ := exists_of_bind_eq_ok read
    obtain ⟨t, tRead, read⟩ := exists_of_bind_eq_ok read
    cases read
    refine .whole (fun labels pc => .three three (namesRegister_of_registerOf dRead)
      (namesRegister_of_registerOf sRead) (namesRegister_of_registerOf tRead)) ?_
    have written (known : op ∈ Op.table) (isInstruction : op ≠ .word) :=
      writtenWith_encode known isInstruction (registerOf_lt sRead) (registerOf_lt tRead)
        (registerOf_lt dRead) 0
    simp only [List.mem_cons, List.not_mem_nil, or_false] at three
    rcases three with rfl | rfl | rfl | rfl
    all_goals exact written (by decide) (by decide)
  · cases read

theorem encodes_of_encodeTwo (two : op ∈ [.mult, .multu, .div, .divu])
    (read : encodeTwo equates op arguments = .ok encoded) :
    Encodes equates op arguments encoded := by
  unfold encodeTwo at read
  split at read
  · obtain ⟨s, sRead, read⟩ := exists_of_bind_eq_ok read
    obtain ⟨t, tRead, read⟩ := exists_of_bind_eq_ok read
    cases read
    refine .whole (fun labels pc => .two two (namesRegister_of_registerOf sRead)
      (namesRegister_of_registerOf tRead)) ?_
    have written (known : op ∈ Op.table) (isInstruction : op ≠ .word) :=
      @writtenWith_encode op known isInstruction s t 0 (registerOf_lt sRead)
        (registerOf_lt tRead) (by decide) 0
    simp only [List.mem_cons, List.not_mem_nil, or_false] at two
    rcases two with rfl | rfl | rfl | rfl
    all_goals exact written (by decide) (by decide)
  · cases read

/-- The register goes to both fields, of which an operation has one. -/
theorem encodes_of_encodeOne (one : op ∈ [.mfhi, .mflo, .lis, .jr, .jalr])
    (read : encodeOne equates op arguments = .ok encoded) :
    Encodes equates op arguments encoded := by
  unfold encodeOne at read
  split at read
  · obtain ⟨register, isRegister, read⟩ := exists_of_bind_eq_ok read
    cases read
    refine .whole (fun labels pc => .one one (namesRegister_of_registerOf isRegister)) ?_
    have written (known : op ∈ Op.table) (isInstruction : op ≠ .word) :=
      @writtenWith_encode op known isInstruction register 0 register (registerOf_lt isRegister)
        (by decide) (registerOf_lt isRegister) 0
    simp only [List.mem_cons, List.not_mem_nil, or_false] at one
    rcases one with rfl | rfl | rfl | rfl | rfl
    all_goals exact written (by decide) (by decide)
  · cases read

theorem writtenWith_branch (conditional : op ∈ [.beq, .bne]) {s t : Register}
    (sGeneral : s.val < 32) (tGeneral : t.val < 32) (immediate : Int16) :
    WrittenWith (op.encode s.val t.val 0 immediate) op
      [registerText s, registerText t, toString immediate.toInt] := by
  have written (known : op ∈ Op.table) (isInstruction : op ≠ .word) :=
    @writtenWith_encode op known isInstruction s t 0 sGeneral tGeneral (by decide) immediate
  simp only [List.mem_cons, List.not_mem_nil, or_false] at conditional
  rcases conditional with rfl | rfl
  all_goals exact written (by decide) (by decide)

theorem encodes_of_encodeBranch (conditional : op ∈ [.beq, .bne])
    (read : encodeBranch equates op arguments = .ok encoded) :
    Encodes equates op arguments encoded := by
  unfold encodeBranch at read
  split at read
  · rename_i first second target rest
    obtain ⟨s, sRead, behindS⟩ := exists_of_bind_eq_ok read
    obtain ⟨t, tRead, behindT⟩ := exists_of_bind_eq_ok behindS
    split at behindT
    · cases behindT
    · rename_i noMore
      have none : rest = [] := by simpa using noMore
      subst none
      split at behindT
      · rename_i isLabel
        cases behindT
        exact .branchTo conditional (namesRegister_of_registerOf sRead)
          (namesRegister_of_registerOf tRead) isLabel
      · rename_i isNumber
        obtain ⟨immediate, isImmediate, encodedEq⟩ := exists_of_bind_eq_ok behindT
        cases encodedEq
        refine .whole (fun labels pc => .branch conditional (namesRegister_of_registerOf sRead)
          (namesRegister_of_registerOf tRead) (by simpa using isNumber)
          (namesImmediate_of_immediateOf isImmediate)) ?_
        exact writtenWith_branch conditional (registerOf_lt sRead) (registerOf_lt tRead) immediate
  · cases read

theorem encodes_of_encodeIndexed (indexed : op ∈ [.lw, .sw])
    (read : encodeIndexed equates op arguments = .ok encoded) :
    Encodes equates op arguments encoded := by
  unfold encodeIndexed at read
  split at read
  · rename_i register place
    obtain ⟨t, tRead, behindT⟩ := exists_of_bind_eq_ok read
    split at behindT
    · cases behindT
    · rename_i offset base cut
      obtain ⟨placeEq, last⟩ := eq_of_indexed? cut
      subst placeEq
      obtain ⟨s, sRead, behindS⟩ := exists_of_bind_eq_ok behindT
      simp only at behindS
      obtain ⟨immediate, rfl, named⟩ : ∃ immediate : Int16,
          encoded = ⟨op.encode s.val t.val 0 immediate, none⟩ ∧
            (offset = [] ∧ immediate = 0 ∨
              offset ≠ [] ∧ equates.NamesImmediate offset immediate) := by
        split at behindS
        · rename_i missing
          cases behindS
          exact ⟨0, rfl, .inl ⟨by simpa using missing, rfl⟩⟩
        · rename_i present
          obtain ⟨immediate, isOffset, encodedEq⟩ := exists_of_bind_eq_ok behindS
          cases encodedEq
          exact ⟨immediate, rfl,
            .inr ⟨by simpa using present, namesImmediate_of_immediateOf isOffset⟩⟩
      refine .whole (fun labels pc => .indexed indexed last
        (namesRegister_of_registerOf tRead) (namesRegister_of_registerOf sRead) named) ?_
      have written (known : op ∈ Op.table) (isInstruction : op ≠ .word) :=
        @writtenWith_encode op known isInstruction s t 0 (registerOf_lt sRead)
          (registerOf_lt tRead) (by decide) immediate
      simp only [List.mem_cons, List.not_mem_nil, or_false] at indexed
      rcases indexed with rfl | rfl
      all_goals exact written (by decide) (by decide)
  · cases read

theorem encodes_of_encode (read : encode equates op arguments = .ok encoded)
    (isInstruction : op ≠ .word) : Encodes equates op arguments encoded := by
  cases op
  case word => exact absurd rfl isInstruction
  case add | sub | slt | sltu => exact encodes_of_encodeThree (by decide) read
  case mult | multu | div | divu => exact encodes_of_encodeTwo (by decide) read
  case mfhi | mflo | lis | jr | jalr => exact encodes_of_encodeOne (by decide) read
  case beq | bne => exact encodes_of_encodeBranch (by decide) read
  case lw | sw => exact encodes_of_encodeIndexed (by decide) read
  case other => cases read

theorem spellsDatum_of_encodeDatum (read : encodeDatum equates arguments = .ok encoded)
    {labels : Labels} {code : Word}
    (linked : encoded.label = none ∧ code = encoded.code ∨
      ∃ label, encoded.label = some label ∧ labels[label]? = some code) :
    SpellsDatum equates labels arguments code := by
  unfold encodeDatum at read
  split at read
  · rename_i argument
    split at read
    · rename_i isLabel
      cases read
      rcases linked with ⟨alone, -⟩ | ⟨label, refers, defined⟩
      · cases alone
      · cases refers
        exact .label isLabel defined
    · rename_i isNumber
      cases value : equates.valueOf argument with
      | error fault =>
          rw [value] at read
          cases read
      | ok word =>
          rw [value] at read
          cases read
          obtain ⟨number, named, wordEq⟩ := namesNumber_of_valueOf value
          rcases linked with ⟨-, codeEq⟩ | ⟨label, refers, -⟩
          · refine .number (by simpa using isNumber) named ?_
            rw [codeEq, wordEq, Word.toNat_ofInt]
          · cases refers
  · cases read

end Encode

section Link

variable {labels : Labels} {earlier opcode : Opcode}

theorem linkOpcode_of_mem {opcodes linked : List Opcode}
    (links : Assembly.linkOpcodes labels opcodes = (linked, none))
    (member : opcode ∈ linked) :
    ∃ earlier ∈ opcodes, Assembly.linkOpcode labels earlier = .ok opcode := by
  induction opcodes generalizing linked with
  | nil =>
      cases links
      cases member
  | cons first rest ih =>
      rw [Assembly.linkOpcodes] at links
      split at links
      · cases links
      · rename_i firstLinked firstLinks
        simp only [Prod.mk.injEq] at links
        obtain ⟨rfl, noError⟩ := links
        rcases List.mem_cons.mp member with rfl | later
        · exact ⟨first, List.mem_cons_self, firstLinks⟩
        · obtain ⟨earlier, behind, links⟩ := ih (Prod.ext rfl noError) later
          exact ⟨earlier, List.mem_cons_of_mem first behind, links⟩

theorem linkOpcode_ok (links : Assembly.linkOpcode labels earlier = .ok opcode) :
    earlier.label = none ∧ opcode = earlier ∨
      ∃ label target code, earlier.label = some label ∧ labels[label]? = some target ∧
        Assembly.linkedCode earlier label target = .ok code ∧
        opcode = { earlier with code := code } := by
  cases refers : earlier.label with
  | none =>
      rw [linkOpcode_eq_ok refers] at links
      cases links
      exact .inl ⟨rfl, rfl⟩
  | some label =>
      cases defined : labels[label]? with
      | none =>
          rw [linkOpcode_eq_missing refers defined] at links
          cases links
      | some target =>
          rw [linkOpcode_eq_map refers defined] at links
          cases coded : Assembly.linkedCode earlier label target with
          | error fault =>
              rw [coded] at links
              cases links
          | ok code =>
              rw [coded] at links
              cases links
              exact .inr ⟨label, target, code, rfl, defined, coded, by simp only [refers]⟩

/-- Linking an opcode changes nothing but its code. -/
theorem eq_of_linkOpcode (links : Assembly.linkOpcode labels earlier = .ok opcode) :
    opcode = { earlier with code := opcode.code } := by
  rcases linkOpcode_ok links with ⟨-, rfl⟩ | ⟨label, target, code, -, -, -, rfl⟩
  · rfl
  · rfl

theorem spellsDatum_of_linkOpcode {equates : Equates} {arguments : List Glyphs}
    (read : encodeDatum equates arguments = .ok ⟨earlier.code, earlier.label⟩)
    (links : Assembly.linkOpcode labels earlier = .ok opcode) :
    SpellsDatum equates labels arguments opcode.code := by
  apply spellsDatum_of_encodeDatum read
  rcases linkOpcode_ok links with ⟨alone, rfl⟩ | ⟨label, target, code, refers, defined, coded, rfl⟩
  · exact .inl ⟨alone, rfl⟩
  · have blank : earlier.code = 0 := code_of_encodeDatum read (by simp [refers])
    rw [linkedCode_datum blank] at coded
    cases coded
    exact .inr ⟨label, refers, defined⟩

/-- The second pass gives a branch the distance of its label, in words. -/
theorem linkedCode_branch_ok {op : Op} (conditional : op ∈ [.beq, .bne]) {s t : Register}
    (sGeneral : s.val < 32) (tGeneral : t.val < 32)
    (registers : earlier.code = op.encode s.val t.val 0 0) {label : Glyphs} {target : UInt32}
    (targetAligned : target.toNat % 4 = 0) (pcAligned : earlier.pc.toNat % 4 = 0) {code : Word}
    (coded : Assembly.linkedCode earlier label target = .ok code) :
    ∃ immediate : Int16, code = op.encode s.val t.val 0 immediate ∧
      4 * immediate.toInt = target.toNat - (earlier.pc + 4).toNat := by
  have isBranch : op = .beq ∨ op = .bne := by simpa using conditional
  simp only [linkedCode_placeholder isBranch sGeneral tGeneral registers] at coded
  split at coded
  · rename_i near
    cases coded
    refine ⟨_, rfl, ?_⟩
    have behind : (earlier.pc + 4).toNat % 4 = 0 := by
      rw [UInt32.toNat_add]
      change (earlier.pc.toNat + 4) % 2 ^ 32 % 4 = 0
      omega
    rw [Int16.toInt_ofInt_of_le (by omega) (by omega)]
    apply Int.mul_tdiv_cancel'
    omega
  · cases coded

theorem spells_of_linkOpcode {equates : Equates} {op : Op} {arguments : List Glyphs}
    (encodes : Encodes equates op arguments ⟨earlier.code, earlier.label⟩)
    (aligned : ∀ (label : Glyphs) (target : UInt32), labels[label]? = some target →
      target.toNat % 4 = 0)
    (pcAligned : earlier.pc.toNat % 4 = 0)
    (links : Assembly.linkOpcode labels earlier = .ok opcode) :
    ∃ operands, Spells equates labels opcode.pc op arguments operands ∧
      WrittenWith opcode.code op operands := by
  generalize encodedEq : Encoded.mk earlier.code earlier.label = encoded at encodes
  cases encodes with
  | whole spells written =>
      obtain ⟨rfl, alone⟩ := Encoded.mk.inj encodedEq
      rcases linkOpcode_ok links with ⟨-, rfl⟩ | ⟨label, target, code, refers, -⟩
      · exact ⟨_, spells labels opcode.pc, written⟩
      · rw [alone] at refers
        cases refers
  | branchTo conditional sNamed tNamed isLabel =>
      obtain ⟨registers, refersTo⟩ := Encoded.mk.inj encodedEq
      rcases linkOpcode_ok links with
        ⟨alone, -⟩ | ⟨label, target, code, refers, defined, coded, rfl⟩
      · rw [refersTo] at alone
        cases alone
      · rw [refersTo] at refers
        cases refers
        obtain ⟨immediate, rfl, distance⟩ :=
          linkedCode_branch_ok conditional sNamed.general tNamed.general registers
            (aligned _ target defined) pcAligned coded
        exact ⟨_, .branchTo conditional sNamed tNamed isLabel defined distance,
          writtenWith_branch conditional sNamed.general tNamed.general immediate⟩

end Link

namespace Assembly

theorem emits_readLine {assembly next : Assembly} {lineNo : Nat} {line : Glyphs}
    (read : assembly.readLine lineNo line = (next, none)) :
    next.opcodes = assembly.opcodes ∨
      ∃ words op arguments opcode,
        (assembly.beginLine lineNo).equates.wordsOf line = .ok words ∧
        Emits (assembly.beginLine lineNo).equates assembly.opcodes.size lineNo
          (words.dropWhile endsLabel) op arguments opcode ∧
        next.opcodes = assembly.opcodes.push opcode := by
  obtain ⟨words, written, nothing | ⟨labelled, -, defined, emitted⟩⟩ := readLine_ok read
  · exact .inl nothing.2.2
  · obtain ⟨same, -⟩ := defineLabels_ok defined
    obtain ⟨-, opcodes⟩ := emits_emit emitted
    rw [same] at opcodes
    rcases opcodes with sameOpcodes | ⟨op, arguments, opcode, emits, pushed⟩
    · exact .inl sameOpcodes
    · exact .inr ⟨words, op, arguments, opcode, written, emits, pushed⟩

/-- An opcode is emitted for one of some lines. -/
inductive EmitsFor (assembly : Assembly) (lineNo : Nat) (previous : Glyphs)
    (lines : List Glyphs) (opcode : Opcode) : Prop
  | intro (before : List Glyphs) (raw : Glyphs) (after : List Glyphs) (middle : Assembly)
      (words : List Glyphs) (op : Op) (arguments : List Glyphs)
      (cut : lines = before ++ raw :: after)
      (read : assembly.readLines lineNo previous before = (middle, none))
      (written : (middle.beginLine (lineNo + before.length + 1)).equates.wordsOf
        (statementText raw.dropCarriageReturn) = .ok words)
      (emits : Emits (middle.beginLine (lineNo + before.length + 1)).equates
        middle.opcodes.size (lineNo + before.length + 1) (words.dropWhile endsLabel) op arguments
        opcode)

/-- Opcodes were there before or are emitted for a line. -/
theorem emitsFor_of_readLines {assembly final : Assembly} {lineNo : Nat} {previous : Glyphs}
    {lines : List Glyphs} (read : assembly.readLines lineNo previous lines = (final, none))
    {opcode : Opcode} (member : opcode ∈ final.opcodes) :
    opcode ∈ assembly.opcodes ∨ EmitsFor assembly lineNo previous lines opcode := by
  induction lines generalizing assembly lineNo previous with
  | nil =>
      cases read
      exact .inl member
  | cons raw lines ih =>
      obtain ⟨next, fits, first, later⟩ := readLines_cons_ok read
      rcases ih later with already |
        ⟨before, line, after, middle, words, op, arguments, cut, frontRead, written, emits⟩
      · rcases emits_readLine first with
          same | ⟨words, op, arguments, emitted, written, emits, pushed⟩
        · rw [same] at already
          exact .inl already
        · rw [pushed, Array.mem_push] at already
          rcases already with old | rfl
          · exact .inl old
          · exact .inr ⟨[], raw, lines, assembly, words, op, arguments, rfl, rfl, written, emits⟩
      · rw [Nat.add_assoc lineNo, Nat.add_comm 1] at written emits
        refine .inr ⟨raw :: before, line, after, middle, words, op, arguments, ?_, ?_, written,
          emits⟩
        · rw [cut, List.cons_append]
        · rw [readLines_cons fits first]
          exact frontRead

end Assembly

theorem passes_of_assemble {predefined : Definitions} {source : Glyphs}
    (assembles : (assemble predefined source).2 = none) :
    (firstPass predefined source).2 = none := by
  cases failed : (firstPass predefined source).2 with
  | none => rfl
  | some error =>
      have passed : (Assembly.start predefined).readLines 0 [] source.lines =
          ((firstPass predefined source).1, some error) := Prod.ext rfl failed
      simp only [assemble, passed] at assembles
      cases assembles

theorem aligned_firstPass {predefined : Definitions} {source : Glyphs}
    (passes : (firstPass predefined source).2 = none) (label : Glyphs) (target : UInt32)
    (defined : (firstPass predefined source).1.labels[label]? = some target) :
    target.toNat % 4 = 0 := by
  have empty : (Assembly.start predefined).labels[label]? = none := Std.TreeMap.getElem?_emptyc
  rw [Assembly.labels_of_readLines (readLines_firstPass passes), empty] at defined
  rcases defined with none | ⟨count, -, rfl⟩
  · cases none
  · rw [UInt32.toNat_ofNat']
    omega

/-- An opcode is what a line of a source spells, with the equates that are in force there and
the labels of the program. -/
inductive WrittenIn (predefined : Definitions) (source : Glyphs) (labels : Labels)
    (opcode : Opcode) : Prop
  | intro (before : List Glyphs) (raw : Glyphs) (after : List Glyphs) (assembly : Assembly)
      (equates : Equates) (words : List Glyphs) (op : Op) (arguments : List Glyphs)
      (cut : source.lines = before ++ raw :: after)
      (read : (Assembly.start predefined).readLines 0 [] before = (assembly, none))
      (inForce : equates = (assembly.beginLine (before.length + 1)).equates)
      (numbered : opcode.lineNo = (before.length + 1 : Nat))
      (written : equates.wordsOf (statementText raw.dropCarriageReturn) = .ok words)
      (behindLabels : opcode.words = words.dropWhile endsLabel)
      (named : opcode.words = Glyphs.ofString op.name :: arguments)
      (known : op ∈ Op.table)
      (instruction : op ≠ .word → ∃ operands,
        Spells equates labels opcode.pc op arguments operands ∧
        ∀ address, (decode opcode.code address).op = op ∧
          (decode opcode.code address).op ≠ .word ∧
          (decode opcode.code address).text = op.name ++ " " ++ ", ".intercalate operands)
      (datum : op = .word → SpellsDatum equates labels arguments opcode.code)

/-- What is assembled is what was written.  Every opcode of an assembled program stems from a
line of the source.  If its mnemonic is one of an instruction, the code decodes to this
instruction, and its text has the registers that the words of the line name and the number
that they name or the distance of the label.  Otherwise the code is the number or the address
of the label. -/
theorem assembled_as_written {predefined : Definitions} {source : Glyphs}
    (assembles : (assemble predefined source).2 = none) {opcode : Opcode}
    (member : opcode ∈ (assemble predefined source).1.program.opcodes) :
    WrittenIn predefined source (assemble predefined source).1.labels opcode := by
  have passes := passes_of_assemble assembles
  have assembled := assemble_of_firstPass passes
  have labelsEq : (assemble predefined source).1.labels =
      (firstPass predefined source).1.labels := by
    rw [assembled]
    rfl
  have links : Assembly.linkOpcodes (firstPass predefined source).1.labels
      (firstPass predefined source).1.opcodes.toList =
        ((assemble predefined source).1.program.opcodes, none) := by
    rw [assembled] at assembles ⊢
    exact Prod.ext rfl assembles
  obtain ⟨earlier, earlierMember, linked⟩ := linkOpcode_of_mem links member
  have same := eq_of_linkOpcode linked
  rcases Assembly.emitsFor_of_readLines (readLines_firstPass passes)
      (Array.mem_def.mpr earlierMember) with
    none | ⟨before, raw, after, middle, words, op, arguments, cut, read, written, emits⟩
  · simp [Assembly.start] at none
  · rw [Nat.zero_add] at written emits
    have pcAligned : earlier.pc.toNat % 4 = 0 := by
      rw [emits.pc_eq, UInt32.toNat_ofNat']
      omega
    rw [labelsEq]
    refine ⟨before, raw, after, middle, _, words, op, arguments, cut, read, rfl, ?_, written,
      ?_, ?_, emits.known, ?_, ?_⟩
    · rw [same]
      exact emits.lineNo_eq
    · rw [same]
      exact emits.words_eq
    · rw [same]
      exact emits.words_eq.trans emits.named
    · intro isInstruction
      obtain ⟨operands, spells, text⟩ :=
        spells_of_linkOpcode (encodes_of_encode emits.encodes isInstruction)
          (aligned_firstPass passes) pcAligned linked
      refine ⟨operands, spells, fun address => ⟨text.op_eq address, ?_, text.text_eq address⟩⟩
      rw [text.op_eq address]
      exact isInstruction
    · intro isDatum
      have encodes := emits.encodes
      rw [isDatum] at encodes
      exact spellsDatum_of_linkOpcode encodes linked

/-- Every kind of operand: registers by equates, one of them predefined, an offset that is
missing and one that is an equate, branches by a number and to a label, and data. -/
def mixedOperands : Glyphs :=
  Glyphs.ofString ("\n".intercalate
    [".equ BIG 0xffff",
      "again: sub COUNT, $1, $31 ; a comment",
      "lw $2, ($3)",
      "sw COUNT, BIG($3)",
      "bne $1, COUNT, again",
      "beq $0, $0, -2",
      "divu $4, COUNT",
      "mfhi $4",
      ".word again",
      ".word -1"])

def mixedStore : Opcode :=
  { lineNo := 4
    pc := 8
    words := ["sw", "COUNT", "BIG($3)"].map Glyphs.ofString
    code := 0xac67ffff
    label := none }

/-- A name for a register that is defined before the source is read. -/
def countRegister : Definitions := .ofStrings [("COUNT", "$07")]

theorem assembled_as_written_mixedOperands :
    (assemble countRegister mixedOperands).2 = none ∧
      mixedStore ∈ (assemble countRegister mixedOperands).1.program.opcodes ∧
      (decode mixedStore.code (.ofNat 2)).text = "sw $7, -1($3)" ∧
      WrittenIn countRegister mixedOperands
        (assemble countRegister mixedOperands).1.labels mixedStore := by
  obtain ⟨assembles, member, text⟩ :
      (assemble countRegister mixedOperands).2 = none ∧
        mixedStore ∈ (assemble countRegister mixedOperands).1.program.opcodes ∧
        (decode mixedStore.code (.ofNat 2)).text = "sw $7, -1($3)" := by
    decide +kernel
  exact ⟨assembles, member, text, assembled_as_written assembles member⟩

end Assembler
end ReversibleMips
