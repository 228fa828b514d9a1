import ReversibleMips.Assembler.Assembly
import ReversibleMips.Proofs.Encoding
import ReversibleMips.Proofs.Operands

/-!
# Assembling a disassembly

Every word is an instruction or data, and either is written as a line.  The lines of a
whole memory assemble to the words that they were written for.  One line is read without a
fault and emits its own word; the words of all lines follow by induction over the lines,
and none of them refers to a label, so that linking leaves them as they are.
-/

namespace ReversibleMips

namespace Instruction

def operands (instruction : Instruction) : List String :=
  let s := registerText instruction.word.regS
  let t := registerText instruction.word.regT
  let d := registerText instruction.word.regD
  let immediate := instruction.word.immediate.toInt
  match instruction.op with
  | .add | .sub | .slt | .sltu => [d, s, t]
  | .mult | .multu | .div | .divu => [s, t]
  | .beq | .bne => [s, t, toString immediate]
  | .lw | .sw => [t, Assembler.placeText immediate instruction.word.regS]
  | .mfhi | .mflo | .lis => [d]
  | .jr | .jalr => [s]
  | .word | .other _ => [Text.hexWord instruction.word.toNat]

/-- An instruction is written with its mnemonic in front of its operands. -/
theorem text_eq {instruction : Instruction} (known : instruction.op ∈ Op.table) :
    instruction.text = instruction.op.name ++ " " ++ ", ".intercalate instruction.operands := by
  obtain ⟨op, word, address⟩ := instruction
  cases op with
  | other code => simp [Op.table] at known
  | _ =>
      simp [text, operands, Op.name, Assembler.placeText, String.intercalate_cons_cons,
        String.append_assoc]

theorem ofString_text {instruction : Instruction} (known : instruction.op ∈ Op.table) :
    Glyphs.ofString instruction.text =
      Assembler.bareLine (Glyphs.ofString instruction.op.name)
        (instruction.operands.map Glyphs.ofString) := by
  rw [text_eq known, Glyphs.ofString_append, Glyphs.ofString_append,
    Glyphs.ofString_intercalate, List.append_assoc]
  rfl

/-- The texts that operands are. -/
inductive IsOperand : String → Prop where
  | register (register : Register) : IsOperand (registerText register)
  | immediate (immediate : Int16) : IsOperand (toString immediate.toInt)
  | place (offset : Int16) (base : Register) : IsOperand (Assembler.placeText offset.toInt base)
  | datum (word : Word) : IsOperand (Text.hexWord word.toNat)

theorem isOperand_of_mem {instruction : Instruction} {operand : String}
    (member : operand ∈ instruction.operands) : IsOperand operand := by
  obtain ⟨op, word, address⟩ := instruction
  cases op
  all_goals
    simp only [operands, List.mem_cons, List.not_mem_nil, or_false] at member
  case word | other => exact member ▸ .datum word
  case mfhi | mflo | lis | jr | jalr => exact member ▸ .register _
  case mult | multu | div | divu =>
    rcases member with rfl | rfl
    · exact .register _
    · exact .register _
  case lw | sw =>
    rcases member with rfl | rfl
    · exact .register _
    · exact .place _ _
  case beq | bne =>
    rcases member with rfl | rfl | rfl
    · exact .register _
    · exact .register _
    · exact .immediate _
  case add | sub | slt | sltu =>
    rcases member with rfl | rfl | rfl
    · exact .register _
    · exact .register _
    · exact .register _

theorem IsOperand.bareWord {operand : String} (written : IsOperand operand) :
    Assembler.BareWord (Glyphs.ofString operand) := by
  cases written with
  | register register => exact Assembler.bareWord_registerText register
  | immediate immediate => exact Assembler.bareWord_toString immediate.toInt
  | place offset base => exact Assembler.bareWord_placeText offset.toInt base
  | datum word => exact Assembler.bareWord_hexWord word.toNat

theorem length_registerText_le (register : Register) :
    (registerText register).toList.length ≤ 7 := by
  have number : (toString (register.val : Int)).toList.length ≤ 6 :=
    Text.length_toString_le (by omega) (by omega)
  rw [registerText, String.toList_append, List.length_append]
  exact Nat.add_le_add_left number 1

theorem length_immediate_le (immediate : Int16) :
    (toString immediate.toInt).toList.length ≤ 6 := by
  have least := immediate.le_toInt
  have greatest := immediate.toInt_lt
  exact Text.length_toString_le (by omega) (by omega)

theorem IsOperand.length_le {operand : String} (written : IsOperand operand) :
    (Glyphs.ofString operand).length ≤ 16 := by
  rw [Glyphs.length_ofString]
  cases written with
  | register register =>
      have short := length_registerText_le register
      omega
  | immediate immediate =>
      have short := length_immediate_le immediate
      omega
  | place offset base =>
      have offsetShort := length_immediate_le offset
      have baseShort := length_registerText_le base
      simp only [Assembler.placeText, String.toList_append, List.length_append]
      change _ + 1 + _ + 1 ≤ 16
      omega
  | datum word =>
      have short := Text.length_hexWord_le word.toNat_lt
      omega

end Instruction

namespace Assembler

/-- The operands of an instruction encode as its word. -/
theorem encode_operands {equates : Equates} (named : equates.Named) (word : Word)
    (address : Address) :
    encode equates word.op ((Instruction.decode word address).operands.map Glyphs.ofString) =
      .ok ⟨word, none⟩ := by
  have sRead := registerOf_registerText named word.regS_lt
  have tRead := registerOf_registerText named word.regT_lt
  have dRead := registerOf_registerText named word.regD_lt
  have whole := @Word.encode_op word
  have sameWord {code : Word} (same : code = word) :
      (Except.ok ⟨code, none⟩ : Except Fault Encoded) = .ok ⟨word, none⟩ := by rw [same]
  simp only [Instruction.decode_eq, Instruction.operands]
  cases operation : word.op
  all_goals rw [operation] at whole
  case word =>
    have noLabel := equates.isLabel_eq_false (startsName_hexWord word.toNat)
    simp [encode, encodeDatum, noLabel, valueOf_hexWord named, Except.map]
  case other code =>
    have known := word.op_mem_table
    simp [operation, Op.table] at known
  case add | sub | slt | sltu =>
    simp only [encode, List.map_cons, List.map_nil, encodeThree, sRead, tRead, dRead]
    exact sameWord (whole (by decide))
  case mult | multu | div | divu =>
    simp only [encode, List.map_cons, List.map_nil, encodeTwo, sRead, tRead]
    exact sameWord (whole (by decide))
  case mfhi | mflo | lis =>
    simp only [encode, List.map_cons, List.map_nil, encodeOne, dRead]
    exact sameWord (whole (by decide))
  case jr | jalr =>
    simp only [encode, List.map_cons, List.map_nil, encodeOne, sRead]
    exact sameWord (whole (by decide))
  case beq | bne =>
    have noLabel := equates.isLabel_eq_false (startsName_toString word.immediate.toInt)
    simp only [encode, List.map_cons, List.map_nil, encodeBranch, sRead, tRead, noLabel,
      immediateOf_toString named]
    exact sameWord (whole (by decide))
  case lw | sw =>
    have offset := (bareWord_toString word.immediate.toInt).nonempty
    simp only [encode, List.map_cons, List.map_nil, encodeIndexed, sRead, tRead,
      indexed?_placeText, List.isEmpty_eq_false_iff.mpr offset, immediateOf_toString named]
    exact sameWord (whole (by decide))

/-- The line that a word is written as.  It does not depend on the address of the word. -/
def lineOf (word : Word) : Glyphs :=
  Glyphs.ofString (Instruction.decode word .zero).text

section Written

variable (word : Word)

/-- The mnemonics of the table are bare words, and each names its own operation. -/
theorem mnemonic_of_mem_table {op : Op} (known : op ∈ Op.table) :
    BareWord (Glyphs.ofString op.name) ∧ Op.ofName? op.name = some op ∧ op.name ≠ ".equ" ∧
      op.name.toList.length ≤ 5 := by
  have each : ∀ op ∈ Op.table, op.name.toList ≠ [] ∧
      op.name.toList.all isPlainChar = true ∧
      Op.ofName? op.name = some op ∧ op.name ≠ ".equ" ∧ op.name.toList.length ≤ 5 := by
    decide
  obtain ⟨nonempty, plain, named, other, short⟩ := each op known
  exact ⟨bareWord_ofString nonempty plain, named, other, short⟩

theorem operands_ne_nil : (Instruction.decode word .zero).operands ≠ [] := by
  simp only [Instruction.decode_eq, Instruction.operands]
  split <;> simp

theorem length_operands_decode_le : (Instruction.decode word .zero).operands.length ≤ 3 := by
  simp only [Instruction.decode_eq, Instruction.operands]
  split <;> simp

theorem bareWord_of_mem_operands :
    ∀ operand ∈ (Instruction.decode word .zero).operands.map Glyphs.ofString,
      BareWord operand := by
  intro operand member
  obtain ⟨text, inside, rfl⟩ := List.mem_map.mp member
  exact (Instruction.isOperand_of_mem inside).bareWord

theorem lineOf_eq :
    lineOf word = bareLine (Glyphs.ofString word.op.name)
      ((Instruction.decode word .zero).operands.map Glyphs.ofString) := by
  rw [lineOf, Instruction.decode_eq]
  exact Instruction.ofString_text word.op_mem_table

theorem statementText_lineOf : statementText (lineOf word).dropCarriageReturn = lineOf word := by
  have mnemonic := (mnemonic_of_mem_table word.op_mem_table).1
  have nonempty : (Instruction.decode word .zero).operands.map Glyphs.ofString ≠ [] := by
    simpa using operands_ne_nil word
  have written := bareWord_of_mem_operands word
  rw [lineOf_eq, dropCarriageReturn_bareLine _ nonempty written,
    statementText_bareLine mnemonic nonempty written]

theorem byteLength_lineOf : (lineOf word).byteLength < Assembly.maxLineBytes := by
  have mnemonic := (mnemonic_of_mem_table word.op_mem_table).2.2.2
  have count := length_operands_decode_le word
  have short : ∀ operand ∈ (Instruction.decode word .zero).operands.map Glyphs.ofString,
      operand.length ≤ 16 := by
    intro operand member
    obtain ⟨text, inside, rfl⟩ := List.mem_map.mp member
    exact (Instruction.isOperand_of_mem inside).length_le
  have operands := length_operands_le short
  have bytes := Glyphs.byteLength_le (lineOf word)
  have length : (lineOf word).length ≤ 60 := by
    rw [lineOf_eq, bareLine, List.length_append, Glyphs.length_ofString, List.length_cons]
    rw [List.length_map] at operands
    omega
  unfold Assembly.maxLineBytes
  omega

theorem newline_notMem_lineOf : .char '\n' ∉ lineOf word := by
  have mnemonic := (mnemonic_of_mem_table word.op_mem_table).1
  rw [lineOf_eq]
  exact notMem_bareLine mnemonic (bareWord_of_mem_operands word) (by decide) (by decide)
    (by decide)

theorem lineOf_ne_nil : lineOf word ≠ [] := by
  rw [lineOf_eq]
  simp [bareLine]

end Written

namespace Assembly

theorem named_setEquate {equates : Equates} (named : equates.Named) {name : Glyphs}
    (text : Glyphs) (proper : startsName name = true) :
    (setEquate equates name text).Named := by
  intro word defined
  rw [setEquate, Std.TreeMap.contains_insert, Bool.or_eq_true] at defined
  rcases defined with same | before
  · rw [beq_iff_eq, Std.compare_eq_iff_eq] at same
    rw [← same]
    exact proper
  · exact named word before

theorem named_start : (start []).equates.Named := by
  have empty : (∅ : Equates).Named := by
    intro word defined
    simp at defined
  have each : ∀ definition ∈ systemEquates ++ [],
      startsName definition.1 = true := by decide
  have all (definitions : Definitions) {equates : Equates}
      (proper : ∀ definition ∈ definitions, startsName definition.1 = true)
      (named : equates.Named) :
      (definitions.foldl
        (fun equates definition => setEquate equates definition.1 definition.2) equates).Named := by
    induction definitions generalizing equates with
    | nil => exact named
    | cons definition definitions ih =>
        apply ih fun later member => proper later (List.mem_cons_of_mem _ member)
        exact named_setEquate named _ (proper definition (by simp))
  exact all _ each empty

def opcodeOf (index : Nat) (word : Word) : Opcode :=
  { lineNo := (index + 1 : Nat)
    pc := UInt32.ofNat (4 * index)
    words :=
      Glyphs.ofString word.op.name ::
        (Instruction.decode word .zero).operands.map Glyphs.ofString
    code := word
    label := none }

theorem labelOf?_eq_none {word : Glyphs} (absent : .char ':' ∉ word) : labelOf? word = none := by
  unfold labelOf?
  split
  · rename_i reversed ends
    have member : .char ':' ∈ word.reverse := by rw [ends]; exact List.mem_cons_self
    exact absurd (List.mem_reverse.mp member) absent
  · rfl

/-- The line of a word emits the word. -/
theorem readLine_lineOf {assembly : Assembly} (named : assembly.equates.Named) (word : Word) :
    assembly.readLine (assembly.opcodes.size + 1) (lineOf word) =
      ({ assembly.beginLine (assembly.opcodes.size + 1) with
          opcodes := assembly.opcodes.push (opcodeOf assembly.opcodes.size word) }, none) := by
  obtain ⟨mnemonic, operation, other, -⟩ := mnemonic_of_mem_table word.op_mem_table
  have begun : (assembly.beginLine (assembly.opcodes.size + 1)).equates.Named :=
    named_setEquate named _ (by decide)
  have words := wordsOf_bareLine (assembly.beginLine (assembly.opcodes.size + 1)).equates mnemonic
    (bareWord_of_mem_operands word)
  have noEquate : Glyphs.ofString word.op.name ≠ Glyphs.ofString ".equ" :=
    fun same => other (Glyphs.ofString_injective same)
  have noLabel := labelOf?_eq_none (mnemonic.notMem (by decide))
  rw [← lineOf_eq] at words
  simp only [readLine, words, noEquate, if_false, defineLabels, noLabel, emit,
    Glyphs.shown_ofString, operation, encode_operands begun]
  rfl

/-- The lines of words emit the words. -/
theorem readLines_lineOf (words : List Word) {assembly : Assembly}
    (named : assembly.equates.Named) (previous : Glyphs) :
    ∃ final,
      assembly.readLines assembly.opcodes.size previous (words.map lineOf) = (final, none) ∧
        final.opcodes.toList =
          assembly.opcodes.toList ++
            words.mapIdx fun index word => opcodeOf (assembly.opcodes.size + index) word := by
  induction words generalizing assembly previous with
  | nil => exact ⟨assembly, rfl, by simp⟩
  | cons word words ih =>
      have fits : ¬ maxLineBytes ≤ (lineOf word).byteLength := by
        have bytes := byteLength_lineOf word
        omega
      let next : Assembly :=
        { assembly.beginLine (assembly.opcodes.size + 1) with
          opcodes := assembly.opcodes.push (opcodeOf assembly.opcodes.size word) }
      have size : next.opcodes.size = assembly.opcodes.size + 1 := Array.size_push _
      have begun : next.equates.Named := named_setEquate named _ (by decide)
      obtain ⟨final, read, emitted⟩ := ih begun (lineOf word)
      refine ⟨final, ?_, ?_⟩
      · rw [List.map_cons, readLines, if_neg fits]
        simp only [statementText_lineOf, readLine_lineOf named]
        rw [size] at read
        exact read
      · rw [emitted, size, Array.toList_push, List.append_assoc, List.mapIdx_cons]
        simp only [List.singleton_append, Nat.add_zero, Nat.add_assoc, Nat.add_comm 1]

theorem linkOpcodes_eq_self (labels : Labels) {opcodes : List Opcode}
    (unlabelled : ∀ opcode ∈ opcodes, opcode.label = none) :
    linkOpcodes labels opcodes = (opcodes, none) := by
  induction opcodes with
  | nil => rfl
  | cons opcode opcodes ih =>
      have first := unlabelled opcode (by simp)
      have others := ih fun later member => unlabelled later (List.mem_cons_of_mem _ member)
      simp only [linkOpcodes, linkOpcode, first, others]

end Assembly

def disassembly (words : List Word) : String :=
  "\n".intercalate
    (words.mapIdx fun index word => (Instruction.decode word (Address.ofNat index)).text)

theorem lines_disassembly (words : List Word) :
    (Glyphs.ofString (disassembly words)).lines = words.map lineOf := by
  have texts : (words.mapIdx fun index word =>
      (Instruction.decode word (Address.ofNat index)).text).map Glyphs.ofString =
        words.map lineOf := by
    apply List.ext_getElem?
    intro index
    simp only [List.getElem?_map, List.getElem?_mapIdx, Option.map_map]
    congr 1
    funext word
    simp only [Function.comp_apply, lineOf, Instruction.decode_eq]
    rfl
  rw [disassembly, Glyphs.ofString_intercalate, texts]
  apply Text.splitBefore_intercalate
  · intro line member
    obtain ⟨word, -, rfl⟩ := List.mem_map.mp member
    exact newline_notMem_lineOf word
  · intro line member
    obtain ⟨word, -, rfl⟩ := List.mem_map.mp member
    exact lineOf_ne_nil word

theorem assemble_eq_opcodeOf (words : List Word) :
    ∃ assembly, assemble [] (Glyphs.ofString (disassembly words)) = (assembly, none) ∧
      assembly.program.opcodes = words.mapIdx Assembly.opcodeOf := by
  obtain ⟨first, read, emitted⟩ := Assembly.readLines_lineOf words Assembly.named_start []
  have listing : first.opcodes.toList = words.mapIdx Assembly.opcodeOf := by
    simpa [Assembly.start] using emitted
  have unlabelled : ∀ opcode ∈ first.opcodes.toList, opcode.label = none := by
    intro opcode member
    rw [listing] at member
    obtain ⟨index, inside, rfl⟩ := List.mem_mapIdx.mp member
    rfl
  have linked := Assembly.linkOpcodes_eq_self first.labels unlabelled
  refine ⟨{ first with opcodes := first.opcodes.toList.toArray }, ?_, listing⟩
  rw [← lines_disassembly] at read
  change (Assembly.start []).readLines 0 [] _ = _ at read
  simp only [assemble, read, Assembly.link, linked]

theorem toNat_bytes (word : Word) :
    (Image.bytes word).map UInt8.toNat =
      [word.toNat / 0x1000000, word.toNat / 0x10000 % 0x100, word.toNat / 0x100 % 0x100,
        word.toNat % 0x100] := by
  have bounded := word.toNat_lt
  have first : word.toNat / 0x1000000 % 0x100 = word.toNat / 0x1000000 := by omega
  simp only [Image.bytes, List.map_cons, List.map_nil, UInt8.toNat_ofNat', first]

/-- A disassembly assembles to the words that it was written for, each at the address that
it was written for. -/
theorem assemble_disassembly (words : List Word) (fits : words.length < 0x40000000) :
    ∃ assembly, assemble [] (Glyphs.ofString (disassembly words)) = (assembly, none) ∧
      assembly.program.opcodes.map (fun opcode => (opcode.pc.toNat, opcode.code)) =
        words.mapIdx (fun index word => (4 * index, word)) ∧
      assembly.program.image.map UInt8.toNat =
        words.flatMap fun word =>
          [word.toNat / 0x1000000, word.toNat / 0x10000 % 0x100, word.toNat / 0x100 % 0x100,
            word.toNat % 0x100] := by
  obtain ⟨assembly, assembled, listing⟩ := assemble_eq_opcodeOf words
  refine ⟨assembly, assembled, ?_, ?_⟩
  · rw [listing]
    apply List.ext_getElem?
    intro index
    cases found : words[index]? with
    | none => simp [found]
    | some word =>
        have inside : index < words.length := (List.getElem?_eq_some_iff.mp found).1
        have pc : (UInt32.ofNat (4 * index)).toNat = 4 * index := by
          rw [UInt32.toNat_ofNat', Nat.mod_eq_of_lt (by omega)]
        simp only [List.getElem?_map, List.getElem?_mapIdx, found, Option.map_some,
          Assembly.opcodeOf, pc]
  · have codes : assembly.program.opcodes.map Opcode.code = words := by
      rw [listing]
      apply List.ext_getElem?
      intro index
      cases found : words[index]? <;> simp [found, Assembly.opcodeOf]
    rw [Program.image, codes, Image.ofWords, List.map_flatMap]
    congr 1
    funext word
    exact toNat_bytes word

/-- A load, a branch backward, a return and a word that is no instruction. -/
def mixedWords : List Word := [0x8fbffffc, 0x1000ffff, 0x03e00008, 0xdeadbeef]

theorem assemble_disassembly_mixedWords :
    mixedWords.length < 0x40000000 ∧
      disassembly mixedWords = "lw $31, -4($29)\nbeq $0, $0, -1\njr $31\n.word 0xdeadbeef" ∧
      ∃ assembly, assemble [] (Glyphs.ofString (disassembly mixedWords)) = (assembly, none) ∧
        assembly.program.opcodes.map (fun opcode => (opcode.pc.toNat, opcode.code)) =
          [(0, 0x8fbffffc), (4, 0x1000ffff), (8, 0x03e00008), (12, 0xdeadbeef)] ∧
        assembly.program.image.map UInt8.toNat =
          [0x8f, 0xbf, 0xff, 0xfc, 0x10, 0x00, 0xff, 0xff, 0x03, 0xe0, 0x00, 0x08, 0xde, 0xad,
            0xbe, 0xef] :=
  ⟨by decide, by decide +kernel, assemble_disassembly mixedWords (by decide)⟩

end Assembler
end ReversibleMips
