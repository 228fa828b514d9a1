import ReversibleMips.Assembler.Assembly

/-!
# What the first pass leaves

The first pass reads line after line.  One line defines the labels that it starts with and
emits at most one opcode behind them, so a label gets the address of the next opcode,
whichever line that comes from.  By induction over the lines, every opcode stands at the
address that its place in the program gives, an opcode that refers to a label is a
placeholder, and a label has the address that the number of opcodes before its definition
gives.
-/

namespace ReversibleMips

def Opcode.operation? (opcode : Opcode) : Option Op :=
  opcode.words.head?.bind fun mnemonic => Op.ofName? mnemonic.shown

namespace Assembler

theorem exists_of_bind_eq_ok {ε α β : Type} {first : Except ε α} {next : α → Except ε β}
    {result : β} (run : first >>= next = .ok result) :
    ∃ middle, first = .ok middle ∧ next middle = .ok result := by
  cases first with
  | error error => cases run
  | ok middle => exact ⟨middle, rfl, run⟩

theorem registerOf_lt {equates : Equates} {word : Glyphs} {register : Register}
    (read : equates.registerOf word = .ok register) : register.val < 32 := by
  unfold Equates.registerOf at read
  simp only at read
  split at read
  · split at read
    · split at read
      · rename_i general
        cases read
        exact Nat.lt_succ_of_le general
      · cases read
    · cases read
  · cases read

/-- What is encoded of an operation that refers to a label: nothing of a datum, and the
registers of a branch. -/
inductive Unlinked (op : Op) (code : Word) : Prop
  | datum (word : op = .word) (blank : code = 0)
  | branch (conditional : op = .beq ∨ op = .bne) (s t : Nat) (sGeneral : s < 32)
      (tGeneral : t < 32) (registers : code = op.encode s t 0 0)

section Encode

variable {equates : Equates} {op : Op} {arguments : List Glyphs} {encoded : Encoded}

theorem code_of_encodeDatum (read : encodeDatum equates arguments = .ok encoded)
    (refers : encoded.label ≠ none) : encoded.code = 0 := by
  unfold encodeDatum at read
  split at read
  · rename_i argument
    split at read
    · cases read
      rfl
    · cases value : equates.valueOf argument with
      | error fault => simp [value, Except.map] at read
      | ok word =>
          simp only [value, Except.map] at read
          cases read
          exact absurd rfl refers
  · cases read

theorem label_of_encodeThree (read : encodeThree equates op arguments = .ok encoded) :
    encoded.label = none := by
  unfold encodeThree at read
  split at read
  · obtain ⟨d, -, read⟩ := exists_of_bind_eq_ok read
    obtain ⟨s, -, read⟩ := exists_of_bind_eq_ok read
    obtain ⟨t, -, read⟩ := exists_of_bind_eq_ok read
    cases read
    rfl
  · cases read

theorem label_of_encodeTwo (read : encodeTwo equates op arguments = .ok encoded) :
    encoded.label = none := by
  unfold encodeTwo at read
  split at read
  · obtain ⟨s, -, read⟩ := exists_of_bind_eq_ok read
    obtain ⟨t, -, read⟩ := exists_of_bind_eq_ok read
    cases read
    rfl
  · cases read

theorem label_of_encodeOne (read : encodeOne equates op arguments = .ok encoded) :
    encoded.label = none := by
  unfold encodeOne at read
  split at read
  · obtain ⟨register, -, read⟩ := exists_of_bind_eq_ok read
    cases read
    rfl
  · cases read

theorem label_of_encodeIndexed (read : encodeIndexed equates op arguments = .ok encoded) :
    encoded.label = none := by
  unfold encodeIndexed at read
  split at read
  · obtain ⟨t, -, read⟩ := exists_of_bind_eq_ok read
    split at read
    · cases read
    · obtain ⟨s, -, read⟩ := exists_of_bind_eq_ok read
      simp only at read
      split at read
      · cases read
        rfl
      · obtain ⟨immediate, -, read⟩ := exists_of_bind_eq_ok read
        cases read
        rfl
  · cases read

/-- A branch to a label has its registers in place and no distance yet. -/
theorem code_of_encodeBranch (read : encodeBranch equates op arguments = .ok encoded)
    (refers : encoded.label ≠ none) :
    ∃ s t : Nat, s < 32 ∧ t < 32 ∧ encoded.code = op.encode s t 0 0 := by
  unfold encodeBranch at read
  split at read
  · obtain ⟨s, sRead, read⟩ := exists_of_bind_eq_ok read
    obtain ⟨t, tRead, read⟩ := exists_of_bind_eq_ok read
    split at read
    · cases read
    · split at read
      · cases read
        exact ⟨s.val, t.val, registerOf_lt sRead, registerOf_lt tRead, rfl⟩
      · obtain ⟨immediate, -, read⟩ := exists_of_bind_eq_ok read
        cases read
        exact absurd rfl refers
  · cases read

/-- Only data and branches refer to labels. -/
theorem unlinked_of_encode (read : encode equates op arguments = .ok encoded)
    (refers : encoded.label ≠ none) : Unlinked op encoded.code := by
  cases op
  case word => exact .datum rfl (code_of_encodeDatum read refers)
  case add | sub | slt | sltu => exact absurd (label_of_encodeThree read) refers
  case mult | multu | div | divu => exact absurd (label_of_encodeTwo read) refers
  case mfhi | mflo | lis | jr | jalr => exact absurd (label_of_encodeOne read) refers
  case lw | sw => exact absurd (label_of_encodeIndexed read) refers
  case beq =>
    obtain ⟨s, t, sGeneral, tGeneral, code⟩ := code_of_encodeBranch read refers
    exact .branch (.inl rfl) s t sGeneral tGeneral code
  case bne =>
    obtain ⟨s, t, sGeneral, tGeneral, code⟩ := code_of_encodeBranch read refers
    exact .branch (.inr rfl) s t sGeneral tGeneral code
  case other => cases read

end Encode

def endsLabel (word : Glyphs) : Bool := word.getLast? = some (.char ':')

def labelsOf (words : List Glyphs) : List Glyphs :=
  if words.head? = some (Glyphs.ofString ".equ") then []
  else (words.takeWhile endsLabel).map List.dropLast

/-- An opcode as it is emitted behind a number of others. -/
structure Placed (index : Nat) (opcode : Opcode) : Prop where
  pc_eq : opcode.pc = UInt32.ofNat (4 * index)
  numbered : 0 ≤ opcode.lineNo
  unlinked : opcode.label ≠ none → ∃ op, opcode.operation? = some op ∧ Unlinked op opcode.code

/-- An opcode is emitted behind a number of others, by an operation and the words behind its
mnemonic. -/
structure Emits (equates : Equates) (index lineNo : Nat) (words : List Glyphs) (op : Op)
    (arguments : List Glyphs) (opcode : Opcode) : Prop where
  words_eq : opcode.words = words
  named : words = Glyphs.ofString op.name :: arguments
  known : op ∈ Op.table
  encodes : encode equates op arguments = .ok ⟨opcode.code, opcode.label⟩
  lineNo_eq : opcode.lineNo = lineNo
  pc_eq : opcode.pc = UInt32.ofNat (4 * index)

theorem mnemonic_of_ofName? {mnemonic : Glyphs} {op : Op}
    (named : Op.ofName? mnemonic.shown = some op) :
    op ∈ Op.table ∧ mnemonic = Glyphs.ofString op.name := by
  have known : op ∈ Op.table := List.mem_of_find?_eq_some named
  have nameEq : op.name = mnemonic.shown := by simpa using List.find?_some named
  have charsEq : op.name.toList = mnemonic.chars := by
    rw [nameEq, Glyphs.shown, String.toList_ofList]
  refine ⟨known, ?_⟩
  have plain : ∀ op ∈ Op.table, Glyph.replacement ∉ op.name.toList := by decide
  rw [Glyphs.ofString, charsEq]
  apply Glyphs.eq_ofChars
  rw [← charsEq]
  exact plain op known

section Emits

variable {equates : Equates} {index lineNo : Nat} {words : List Glyphs} {op : Op}
    {arguments : List Glyphs} {opcode : Opcode}
    (emits : Emits equates index lineNo words op arguments opcode)
include emits

theorem Emits.operation_eq : opcode.operation? = some op := by
  have ofName : ∀ op ∈ Op.table, Op.ofName? op.name = some op := by decide
  rw [Opcode.operation?, emits.words_eq, emits.named, List.head?_cons, Option.bind_some,
    Glyphs.shown_ofString]
  exact ofName op emits.known

theorem Emits.placed : Placed index opcode where
  pc_eq := emits.pc_eq
  numbered := by
    rw [emits.lineNo_eq]
    exact Int.natCast_nonneg lineNo
  unlinked := fun refers => ⟨op, emits.operation_eq, unlinked_of_encode emits.encodes refers⟩

end Emits

namespace Assembly

theorem labelOf?_eq (word : Glyphs) :
    labelOf? word = if endsLabel word then some word.dropLast else none := by
  unfold labelOf? endsLabel
  rw [← List.head?_reverse]
  split
  · rename_i reversed ends
    have whole : word = reversed.reverse ++ [.char ':'] := by
      rw [← List.reverse_reverse word, ends, List.reverse_cons]
    simp [whole]
  · rename_i other
    have differs : word.reverse.head? ≠ some (.char ':') := by
      intro same
      obtain ⟨rest, ends⟩ := List.head?_eq_some_iff.mp same
      exact other rest ends
    simp only [differs, decide_false, Bool.false_eq_true, if_false]

/-- What defining the labels of a line does to the labels. -/
theorem defineLabels_ok {assembly next : Assembly} {words rest : List Glyphs}
    (defined : assembly.defineLabels words = (next, .ok rest)) :
    next = { assembly with labels := next.labels } ∧
      ∀ label address, next.labels[label]? = some address ↔
        assembly.labels[label]? = some address ∨
          label ∈ (words.takeWhile endsLabel).map List.dropLast ∧
            address = assembly.nextPc := by
  induction words generalizing assembly with
  | nil =>
      cases defined
      simp
  | cons word words ih =>
      rw [defineLabels, labelOf?_eq] at defined
      by_cases ends : endsLabel word = true
      · simp only [ends, if_true] at defined
        split at defined
        · cases defined
        · rename_i fresh
          obtain ⟨same, labels⟩ := ih defined
          refine ⟨same, fun label address => ?_⟩
          rw [labels label address, Std.TreeMap.getElem?_insert,
            List.takeWhile_cons_of_pos ends, List.map_cons, List.mem_cons]
          by_cases here : label = word.dropLast
          · -- A label that had been defined before would be a duplicate.
            subst here
            have absent : assembly.labels[word.dropLast]? = none :=
              Std.TreeMap.getElem?_eq_none (by simpa using fresh)
            rw [if_pos (Std.compare_eq_iff_eq.mpr rfl), absent]
            constructor
            · rintro (new | ⟨-, again⟩)
              · exact .inr ⟨.inl rfl, (Option.some.inj new).symm⟩
              · exact .inr ⟨.inl rfl, again⟩
            · rintro (old | ⟨-, new⟩)
              · cases old
              · exact .inl (congrArg some new.symm)
          · have differs : compare word.dropLast label ≠ .eq :=
              fun same => here (Std.compare_eq_iff_eq.mp same).symm
            simp only [differs, if_false, here, false_or]
            rfl
      · simp only [ends] at defined
        cases defined
        simp [ends]

theorem defineEquate_ok {assembly next : Assembly} {words : List Glyphs}
    (defined : assembly.defineEquate words = (next, none)) :
    next.labels = assembly.labels ∧ next.opcodes = assembly.opcodes := by
  unfold defineEquate at defined
  split at defined
  · split at defined
    · cases defined
    · cases defined
      exact ⟨rfl, rfl⟩
  · cases defined

theorem rest_of_defineLabels {assembly next : Assembly} {words rest : List Glyphs}
    (defined : assembly.defineLabels words = (next, .ok rest)) :
    rest = words.dropWhile endsLabel := by
  induction words generalizing assembly with
  | nil =>
      cases defined
      rfl
  | cons word words ih =>
      rw [defineLabels, labelOf?_eq] at defined
      by_cases ends : endsLabel word = true
      · simp only [ends, if_true] at defined
        split at defined
        · cases defined
        · rw [List.dropWhile_cons_of_pos ends]
          exact ih defined
      · simp only [ends] at defined
        cases defined
        rw [List.dropWhile_cons_of_neg ends]

theorem emits_emit {assembly next : Assembly} {lineNo : Nat} {words : List Glyphs}
    (emitted : assembly.emit lineNo words = (next, none)) :
    next.labels = assembly.labels ∧
      (next.opcodes = assembly.opcodes ∨
        ∃ op arguments opcode,
          Emits assembly.equates assembly.opcodes.size lineNo words op arguments opcode ∧
          next.opcodes = assembly.opcodes.push opcode) := by
  unfold emit at emitted
  split at emitted
  · cases emitted
    exact ⟨rfl, .inl rfl⟩
  · rename_i mnemonic arguments
    split at emitted
    · cases emitted
    · rename_i op named
      split at emitted
      · cases emitted
      · rename_i encoded read
        cases emitted
        obtain ⟨known, mnemonicEq⟩ := mnemonic_of_ofName? named
        refine ⟨rfl, .inr ⟨op, arguments, _, ?_, rfl⟩⟩
        exact
          { words_eq := rfl
            named := by rw [mnemonicEq]
            known := known
            encodes := read
            lineNo_eq := rfl
            pc_eq := rfl }

/-- A line that is read defines no label and emits nothing, or defines the labels at its
start and emits what is behind them. -/
theorem readLine_ok {assembly next : Assembly} {lineNo : Nat} {line : Glyphs}
    (read : assembly.readLine lineNo line = (next, none)) :
    ∃ words, (assembly.beginLine lineNo).equates.wordsOf line = .ok words ∧
      (labelsOf words = [] ∧ next.labels = assembly.labels ∧ next.opcodes = assembly.opcodes ∨
        ∃ labelled, labelsOf words = (words.takeWhile endsLabel).map List.dropLast ∧
          (assembly.beginLine lineNo).defineLabels words =
            (labelled, .ok (words.dropWhile endsLabel)) ∧
          labelled.emit lineNo (words.dropWhile endsLabel) = (next, none)) := by
  unfold readLine at read
  simp only at read
  split at read
  · cases read
  · rename_i empty
    cases read
    exact ⟨[], empty, .inl ⟨rfl, rfl, rfl⟩⟩
  · rename_i first rest written
    refine ⟨first :: rest, written, ?_⟩
    split at read
    · rename_i equate
      obtain ⟨sameLabels, sameOpcodes⟩ := defineEquate_ok read
      have noLabels : labelsOf (first :: rest) = [] := by simp [labelsOf, equate]
      exact .inl ⟨noLabels, sameLabels, sameOpcodes⟩
    · rename_i noEquate
      split at read
      · cases read
      · rename_i labelled behind defined
        obtain rfl := rest_of_defineLabels defined
        refine .inr ⟨labelled, ?_, defined, read⟩
        simp only [labelsOf, List.head?_cons, Option.some.injEq, noEquate, if_false]

/-- What reading a line with some words adds to what has been assembled. -/
structure Extends (assembly : Assembly) (words : List Glyphs) (next : Assembly) : Prop where
  labels : ∀ label address, next.labels[label]? = some address ↔
    assembly.labels[label]? = some address ∨ label ∈ labelsOf words ∧ address = assembly.nextPc
  opcodes : next.opcodes = assembly.opcodes ∨
    ∃ opcode, Placed assembly.opcodes.size opcode ∧ next.opcodes = assembly.opcodes.push opcode

theorem extends_readLine {assembly next : Assembly} {lineNo : Nat} {line : Glyphs}
    (read : assembly.readLine lineNo line = (next, none)) :
    ∃ words, (assembly.beginLine lineNo).equates.wordsOf line = .ok words ∧
      assembly.Extends words next := by
  obtain ⟨words, written, nothing | ⟨labelled, defines, defined, emitted⟩⟩ := readLine_ok read
  · obtain ⟨noLabels, sameLabels, sameOpcodes⟩ := nothing
    exact ⟨words, written, by simp [noLabels, sameLabels], .inl sameOpcodes⟩
  · obtain ⟨same, labels⟩ := defineLabels_ok defined
    obtain ⟨sameLabels, opcodes⟩ := emits_emit emitted
    have samePc : (assembly.beginLine lineNo).nextPc = assembly.nextPc := rfl
    refine ⟨words, written, fun label address => ?_, ?_⟩
    · rw [sameLabels, labels label address, defines, samePc]
      rfl
    · rw [same] at opcodes
      rcases opcodes with sameOpcodes | ⟨op, arguments, opcode, emits, pushed⟩
      · exact .inl sameOpcodes
      · exact .inr ⟨opcode, emits.placed, pushed⟩

theorem readLines_cons {assembly next : Assembly} {lineNo : Nat} {raw : Glyphs}
    (fits : raw.byteLength < maxLineBytes)
    (first : assembly.readLine (lineNo + 1) (statementText raw.dropCarriageReturn) = (next, none))
    (previous : Glyphs) (rest : List Glyphs) :
    assembly.readLines lineNo previous (raw :: rest) =
      next.readLines (lineNo + 1) (statementText raw.dropCarriageReturn) rest := by
  rw [readLines, if_neg (Nat.not_le_of_lt fits)]
  simp only [first]

theorem readLines_cons_ok {assembly final : Assembly} {lineNo : Nat} {previous raw : Glyphs}
    {rest : List Glyphs}
    (read : assembly.readLines lineNo previous (raw :: rest) = (final, none)) :
    ∃ next, raw.byteLength < maxLineBytes ∧
      assembly.readLine (lineNo + 1) (statementText raw.dropCarriageReturn) = (next, none) ∧
      next.readLines (lineNo + 1) (statementText raw.dropCarriageReturn) rest =
        (final, none) := by
  rw [readLines] at read
  split at read
  · cases read
  · rename_i fits
    simp only at read
    split at read
    · cases read
    · rename_i next first
      exact ⟨next, Nat.lt_of_not_le fits, first, read⟩

theorem readLines_append {assembly middle : Assembly} {lineNo : Nat} {previous : Glyphs}
    {front : List Glyphs} (read : assembly.readLines lineNo previous front = (middle, none))
    (rest : List Glyphs) :
    ∃ line, assembly.readLines lineNo previous (front ++ rest) =
      middle.readLines (lineNo + front.length) line rest := by
  induction front generalizing assembly lineNo previous with
  | nil =>
      cases read
      exact ⟨previous, rfl⟩
  | cons raw front ih =>
      obtain ⟨next, fits, first, later⟩ := readLines_cons_ok read
      obtain ⟨line, behind⟩ := ih later
      refine ⟨line, ?_⟩
      rw [List.cons_append, readLines_cons fits first, behind, List.length_cons,
        Nat.add_assoc, Nat.add_comm 1]

theorem readLines_append_ok {assembly final : Assembly} {lineNo : Nat} {previous : Glyphs}
    {front rest : List Glyphs}
    (read : assembly.readLines lineNo previous (front ++ rest) = (final, none)) :
    ∃ middle line, assembly.readLines lineNo previous front = (middle, none) ∧
      middle.readLines (lineNo + front.length) line rest = (final, none) := by
  induction front generalizing assembly lineNo previous with
  | nil => exact ⟨assembly, previous, rfl, read⟩
  | cons raw front ih =>
      obtain ⟨next, fits, first, later⟩ := readLines_cons_ok read
      obtain ⟨middle, line, frontRead, restRead⟩ := ih later
      refine ⟨middle, line, ?_, ?_⟩
      · rw [readLines_cons fits first]
        exact frontRead
      · rw [List.length_cons, Nat.add_comm front.length, ← Nat.add_assoc]
        exact restRead

/-- Every opcode stands where its number puts it. -/
def Listed (assembly : Assembly) : Prop :=
  ∀ index opcode, assembly.opcodes[index]? = some opcode → Placed index opcode

theorem Extends.size_le {assembly next : Assembly} {words : List Glyphs}
    (extension : assembly.Extends words next) : assembly.opcodes.size ≤ next.opcodes.size := by
  rcases extension.opcodes with same | ⟨opcode, -, pushed⟩
  · exact Nat.le_of_eq (congrArg Array.size same.symm)
  · rw [pushed, Array.size_push]
    omega

theorem Extends.listed {assembly next : Assembly} {words : List Glyphs}
    (extension : assembly.Extends words next) (listed : assembly.Listed) : next.Listed := by
  rcases extension.opcodes with same | ⟨opcode, placed, pushed⟩
  · rw [Listed, same]
    exact listed
  · intro index found member
    rw [pushed, Array.getElem?_push] at member
    split at member
    · rename_i last
      cases member
      rw [last]
      exact placed
    · exact listed index found member

theorem size_le_of_readLines {assembly final : Assembly} {lineNo : Nat} {previous : Glyphs}
    {lines : List Glyphs} (read : assembly.readLines lineNo previous lines = (final, none)) :
    assembly.opcodes.size ≤ final.opcodes.size := by
  induction lines generalizing assembly lineNo previous with
  | nil =>
      cases read
      exact Nat.le_refl _
  | cons raw lines ih =>
      obtain ⟨next, -, first, later⟩ := readLines_cons_ok read
      obtain ⟨words, -, extension⟩ := extends_readLine first
      exact Nat.le_trans extension.size_le (ih later)

theorem Listed.readLines {assembly final : Assembly} {lineNo : Nat} {previous : Glyphs}
    {lines : List Glyphs} (listed : assembly.Listed)
    (read : assembly.readLines lineNo previous lines = (final, none)) : final.Listed := by
  induction lines generalizing assembly lineNo previous with
  | nil =>
      cases read
      exact listed
  | cons raw lines ih =>
      obtain ⟨next, -, first, later⟩ := readLines_cons_ok read
      obtain ⟨words, -, extension⟩ := extends_readLine first
      exact ih (extension.listed listed) later

/-- A label is defined by one of some lines, behind a number of opcodes. -/
inductive Defines (assembly : Assembly) (lineNo : Nat) (previous : Glyphs)
    (lines : List Glyphs) (label : Glyphs) (count : Nat) : Prop
  | intro (before : List Glyphs) (raw : Glyphs) (after : List Glyphs) (middle : Assembly)
      (words : List Glyphs)
      (cut : lines = before ++ raw :: after)
      (read : assembly.readLines lineNo previous before = (middle, none))
      (written : (middle.beginLine (lineNo + before.length + 1)).equates.wordsOf
        (statementText raw.dropCarriageReturn) = .ok words)
      (starts : label ∈ labelsOf words)
      (counted : middle.opcodes.size = count)

/-- A label is defined by the first line or by a later one. -/
theorem defines_cons {assembly next : Assembly} {lineNo : Nat} {raw : Glyphs}
    {words : List Glyphs} (fits : raw.byteLength < maxLineBytes)
    (first : assembly.readLine (lineNo + 1) (statementText raw.dropCarriageReturn) = (next, none))
    (written : (assembly.beginLine (lineNo + 1)).equates.wordsOf
      (statementText raw.dropCarriageReturn) = .ok words)
    (previous : Glyphs) (rest : List Glyphs) (label : Glyphs) (count : Nat) :
    Defines assembly lineNo previous (raw :: rest) label count ↔
      label ∈ labelsOf words ∧ assembly.opcodes.size = count ∨
        Defines next (lineNo + 1) (statementText raw.dropCarriageReturn) rest label count := by
  constructor
  · rintro ⟨before, line, after, middle, lineWords, cut, read, lineWritten, starts, counted⟩
    cases before with
    | nil =>
        cases cut
        cases read
        have sameWords : lineWords = words := Except.ok.inj (lineWritten.symm.trans written)
        rw [sameWords] at starts
        exact .inl ⟨starts, counted⟩
    | cons head before =>
        cases cut
        rw [readLines_cons fits first] at read
        refine .inr ⟨before, line, after, middle, lineWords, rfl, read, ?_, starts, counted⟩
        rw [List.length_cons, Nat.add_comm before.length, ← Nat.add_assoc] at lineWritten
        exact lineWritten
  · rintro (⟨starts, counted⟩ | ⟨before, line, after, middle, lineWords, cut, read, lineWritten,
      starts, counted⟩)
    · exact ⟨[], raw, rest, assembly, words, rfl, rfl, written, starts, counted⟩
    · refine ⟨raw :: before, line, after, middle, lineWords, ?_, ?_, ?_, starts, counted⟩
      · rw [cut, List.cons_append]
      · rw [readLines_cons fits first]
        exact read
      · rw [List.length_cons, Nat.add_comm before.length, ← Nat.add_assoc]
        exact lineWritten

/-- Labels have the addresses that the numbers of opcodes before them give. -/
theorem labels_of_readLines {assembly final : Assembly} {lineNo : Nat} {previous : Glyphs}
    {lines : List Glyphs} (read : assembly.readLines lineNo previous lines = (final, none))
    (label : Glyphs) (address : UInt32) :
    final.labels[label]? = some address ↔
      assembly.labels[label]? = some address ∨
        ∃ count, Defines assembly lineNo previous lines label count ∧
          address = UInt32.ofNat (4 * count) := by
  induction lines generalizing assembly lineNo previous with
  | nil =>
      cases read
      constructor
      · exact .inl
      · rintro (old | ⟨count, ⟨before, raw, after, middle, words, cut, -⟩, -⟩)
        · exact old
        · exact absurd cut (by simp)
  | cons raw lines ih =>
      obtain ⟨next, fits, first, later⟩ := readLines_cons_ok read
      obtain ⟨words, written, extension⟩ := extends_readLine first
      rw [ih later, extension.labels, or_assoc]
      apply or_congr_right
      simp only [defines_cons fits first written]
      constructor
      · rintro (⟨starts, here⟩ | ⟨count, defines, place⟩)
        · exact ⟨assembly.opcodes.size, .inl ⟨starts, rfl⟩, here⟩
        · exact ⟨count, .inr defines, place⟩
      · rintro ⟨count, ⟨starts, counted⟩ | defines, place⟩
        · rw [← counted] at place
          exact .inl ⟨starts, place⟩
        · exact .inr ⟨count, defines, place⟩

theorem Defines.count_le {assembly final : Assembly} {lineNo : Nat} {previous : Glyphs}
    {lines : List Glyphs} {label : Glyphs} {count : Nat}
    (defines : Defines assembly lineNo previous lines label count)
    (read : assembly.readLines lineNo previous lines = (final, none)) :
    count ≤ final.opcodes.size := by
  obtain ⟨before, raw, after, middle, words, cut, frontRead, -, -, counted⟩ := defines
  rw [cut] at read
  obtain ⟨reached, line, front, rest⟩ := readLines_append_ok read
  have same : reached = middle := (Prod.mk.inj (front.symm.trans frontRead)).1
  rw [← counted, ← same]
  exact size_le_of_readLines rest

theorem listed_start (predefined : Definitions) : (start predefined).Listed := by
  intro index opcode member
  simp [start] at member

end Assembly

def firstPass (predefined : Definitions) (source : Glyphs) :
    Assembly × Option SourceError :=
  (Assembly.start predefined).readLines 0 [] source.lines

theorem readLines_firstPass {predefined : Definitions} {source : Glyphs}
    (passes : (firstPass predefined source).2 = none) :
    (Assembly.start predefined).readLines 0 [] source.lines =
      ((firstPass predefined source).1, none) :=
  Prod.ext rfl passes

theorem listed_firstPass {predefined : Definitions} {source : Glyphs}
    (passes : (firstPass predefined source).2 = none) :
    (firstPass predefined source).1.Listed :=
  (Assembly.listed_start predefined).readLines (readLines_firstPass passes)

theorem placed_firstPass {predefined : Definitions} {source : Glyphs}
    (passes : (firstPass predefined source).2 = none) {opcode : Opcode}
    (member : opcode ∈ (firstPass predefined source).1.opcodes.toList) :
    ∃ index, Placed index opcode := by
  obtain ⟨index, found⟩ := List.getElem?_of_mem member
  exact ⟨index, listed_firstPass passes index opcode (by simpa using found)⟩

theorem assemble_of_firstPass {predefined : Definitions} {source : Glyphs}
    (passes : (firstPass predefined source).2 = none) :
    assemble predefined source = (firstPass predefined source).1.link := by
  unfold assemble
  rw [← firstPass]
  split
  · rename_i failed
    rw [failed] at passes
    cases passes
  · rename_i passed
    rw [passed]

end Assembler
end ReversibleMips
