import ReversibleMips.Proofs.AgreeingEquates
import ReversibleMips.Proofs.LabelledPrograms
import ReversibleMips.Proofs.WrittenInstructions

/-!
# Reading two sources in parallel

Two sources are read line by line, with the same lines but at other line numbers, with equates
that differ in hidden words, and the second one behind opcodes that the first does not have.
As long as the first uses no hidden word, the second emits the same codes.  Its labels lie
behind by the size of the opcodes in front, and the second pass finds the same distances.
-/

namespace ReversibleMips

namespace Opcode

/-- An opcode stands for the address of a label. -/
def IsPointer (opcode : Opcode) : Prop :=
  opcode.operation? = some .word ∧ opcode.label ≠ none

instance (opcode : Opcode) : Decidable opcode.IsPointer := inferInstanceAs (Decidable (_ ∧ _))

/-- An opcode of the first pass is the same as another, a number of bytes behind it. -/
structure Moved (shift : UInt32) (opcode other : Opcode) : Prop where
  pc_eq : other.pc = opcode.pc + shift
  code_eq : other.code = opcode.code
  label_eq : other.label = opcode.label

/-- An opcode that was linked is the same as another, a number of bytes behind it.  Only the
address of a label tells the difference. -/
def Relocated (shift : UInt32) (opcode other : Opcode) : Prop :=
  other.code = if opcode.IsPointer then opcode.code + shift else opcode.code

end Opcode

namespace Assembler

def lineNumberName : Glyphs := Glyphs.ofString "LINENO"

/-- Equates are among others, apart from the line number. -/
def Equates.Within (equates others : Equates) : Prop :=
  ∀ word text, word ≠ lineNumberName → equates[word]? = some text → others[word]? = some text

namespace Assembly

/-- Equates and opcodes stay when more is read, apart from the line number. -/
structure Grows (assembly next : Assembly) : Prop where
  equates : assembly.equates.Within next.equates
  opcodes : assembly.opcodes.toList <+: next.opcodes.toList

theorem Grows.refl (assembly : Assembly) : assembly.Grows assembly :=
  ⟨fun _ _ _ found => found, List.prefix_rfl⟩

theorem Grows.trans {assembly middle next : Assembly} (first : assembly.Grows middle)
    (second : middle.Grows next) : assembly.Grows next where
  equates := fun word text other found =>
    second.equates word text other (first.equates word text other found)
  opcodes := first.opcodes.trans second.opcodes

theorem getElem?_insert_of_ne {equates : Equates} {word other : Glyphs} (differs : other ≠ word)
    (text : Glyphs) : (equates.insert word text)[other]? = equates[other]? := by
  have order : compare word other ≠ .eq := fun same => differs (Std.compare_eq_iff_eq.mp same).symm
  rw [Std.TreeMap.getElem?_insert, if_neg order]

theorem equates_beginLine (assembly : Assembly) (lineNo : Nat) :
    (assembly.beginLine lineNo).equates =
      assembly.equates.insert lineNumberName (Glyphs.ofString (toString lineNo)) := rfl

theorem grows_beginLine (assembly : Assembly) (lineNo : Nat) :
    assembly.Grows (assembly.beginLine lineNo) where
  equates := fun word text other found => by
    rw [equates_beginLine, getElem?_insert_of_ne other]
    exact found
  opcodes := List.prefix_rfl

theorem Grows.within_beginLine {assembly next : Assembly} (grows : assembly.Grows next)
    (lineNo : Nat) : (assembly.beginLine lineNo).equates.Within next.equates := by
  intro word text other found
  rw [equates_beginLine, getElem?_insert_of_ne other] at found
  exact grows.equates word text other found

/-- Defining an equate adds it to the others. -/
theorem defineEquate_eq {assembly next : Assembly} {words : List Glyphs}
    (defined : assembly.defineEquate words = (next, none)) :
    ∃ name text, words = [name, text] ∧ assembly.equates.contains name = false ∧
      next = { assembly with equates := assembly.equates.insert name text } := by
  unfold defineEquate at defined
  split at defined
  · rename_i name text
    split at defined
    · cases defined
    · rename_i fresh
      cases defined
      exact ⟨name, text, rfl, Bool.eq_false_iff.mpr fresh, rfl⟩
  · cases defined

theorem grows_defineEquate {assembly next : Assembly} {words : List Glyphs}
    (defined : assembly.defineEquate words = (next, none)) : assembly.Grows next := by
  obtain ⟨name, text, -, fresh, rfl⟩ := defineEquate_eq defined
  refine ⟨fun word found _ isFound => ?_, List.prefix_rfl⟩
  have differs : word ≠ name := by
    rintro rfl
    rw [Std.TreeMap.contains_eq_isSome_getElem?, isFound] at fresh
    cases fresh
  rw [getElem?_insert_of_ne differs]
  exact isFound

/-- Emitting adds an opcode to the others, if there is a mnemonic. -/
theorem emit_eq {assembly next : Assembly} {lineNo : Nat} {words : List Glyphs}
    (emitted : assembly.emit lineNo words = (next, none)) :
    words = [] ∧ next = assembly ∨
      ∃ mnemonic arguments op encoded, words = mnemonic :: arguments ∧
        Op.ofName? mnemonic.shown = some op ∧
        encode assembly.equates op arguments = .ok encoded ∧
        next = { assembly with
          opcodes := assembly.opcodes.push
            ⟨lineNo, assembly.nextPc, words, encoded.code, encoded.label⟩ } := by
  unfold emit at emitted
  split at emitted
  · cases emitted
    exact .inl ⟨rfl, rfl⟩
  · rename_i mnemonic arguments
    split at emitted
    · cases emitted
    · rename_i op named
      split at emitted
      · cases emitted
      · rename_i encoded read
        cases emitted
        exact .inr ⟨mnemonic, arguments, op, encoded, rfl, named, read, rfl⟩

theorem emit_of_encode {assembly : Assembly} {mnemonic : Glyphs} {arguments : List Glyphs} {op : Op}
    {encoded : Encoded} (named : Op.ofName? mnemonic.shown = some op)
    (read : encode assembly.equates op arguments = .ok encoded) (lineNo : Nat) :
    assembly.emit lineNo (mnemonic :: arguments) =
      ({ assembly with
        opcodes := assembly.opcodes.push
          ⟨lineNo, assembly.nextPc, mnemonic :: arguments, encoded.code, encoded.label⟩ },
        none) := by
  simp only [emit, named, read]

theorem grows_emit {assembly next : Assembly} {lineNo : Nat} {words : List Glyphs}
    (emitted : assembly.emit lineNo words = (next, none)) : assembly.Grows next := by
  obtain ⟨-, rfl⟩ | ⟨mnemonic, arguments, op, encoded, -, -, -, rfl⟩ := emit_eq emitted
  · exact .refl next
  · refine ⟨fun word text other found => found, ?_⟩
    rw [Array.toList_push]
    exact List.prefix_append _ _

theorem grows_defineLabels {assembly next : Assembly} {words rest : List Glyphs}
    (defined : assembly.defineLabels words = (next, .ok rest)) : assembly.Grows next := by
  rw [(defineLabels_ok defined).1]
  exact ⟨fun word text other found => found, List.prefix_rfl⟩

/-- A line is empty, defines an equate, or defines labels and emits what is behind them. -/
theorem readLine_eq {assembly next : Assembly} {lineNo : Nat} {line : Glyphs}
    (read : assembly.readLine lineNo line = (next, none)) :
    ∃ words, (assembly.beginLine lineNo).equates.wordsOf line = .ok words ∧
      (words = [] ∧ next = assembly.beginLine lineNo ∨
        (∃ rest, words = Glyphs.ofString ".equ" :: rest ∧
          (assembly.beginLine lineNo).defineEquate rest = (next, none)) ∨
        ∃ labelled, words.head? ≠ some (Glyphs.ofString ".equ") ∧ words ≠ [] ∧
          (assembly.beginLine lineNo).defineLabels words =
            (labelled, .ok (words.dropWhile endsLabel)) ∧
          labelled.emit lineNo (words.dropWhile endsLabel) = (next, none)) := by
  unfold readLine at read
  simp only at read
  split at read
  · cases read
  · rename_i empty
    cases read
    exact ⟨[], empty, .inl ⟨rfl, rfl⟩⟩
  · rename_i first rest written
    refine ⟨first :: rest, written, .inr ?_⟩
    split at read
    · rename_i equate
      exact .inl ⟨rest, by rw [equate], read⟩
    · rename_i noEquate
      split at read
      · cases read
      · rename_i labelled behind defined
        obtain rfl := rest_of_defineLabels defined
        exact .inr ⟨labelled, by simpa using noEquate, by simp, defined, read⟩

theorem readLine_of_emit {assembly labelled next : Assembly} {lineNo : Nat} {line : Glyphs}
    {words rest : List Glyphs}
    (written : (assembly.beginLine lineNo).equates.wordsOf line = .ok words)
    (noEquate : words.head? ≠ some (Glyphs.ofString ".equ"))
    (defined : (assembly.beginLine lineNo).defineLabels words = (labelled, .ok rest))
    (emitted : labelled.emit lineNo rest = (next, none)) :
    assembly.readLine lineNo line = (next, none) := by
  unfold readLine
  simp only [written]
  cases words with
  | nil =>
      cases defined
      exact emitted
  | cons first words =>
      have isInstruction : first ≠ Glyphs.ofString ".equ" := by simpa using noEquate
      simp only [if_neg isInstruction, defined, emitted]

theorem grows_readLine {assembly next : Assembly} {lineNo : Nat} {line : Glyphs}
    (read : assembly.readLine lineNo line = (next, none)) : assembly.Grows next := by
  have begins := grows_beginLine assembly lineNo
  obtain ⟨words, -, ⟨-, rfl⟩ | ⟨rest, -, defined⟩ | ⟨labelled, -, -, defined, emitted⟩⟩ :=
    readLine_eq read
  · exact begins
  · exact begins.trans (grows_defineEquate defined)
  · exact begins.trans ((grows_defineLabels defined).trans (grows_emit emitted))

theorem grows_readLines {assembly final : Assembly} {lineNo : Nat} {previous : Glyphs}
    {lines : List Glyphs} (read : assembly.readLines lineNo previous lines = (final, none)) :
    assembly.Grows final := by
  induction lines generalizing assembly lineNo previous with
  | nil =>
      cases read
      exact .refl final
  | cons raw lines ih =>
      obtain ⟨next, -, first, later⟩ := readLines_cons_ok read
      exact (grows_readLine first).trans (ih later)

/-- No equate but the line number has a hidden name, and no opcode uses a hidden word. -/
structure Avoids (hidden : Glyphs → Prop) (assembly : Assembly) : Prop where
  equates : ∀ word text, word ≠ lineNumberName → assembly.equates[word]? = some text →
    ¬ hidden word
  opcodes : ∀ opcode ∈ assembly.opcodes.toList, ∀ word ∈ opcode.words, ¬ Uses hidden word

theorem Avoids.of_grows {hidden : Glyphs → Prop} {assembly next : Assembly}
    (avoids : next.Avoids hidden) (grows : assembly.Grows next) : assembly.Avoids hidden where
  equates := fun word text other found =>
    avoids.equates word text other (grows.equates word text other found)
  opcodes := fun opcode member => avoids.opcodes opcode (grows.opcodes.subset member)

def bytesOf (front : List Opcode) : UInt32 := UInt32.ofNat (4 * front.length)

/-- The second of two assemblies is the first behind some opcodes, up to hidden words. -/
structure Follows (hidden : Glyphs → Prop) (front : List Opcode) (left right : Assembly) :
    Prop where
  equates : left.equates.AgreeOff hidden right.equates
  labels : ∀ label : Glyphs, right.labels[label]? = left.labels[label]?.map (· + bytesOf front)
  opcodes : ∃ later, right.opcodes.toList = front ++ later ∧
    List.Forall₂ (Opcode.Moved (bytesOf front)) left.opcodes.toList later

section Follows

variable {hidden : Glyphs → Prop} {front : List Opcode} {left right : Assembly}

/-- Assemblies that differ in hidden equates only follow each other. -/
theorem Follows.of_agreeOff (agree : left.equates.AgreeOff hidden right.equates)
    (labels : right.labels = left.labels) (opcodes : right.opcodes = left.opcodes) :
    Follows hidden [] left right where
  equates := agree
  labels := by simp [labels, bytesOf]
  opcodes := by
    refine ⟨left.opcodes.toList, by rw [opcodes, List.nil_append], ?_⟩
    exact List.forall₂_same.mpr fun opcode _ => ⟨by simp [bytesOf], rfl, rfl⟩

theorem Follows.nextPc_eq (follows : Follows hidden front left right) :
    right.nextPc = left.nextPc + bytesOf front := by
  obtain ⟨later, whole, moved⟩ := follows.opcodes
  have size : right.opcodes.size = left.opcodes.size + front.length := by
    have length := congrArg List.length whole
    have leftSize : left.opcodes.toList.length = left.opcodes.size := Array.length_toList
    rw [List.length_append, ← moved.length_eq, leftSize, Array.length_toList] at length
    omega
  rw [nextPc, nextPc, bytesOf, size, Nat.mul_add, UInt32.ofNat_add]

theorem Follows.beginLine (isHidden : hidden lineNumberName)
    (follows : Follows hidden front left right) (lineNo otherNo : Nat) :
    Follows hidden front (left.beginLine lineNo) (right.beginLine otherNo) where
  equates := ((follows.equates.insert_hidden isHidden _).symm.insert_hidden isHidden _).symm
  labels := follows.labels
  opcodes := follows.opcodes

theorem Follows.contains_labels (follows : Follows hidden front left right) (label : Glyphs) :
    right.labels.contains label = left.labels.contains label := by
  rw [Std.TreeMap.contains_eq_isSome_getElem?, Std.TreeMap.contains_eq_isSome_getElem?,
    follows.labels, Option.isSome_map]

theorem defineLabels_of_unlabelled {assembly : Assembly} {words : List Glyphs}
    (unlabelled : words.takeWhile endsLabel = []) :
    assembly.defineLabels words = (assembly, .ok (words.dropWhile endsLabel)) := by
  cases words with
  | nil => rfl
  | cons word words =>
      have ends : ¬ endsLabel word = true := by
        intro ends
        rw [List.takeWhile_cons_of_pos ends] at unlabelled
        cases unlabelled
      rw [defineLabels, labelOf?_eq, List.dropWhile_cons_of_neg ends]
      simp only [ends]
      rfl

/-- Lines that start with the same labels define them alike. -/
theorem Follows.defineLabels {next : Assembly} {words others rest : List Glyphs}
    (follows : Follows hidden front left right)
    (same : others.takeWhile endsLabel = words.takeWhile endsLabel)
    (defined : left.defineLabels words = (next, .ok rest)) :
    ∃ otherNext, right.defineLabels others = (otherNext, .ok (others.dropWhile endsLabel)) ∧
      Follows hidden front next otherNext := by
  induction words generalizing left right others with
  | nil =>
      cases defined
      exact ⟨right, defineLabels_of_unlabelled same, follows⟩
  | cons word words ih =>
      by_cases ends : endsLabel word = true
      · rw [List.takeWhile_cons_of_pos ends] at same
        obtain ⟨others, rfl⟩ : ∃ behind, others = word :: behind := by
          cases others with
          | nil => cases same
          | cons other others =>
              by_cases otherEnds : endsLabel other = true
              · rw [List.takeWhile_cons_of_pos otherEnds, List.cons.injEq] at same
                exact ⟨others, by rw [same.1]⟩
              · rw [List.takeWhile_cons_of_neg otherEnds] at same
                cases same
        rw [List.takeWhile_cons_of_pos ends, List.cons.injEq] at same
        rw [Assembly.defineLabels, labelOf?_eq] at defined ⊢
        simp only [ends, if_true, follows.contains_labels] at defined ⊢
        rw [List.dropWhile_cons_of_pos ends]
        split at defined
        · cases defined
        · rename_i fresh
          rw [if_neg fresh]
          have labels (label : Glyphs) :
              (right.labels.insert word.dropLast right.nextPc)[label]? =
                (left.labels.insert word.dropLast left.nextPc)[label]?.map
                  (· + bytesOf front) := by
            rw [Std.TreeMap.getElem?_insert, Std.TreeMap.getElem?_insert, follows.labels,
              follows.nextPc_eq]
            split
            · rfl
            · rfl
          exact @ih { left with labels := left.labels.insert word.dropLast left.nextPc }
            { right with labels := right.labels.insert word.dropLast right.nextPc } others
            ⟨follows.equates, labels, follows.opcodes⟩ same.2 defined
      · rw [List.takeWhile_cons_of_neg ends] at same
        have here : (words.cons word).takeWhile endsLabel = [] :=
          List.takeWhile_cons_of_neg ends
        rw [defineLabels_of_unlabelled here] at defined
        cases defined
        exact ⟨right, defineLabels_of_unlabelled same, follows⟩

/-- Lines whose arguments are encoded alike emit the same code. -/
theorem Follows.emit {next : Assembly} {lineNo : Nat} {mnemonic : Glyphs}
    {arguments others : List Glyphs} (follows : Follows hidden front left right)
    (same : ∀ op encoded, Op.ofName? mnemonic.shown = some op →
      encode left.equates op arguments = .ok encoded →
      encode right.equates op others = .ok encoded)
    (emitted : left.emit lineNo (mnemonic :: arguments) = (next, none)) (otherNo : Nat) :
    ∃ otherNext, right.emit otherNo (mnemonic :: others) = (otherNext, none) ∧
      Follows hidden front next otherNext := by
  obtain ⟨empty, -⟩ | ⟨first, rest, op, encoded, whole, named, read, rfl⟩ := emit_eq emitted
  · cases empty
  · cases whole
    refine ⟨_, emit_of_encode named (same op encoded named read) otherNo, ?_⟩
    obtain ⟨later, split, moved⟩ := follows.opcodes
    refine ⟨follows.equates, follows.labels,
      later ++ [⟨otherNo, right.nextPc, mnemonic :: others, encoded.code, encoded.label⟩], ?_, ?_⟩
    · rw [Array.toList_push, split, List.append_assoc]
    · rw [Array.toList_push]
      exact List.rel_append moved (.cons ⟨follows.nextPc_eq, rfl, rfl⟩ .nil)

/-- A line with the same words does the same to both. -/
theorem Follows.readLine {next : Assembly} {lineNo otherNo : Nat} {line : Glyphs}
    (isHidden : hidden lineNumberName) (follows : Follows hidden front left right)
    (avoids : next.Avoids hidden)
    (sameWords : (right.beginLine otherNo).equates.wordsOf line =
      (left.beginLine lineNo).equates.wordsOf line)
    (read : left.readLine lineNo line = (next, none)) :
    ∃ otherNext, right.readLine otherNo line = (otherNext, none) ∧
      Follows hidden front next otherNext := by
  have begins := follows.beginLine isHidden lineNo otherNo
  obtain ⟨words, written, cases⟩ := readLine_eq read
  rw [written] at sameWords
  obtain ⟨rfl, rfl⟩ | ⟨rest, rfl, defined⟩ | ⟨labelled, noEquate, -, defined, emitted⟩ := cases
  · simp only [Assembly.readLine, sameWords]
    exact ⟨_, rfl, begins⟩
  · obtain ⟨name, text, rfl, fresh, rfl⟩ := defineEquate_eq defined
    have other : name ≠ lineNumberName := by
      rintro rfl
      rw [equates_beginLine, Std.TreeMap.contains_insert_self] at fresh
      cases fresh
    have visible : ¬ hidden name :=
      avoids.equates name text other Std.TreeMap.getElem?_insert_self
    simp only [Assembly.readLine, sameWords, if_true]
    rw [defineEquate, begins.equates.contains_eq visible, fresh]
    exact ⟨_, rfl, begins.equates.insert name text, begins.labels, begins.opcodes⟩
  · obtain ⟨otherLabelled, otherDefined, labelledFollows⟩ := begins.defineLabels rfl defined
    have reads {otherNext : Assembly} (otherEmitted : otherLabelled.emit otherNo
        (words.dropWhile endsLabel) = (otherNext, none)) :=
      readLine_of_emit sameWords noEquate otherDefined otherEmitted
    obtain ⟨empty, rfl⟩ | ⟨mnemonic, arguments, op, found, whole, -, -, nextEq⟩ :=
      emit_eq emitted
    · rw [empty] at reads
      exact ⟨otherLabelled, reads rfl, labelledFollows⟩
    · rw [whole] at emitted nextEq reads
      have listed : (⟨lineNo, labelled.nextPc, mnemonic :: arguments, found.code, found.label⟩ :
          Opcode) ∈ next.opcodes.toList := by
        rw [nextEq, Array.toList_push]
        exact List.mem_append_right _ List.mem_cons_self
      have same (op : Op) (encoded : Encoded) (_ : Op.ofName? mnemonic.shown = some op)
          (encodes : encode labelled.equates op arguments = .ok encoded) :
          encode otherLabelled.equates op arguments = .ok encoded :=
        encode_agree labelledFollows.equates (fun word member =>
          avoids.opcodes _ listed word (List.mem_cons_of_mem _ member)) encodes
      obtain ⟨otherNext, otherEmitted, nextFollows⟩ := labelledFollows.emit same emitted otherNo
      exact ⟨otherNext, reads otherEmitted, nextFollows⟩

/-- A line is read like another if its labels and its mnemonic are the same and its arguments
are encoded to the same. -/
theorem Follows.readLine_alike {next : Assembly} {lineNo otherNo : Nat} {line otherLine : Glyphs}
    {words others arguments otherArguments : List Glyphs} {op : Op} {opcode : Opcode}
    (isHidden : hidden lineNumberName) (follows : Follows hidden front left right)
    (read : left.readLine lineNo line = (next, none))
    (written : (left.beginLine lineNo).equates.wordsOf line = .ok words)
    (emits : Emits (left.beginLine lineNo).equates left.opcodes.size lineNo
      (words.dropWhile endsLabel) op arguments opcode)
    (otherWritten : (right.beginLine otherNo).equates.wordsOf otherLine = .ok others)
    (sameLabels : others.takeWhile endsLabel = words.takeWhile endsLabel)
    (otherBehind : others.dropWhile endsLabel = Glyphs.ofString op.name :: otherArguments)
    (encodes : encode (right.beginLine otherNo).equates op otherArguments =
      .ok ⟨opcode.code, opcode.label⟩) :
    ∃ otherNext, right.readLine otherNo otherLine = (otherNext, none) ∧
      Follows hidden front next otherNext := by
  have begins := follows.beginLine isHidden lineNo otherNo
  obtain ⟨-, named, otherName, -⟩ := mnemonic_of_mem_table emits.known
  have isInstruction : Glyphs.ofString op.name ≠ Glyphs.ofString ".equ" :=
    fun same => otherName (Glyphs.ofString_injective same)
  obtain ⟨found, foundWritten, cases⟩ := readLine_eq read
  obtain rfl : found = words := Except.ok.inj (foundWritten.symm.trans written)
  obtain ⟨rfl, -⟩ | ⟨rest, rfl, -⟩ | ⟨labelled, -, -, defined, emitted⟩ := cases
  · cases emits.named
  · exact absurd (List.cons.inj emits.named).1.symm isInstruction
  · have noEquate : others.head? ≠ some (Glyphs.ofString ".equ") := by
      intro equate
      obtain ⟨rest, rfl⟩ := List.head?_eq_some_iff.mp equate
      exact isInstruction (List.cons.inj otherBehind).1.symm
    obtain ⟨otherLabelled, otherDefined, labelledFollows⟩ := begins.defineLabels sameLabels defined
    rw [emits.named] at emitted
    have same (other : Op) (encoded : Encoded)
        (otherNamed : Op.ofName? (Glyphs.ofString op.name).shown = some other)
        (encodesLeft : encode labelled.equates other arguments = .ok encoded) :
        encode otherLabelled.equates other otherArguments = .ok encoded := by
      rw [Glyphs.shown_ofString, named] at otherNamed
      cases otherNamed
      rw [(defineLabels_ok defined).1] at encodesLeft
      rw [(defineLabels_ok otherDefined).1]
      exact encodes.trans (emits.encodes.symm.trans encodesLeft)
    obtain ⟨otherNext, otherEmitted, nextFollows⟩ := labelledFollows.emit same emitted otherNo
    rw [← otherBehind] at otherEmitted
    exact ⟨otherNext, readLine_of_emit otherWritten noEquate otherDefined otherEmitted,
      nextFollows⟩

/-- The words of a line are the same with all equates that agree, if the first are among some
and the second have some others among them. -/
def Steady (hidden : Glyphs → Prop) (base bound : Assembly) (line : Glyphs) : Prop :=
  ∀ left right : Equates, left.Within bound.equates → base.equates.Within right →
    left.AgreeOff hidden right → right.wordsOf line = left.wordsOf line

/-- Lines with the same words do the same to both. -/
theorem Follows.readLines {base bound final : Assembly} {lineNo otherNo : Nat}
    {previous otherPrevious : Glyphs} {lines : List Glyphs} (isHidden : hidden lineNumberName)
    (avoids : bound.Avoids hidden)
    (steady : ∀ raw ∈ lines, Steady hidden base bound (statementText raw.dropCarriageReturn))
    (follows : Follows hidden front left right) (based : base.Grows right)
    (bounded : final.Grows bound)
    (read : left.readLines lineNo previous lines = (final, none)) :
    ∃ otherFinal, right.readLines otherNo otherPrevious lines = (otherFinal, none) ∧
      Follows hidden front final otherFinal := by
  induction lines generalizing left right lineNo otherNo previous otherPrevious with
  | nil =>
      cases read
      exact ⟨right, rfl, follows⟩
  | cons raw lines ih =>
      obtain ⟨next, fits, first, later⟩ := readLines_cons_ok read
      have nextGrows := (grows_readLines later).trans bounded
      have within := ((grows_readLine first).trans nextGrows).within_beginLine (lineNo + 1)
      have begins := based.trans (grows_beginLine right (otherNo + 1))
      have sameWords := steady raw (by simp) _ _ within begins.equates
        (follows.beginLine isHidden (lineNo + 1) (otherNo + 1)).equates
      obtain ⟨otherNext, otherFirst, nextFollows⟩ :=
        follows.readLine isHidden (avoids.of_grows nextGrows) sameWords first
      rw [readLines_cons fits otherFirst]
      exact ih (fun raw member => steady raw (List.mem_cons_of_mem _ member)) nextFollows
        (based.trans (grows_readLine otherFirst)) later

end Follows
end Assembly

section Link

variable {labels otherLabels : Labels} {shift : UInt32}

/-- The distance from behind an opcode to a target does not change when both are moved. -/
def KeepsDistance (shift : UInt32) (opcode : Opcode) (target : UInt32) : Prop :=
  ((target + shift).toNat : Int) - (opcode.pc + shift + 4).toNat =
    target.toNat - (opcode.pc + 4).toNat

theorem linkedCode_moved {opcode other : Opcode} (moved : Opcode.Moved shift opcode other)
    {target : UInt32} (keeps : KeepsDistance shift opcode target) {op : Op}
    (mnemonic : opcode.operation? = some op) (unlinked : Unlinked op opcode.code)
    {label : Glyphs} (refers : opcode.label = some label) {code : Word}
    (links : Assembly.linkedCode opcode label target = .ok code) :
    Assembly.linkedCode other label (target + shift) =
      .ok (if opcode.IsPointer then code + shift else code) := by
  cases unlinked with
  | datum word blank =>
      have pointer : opcode.IsPointer := ⟨by rw [mnemonic, word], by simp [refers]⟩
      rw [linkedCode_datum blank] at links
      cases links
      rw [linkedCode_datum (moved.code_eq.trans blank), if_pos pointer]
  | branch conditional s t sGeneral tGeneral registers =>
      have noPointer : ¬ opcode.IsPointer := by
        rintro ⟨word, -⟩
        obtain rfl : op = .word := Option.some.inj (mnemonic.symm.trans word)
        exact absurd conditional (by decide)
      have isBranch : opcode.code.op = .beq ∨ opcode.code.op = .bne := by
        rw [registers, (fields_encode_branch conditional sGeneral tGeneral 0).1]
        exact conditional
      rw [KeepsDistance] at keeps
      rw [if_neg noPointer, ← links]
      simp only [Assembly.linkedCode, Instruction.op_decode, moved.code_eq, moved.pc_eq, keeps,
        isBranch, if_true]

theorem linkOpcode_moved
    (labelsEq : ∀ label : Glyphs, otherLabels[label]? = labels[label]?.map (· + shift))
    {index : Nat} {opcode other linked : Opcode} (placed : Placed index opcode)
    (moved : Opcode.Moved shift opcode other)
    (keeps : ∀ (label : Glyphs) (target : UInt32), labels[label]? = some target →
      KeepsDistance shift opcode target)
    (links : Assembly.linkOpcode labels opcode = .ok linked) :
    ∃ otherLinked, Assembly.linkOpcode otherLabels other = .ok otherLinked ∧
      Opcode.Relocated shift linked otherLinked := by
  cases refers : opcode.label with
  | none =>
      rw [linkOpcode_eq_ok refers] at links
      cases links
      refine ⟨other, linkOpcode_eq_ok (moved.label_eq.trans refers), ?_⟩
      rw [Opcode.Relocated, if_neg fun pointer => pointer.2 refers]
      exact moved.code_eq
  | some label =>
      cases defined : labels[label]? with
      | none =>
          rw [linkOpcode_eq_missing refers defined] at links
          cases links
      | some target =>
          obtain ⟨op, mnemonic, unlinked⟩ := placed.unlinked (by simp [refers])
          have otherDefined : otherLabels[label]? = some (target + shift) := by
            rw [labelsEq, defined, Option.map_some]
          rw [linkOpcode_eq_map refers defined] at links
          rw [linkOpcode_eq_map (moved.label_eq.trans refers) otherDefined]
          cases codeEq : Assembly.linkedCode opcode label target with
          | error fault =>
              rw [codeEq] at links
              cases links
          | ok code =>
              rw [codeEq] at links
              cases links
              rw [linkedCode_moved moved (keeps label target defined) mnemonic unlinked refers
                codeEq]
              exact ⟨_, rfl, rfl⟩

/-- Opcodes that were moved together with their labels are linked alike. -/
theorem linkOpcodes_moved
    (labelsEq : ∀ label : Glyphs, otherLabels[label]? = labels[label]?.map (· + shift))
    {opcodes others linked : List Opcode}
    (placed : ∀ opcode ∈ opcodes, ∃ index, Placed index opcode)
    (keeps : ∀ opcode ∈ opcodes, ∀ (label : Glyphs) (target : UInt32),
      labels[label]? = some target → KeepsDistance shift opcode target)
    (moved : List.Forall₂ (Opcode.Moved shift) opcodes others)
    (links : Assembly.linkOpcodes labels opcodes = (linked, none)) :
    ∃ otherLinked, Assembly.linkOpcodes otherLabels others = (otherLinked, none) ∧
      List.Forall₂ (Opcode.Relocated shift) linked otherLinked := by
  induction moved generalizing linked with
  | nil =>
      cases links
      exact ⟨[], rfl, .nil⟩
  | @cons opcode other opcodes others first moved ih =>
      obtain ⟨index, place⟩ := placed opcode List.mem_cons_self
      rw [Assembly.linkOpcodes] at links
      split at links
      · cases links
      · rename_i linkedFirst firstLinks
        obtain ⟨otherFirst, otherLinks, relocated⟩ :=
          linkOpcode_moved labelsEq place first (keeps opcode List.mem_cons_self) firstLinks
        cases restLinks : Assembly.linkOpcodes labels opcodes with
        | mk later error =>
            rw [restLinks] at links
            cases links
            obtain ⟨otherLater, othersLink, laterRelocated⟩ :=
              ih (fun opcode member => placed opcode (List.mem_cons_of_mem _ member))
                (fun opcode member => keeps opcode (List.mem_cons_of_mem _ member)) restLinks
            refine ⟨otherFirst :: otherLater, ?_, .cons relocated laterRelocated⟩
            simp only [Assembly.linkOpcodes, otherLinks, othersLink]

theorem linkOpcodes_append {labels : Labels} {front later linked : List Opcode}
    (unlabelled : ∀ opcode ∈ front, opcode.label = none)
    (links : Assembly.linkOpcodes labels later = (linked, none)) :
    Assembly.linkOpcodes labels (front ++ later) = (front ++ linked, none) := by
  induction front with
  | nil => exact links
  | cons opcode front ih =>
      have first := unlabelled opcode List.mem_cons_self
      have others := ih fun opcode member => unlabelled opcode (List.mem_cons_of_mem _ member)
      simp only [List.cons_append, Assembly.linkOpcodes, Assembly.linkOpcode, first, others]

end Link

theorem links_of_assemble {predefined : Definitions} {source : Glyphs}
    (assembles : (assemble predefined source).2 = none) :
    (assemble predefined source).1.labels = (firstPass predefined source).1.labels ∧
      Assembly.linkOpcodes (firstPass predefined source).1.labels
        (firstPass predefined source).1.opcodes.toList =
          ((assemble predefined source).1.opcodes.toList, none) := by
  have assembled := assemble_of_firstPass (passes_of_assemble assembles)
  rw [assembled] at assembles ⊢
  exact ⟨rfl, Prod.ext rfl assembles⟩

theorem equates_assemble {predefined : Definitions} {source : Glyphs}
    (assembles : (assemble predefined source).2 = none) :
    (assemble predefined source).1.equates = (firstPass predefined source).1.equates := by
  rw [assemble_of_firstPass (passes_of_assemble assembles)]
  rfl

/-- A source whose first pass follows that of another is assembled if the other is. -/
theorem assemble_of_follows {hidden : Glyphs → Prop} {front : List Opcode}
    {predefined : Definitions} {source other : Glyphs}
    (assembles : (assemble predefined source).2 = none)
    (passes : (firstPass predefined other).2 = none)
    (follows : Assembly.Follows hidden front (firstPass predefined source).1
      (firstPass predefined other).1)
    (unlabelled : ∀ opcode ∈ front, opcode.label = none)
    (keeps : ∀ opcode ∈ (firstPass predefined source).1.opcodes.toList,
      ∀ (label : Glyphs) (target : UInt32),
        (firstPass predefined source).1.labels[label]? = some target →
          KeepsDistance (Assembly.bytesOf front) opcode target) :
    (assemble predefined other).2 = none ∧
      (∀ label : Glyphs, (assemble predefined other).1.labels[label]? =
        (assemble predefined source).1.labels[label]?.map (· + Assembly.bytesOf front)) ∧
      ∃ moved, (assemble predefined other).1.opcodes.toList = front ++ moved ∧
        List.Forall₂ (Opcode.Relocated (Assembly.bytesOf front))
          (assemble predefined source).1.opcodes.toList moved := by
  obtain ⟨labelsEq, links⟩ := links_of_assemble assembles
  obtain ⟨later, split, moved⟩ := follows.opcodes
  obtain ⟨linked, laterLinks, relocated⟩ := linkOpcodes_moved follows.labels
    (fun opcode member => placed_firstPass (passes_of_assemble assembles) member) keeps moved links
  have otherLinks := linkOpcodes_append unlabelled laterLinks
  rw [← split] at otherLinks
  rw [assemble_of_firstPass passes, link_eq otherLinks, labelsEq]
  exact ⟨rfl, follows.labels, linked, rfl, relocated⟩

end Assembler
end ReversibleMips
