import ReversibleMips.Proofs.IntroducedNames

/-!
# Equates for registers

An equate gives a register a name, and the name can stand in the place of the register in
every instruction behind it.  The source has one more line then, and its lines have other
numbers.  Apart from that both sources are read in parallel: the new equate is a hidden word,
which no other line uses, and the one line that uses it is encoded to the same code.

There is one exception.  An expression reaches to the last parenthesis in front of the next
dollar sign, and without the dollar sign of the register it may reach farther.
-/

namespace ReversibleMips
namespace Assembler

/-- A name has no meaning in an assembly: it is no equate, and no opcode has a word with it. -/
structure Unused (name : Glyphs) (assembly : Assembly) : Prop where
  notNumber : name ≠ lineNumberName
  undefined : assembly.equates[name]? = none
  unmentioned : ∀ opcode ∈ assembly.opcodes.toList, ∀ word ∈ opcode.words,
    ¬ Uses (· = name) word

/-- A register in a line of a source, a name that is to stand in its place, and a line in front
of it where the name is to be defined. -/
structure Replacement where
  name : Glyphs
  digits : Glyphs
  before : List Glyphs
  between : List Glyphs
  front : Glyphs
  back : Glyphs
  after : List Glyphs
  isName : IsName name
  number : IsDigits digits
  noSemicolon : .char ';' ∉ front
  noHash : .char '#' ∉ front

namespace Replacement

variable (replacement : Replacement)

def operand : Glyphs := .char '$' :: replacement.digits

def line : Glyphs := replacement.front ++ replacement.operand ++ replacement.back

def renamedLine : Glyphs := replacement.front ++ replacement.name ++ replacement.back

def lineNo : Nat := (replacement.before ++ replacement.between).length + 1

def lines : List Glyphs :=
  replacement.before ++ replacement.between ++ replacement.line :: replacement.after

def renamedLines : List Glyphs :=
  replacement.before ++ equateLine replacement.name replacement.digits ::
    (replacement.between ++ replacement.renamedLine :: replacement.after)

/-- The new lines are short enough to be read. -/
def Fits : Prop :=
  (equateLine replacement.name replacement.digits).byteLength < Assembly.maxLineBytes ∧
    replacement.renamedLine.byteLength < Assembly.maxLineBytes

/-- Without the dollar sign of the register, an expression in front of it goes on. -/
def ExtendsExpression : Prop :=
  OpensExpression (expandCharacters replacement.front) ∧
    ClosesExpression (expandCharacters (remainder replacement.back))

instance : Decidable replacement.Fits := inferInstanceAs (Decidable (_ ∧ _))

instance : Decidable replacement.ExtendsExpression := inferInstanceAs (Decidable (_ ∧ _))

/-- How a register stands in the line of an opcode: as a word of its own, or as the base of the
place that a load or a store ends with. -/
inductive Stands (opcode : Opcode) : Prop
  | alone (ends : ∀ glyph, replacement.front.getLast? = some glyph → IsSeparator glyph)
      (starts : ∀ glyph, (remainder replacement.back).head? = some glyph → IsSeparator glyph)
  | base (memory : opcode.operation? = some .lw ∨ opcode.operation? = some .sw)
      (ends : replacement.front.getLast? = some (.char '('))
      (separators : Glyphs) (closed : remainder replacement.back = .char ')' :: separators)
      (separate : ∀ glyph ∈ separators, IsSeparator glyph)

/-- The words of the line with the register and of that with the name. -/
inductive Renames (op : Op) : List Glyphs → List Glyphs → Prop
  | alone (before after : List Glyphs) :
      Renames op (before ++ replacement.operand :: after) (before ++ replacement.name :: after)
  | base (memory : op = .lw ∨ op = .sw) (before : List Glyphs) (offset : Glyphs) :
      Renames op (before ++ [offset ++ .char '(' :: (replacement.operand ++ [.char ')'])])
        (before ++ [offset ++ .char '(' :: (replacement.name ++ [.char ')'])])

variable {replacement}

theorem renames_of_stands {equates : Equates} {op : Op} {opcode : Opcode} {words : List Glyphs}
    (stands : replacement.Stands opcode) (apart : ¬ replacement.ExtendsExpression)
    (operation : opcode.operation? = some op)
    (written : equates.wordsOf (statementText replacement.line.dropCarriageReturn) = .ok words) :
    ∃ others, replacement.Renames op words others ∧
      equates.wordsOf (statementText replacement.renamedLine.dropCarriageReturn) = .ok others := by
  rw [line, operand, statementText_solid replacement.number.operandWord.solid
    replacement.noSemicolon replacement.noHash] at written
  rw [renamedLine, statementText_solid replacement.isName.operandWord.solid
    replacement.noSemicolon replacement.noHash]
  have trimmedApart : ¬ (OpensExpression (expandCharacters
      (replacement.front.dropWhile Glyph.isBlank)) ∧
        ClosesExpression (expandCharacters (remainder replacement.back))) :=
    fun goesOn => apart ⟨opensExpression_of_dropWhile goesOn.1, goesOn.2⟩
  cases stands with
  | alone ends starts =>
      have trimmedEnds : ∀ glyph, (replacement.front.dropWhile Glyph.isBlank).getLast? =
          some glyph → IsSeparator glyph :=
        fun glyph last => ends glyph (getLast?_of_suffix (List.dropWhile_suffix _) last)
      obtain ⟨before, after, rfl, otherWritten⟩ := wordsOf_alone replacement.number
        replacement.isName trimmedApart trimmedEnds starts written
      exact ⟨_, .alone before after, otherWritten⟩
  | base memory ends separators closed separate =>
      have trimmedEnds : (replacement.front.dropWhile Glyph.isBlank).getLast? =
          some (.char '(') := by
        obtain ⟨init, whole⟩ := List.getLast?_eq_some_iff.mp ends
        rw [whole, List.dropWhile_append]
        split
        · rfl
        · exact List.getLast?_concat
      obtain ⟨before, offset, rfl, otherWritten⟩ := wordsOf_base replacement.number
        replacement.isName trimmedApart trimmedEnds closed separate written
      refine ⟨_, .base ?_ before offset, otherWritten⟩
      rw [operation, Option.some.injEq, Option.some.injEq] at memory
      exact memory

section Renames

variable {op : Op} {words others arguments : List Glyphs} {base bound left right : Equates}
    {encoded : Encoded}

theorem Renames.encodes (renames : replacement.Renames op words others) (known : op ∈ Op.table)
    (behindLabels : words.dropWhile endsLabel = Glyphs.ofString op.name :: arguments)
    (introduces : Introduces replacement.name replacement.digits base bound)
    (within : left.Within bound) (behind : base.Within right)
    (agree : left.AgreeOff (Concealed replacement.name) right)
    (unused : ∀ word ∈ arguments, ¬ Uses (Concealed replacement.name) word)
    (read : encode left op arguments = .ok encoded) :
    others.takeWhile endsLabel = words.takeWhile endsLabel ∧
      ∃ otherArguments, others.dropWhile endsLabel = Glyphs.ofString op.name :: otherArguments ∧
        encode right op otherArguments = .ok encoded := by
  have noDollar : .char '$' ∉ Glyphs.ofString op.name := by
    have all : ∀ op ∈ Op.table, .char '$' ∉ Glyphs.ofString op.name := by decide
    exact all op known
  cases renames with
  | alone before after =>
      have noLabel : endsLabel replacement.operand = false := by
        apply decide_eq_false
        intro ends
        exact replacement.number.operandWord.notMem (by decide) (by decide)
          (List.mem_of_getLast? ends)
      have differs : replacement.operand ≠ Glyphs.ofString op.name :=
        fun same => noDollar (same ▸ List.mem_cons_self)
      obtain ⟨inner, rfl, replaced⟩ := cut_words noLabel differs behindLabels
      obtain ⟨sameLabels, otherBehind⟩ := replaced replacement.name
      refine ⟨sameLabels, _, otherBehind, ?_⟩
      refine encode_alone introduces replacement.number within behind agree ?_ read
      intro word member
      apply unused
      simp only [List.mem_append, List.mem_cons] at member ⊢
      tauto
  | base memory before offset =>
      have noLabel : endsLabel (offset ++ .char '(' :: (replacement.operand ++ [.char ')'])) =
          false := by
        have ends : (offset ++ Glyph.char '(' :: (replacement.operand ++ [.char ')'])).getLast? =
            some (.char ')') := by
          rw [← List.cons_append, ← List.append_assoc, List.getLast?_concat]
        rw [endsLabel, ends]
        rfl
      have differs : offset ++ .char '(' :: (replacement.operand ++ [.char ')']) ≠
          Glyphs.ofString op.name :=
        fun same => noDollar (same ▸ by simp [operand])
      obtain ⟨inner, rfl, replaced⟩ := cut_words noLabel differs behindLabels
      obtain ⟨sameLabels, otherBehind⟩ :=
        replaced (offset ++ .char '(' :: (replacement.name ++ [.char ')']))
      refine ⟨sameLabels, _, otherBehind, ?_⟩
      refine encode_base introduces replacement.number within behind agree memory ?_ ?_ read
      · intro word member isHidden
        exact unused word (List.mem_append_left _ member) (.inl isHidden)
      · intro isHidden
        have cut := indexed?_append offset replacement.number.operandWord
          replacement.number.isBaseName
        exact unused _ (List.mem_append_right _ List.mem_cons_self)
          (.inr ⟨offset, replacement.operand, cut, .inl isHidden⟩)

end Renames

end Replacement

theorem uses_of_concealed {name word : Glyphs} (uses : Uses (Concealed name) word) :
    Uses (· = lineNumberName) word ∨ Uses (· = name) word := by
  rcases uses with (number | same) |
    ⟨offset, base, cut, (number | same) | (number | same)⟩
  · exact .inl (.inl number)
  · exact .inr (.inl same)
  · exact .inl (.inr ⟨offset, base, cut, .inl number⟩)
  · exact .inr (.inr ⟨offset, base, cut, .inl same⟩)
  · exact .inl (.inr ⟨offset, base, cut, .inr number⟩)
  · exact .inr (.inr ⟨offset, base, cut, .inr same⟩)

theorem Assembly.words_linkOpcodes (labels : Labels) (opcodes : List Opcode) :
    (linkOpcodes labels opcodes).1.map Opcode.words = opcodes.map Opcode.words := by
  induction opcodes with
  | nil => rfl
  | cons opcode opcodes ih =>
      rw [linkOpcodes]
      split
      · rfl
      · rename_i linked links
        rw [eq_of_linkOpcode links]
        simp only [List.map_cons, ih]

section Source

variable {predefined : Definitions} {source : Glyphs}
    (assembles : (assemble predefined source).2 = none)
include assembles

/-- The opcodes of the first pass use a name only if the assembled ones do. -/
theorem avoids_of_unused {name : Glyphs} (absent : ¬ lineNumberName <:+: source)
    (unused : Unused name (assemble predefined source).1) :
    (firstPass predefined source).1.Avoids (Concealed name) where
  equates := by
    rintro word text other found (number | rfl)
    · exact other number
    · rw [← equates_assemble assembles, unused.undefined] at found
      cases found
  opcodes := by
    intro opcode member word inside uses
    have sameWords := Assembly.words_linkOpcodes (firstPass predefined source).1.labels
      (firstPass predefined source).1.opcodes.toList
    rw [(links_of_assemble assembles).2] at sameWords
    obtain ⟨linked, linkedMember, linkedWords⟩ : ∃ linked ∈
        (assemble predefined source).1.opcodes.toList, linked.words = opcode.words := by
      apply List.mem_map.mp
      rw [sameWords]
      exact List.mem_map_of_mem member
    rcases uses_of_concealed uses with number | isName
    · exact not_uses_lineNumberName absent (passes_of_assemble assembles) member inside number
    · exact unused.unmentioned linked linkedMember word (linkedWords ▸ inside) isName

end Source

section Renamed

variable {predefined : Definitions} {source renamed : Glyphs}
    {replacement : Replacement} {opcode : Opcode}
    (sourceLines : source.lines = replacement.lines)
    (renamedLines : renamed.lines = replacement.renamedLines) (fits : replacement.Fits)
    (assembles : (assemble predefined source).2 = none)
    (absent : ¬ lineNumberName <:+: source)
    (otherTexts : ∀ entry ∈ predefined, entry.2 ≠ lineNumberName)
    (unused : Unused replacement.name (assemble predefined source).1)
    (plain : (assemble predefined source).1.equates[replacement.operand]? = none)
    (member : opcode ∈ (assemble predefined source).1.opcodes.toList)
    (numbered : opcode.lineNo = replacement.lineNo)
    (stands : replacement.Stands opcode) (apart : ¬ replacement.ExtendsExpression)

include sourceLines assembles member numbered in
/-- The opcode is emitted for the line with the register. -/
theorem Replacement.emits :
    ∃ (middle : Assembly) (words : List Glyphs) (op : Op) (arguments : List Glyphs)
      (earlier : Opcode),
      (Assembly.start predefined).readLines 0 [] (replacement.before ++ replacement.between) =
        (middle, none) ∧
      (middle.beginLine replacement.lineNo).equates.wordsOf
        (statementText replacement.line.dropCarriageReturn) = .ok words ∧
      Emits (middle.beginLine replacement.lineNo).equates middle.opcodes.size replacement.lineNo
        (words.dropWhile endsLabel) op arguments earlier ∧
      earlier ∈ (firstPass predefined source).1.opcodes.toList ∧
      opcode.operation? = some op := by
  have passes := passes_of_assemble assembles
  obtain ⟨earlier, earlierMember, linked⟩ :=
    linkOpcode_of_mem (links_of_assemble assembles).2 member
  have same := eq_of_linkOpcode linked
  rcases Assembly.emitsFor_of_readLines (readLines_firstPass passes)
      (Array.mem_def.mpr earlierMember) with
    none | ⟨before, raw, after, middle, words, op, arguments, cut, read, written, emits⟩
  · simp [Assembly.start] at none
  · rw [Nat.zero_add] at written emits
    have lineEq : before.length + 1 = replacement.lineNo := by
      have earlierNumber := emits.lineNo_eq
      rw [same] at numbered
      have numberEq : earlier.lineNo = replacement.lineNo := numbered
      omega
    have sameLength : before.length = (replacement.before ++ replacement.between).length :=
      Nat.succ_inj.mp lineEq
    rw [cut, Replacement.lines] at sourceLines
    obtain ⟨rfl, rest⟩ := List.append_inj sourceLines sameLength
    obtain ⟨rfl, rfl⟩ := List.cons.inj rest
    refine ⟨middle, words, op, arguments, earlier, read, written, emits, earlierMember, ?_⟩
    rw [same]
    exact emits.operation_eq

include assembles absent otherTexts unused plain in
theorem Replacement.introduces (assembly : Assembly) (lineNo : Nat) :
    Introduces replacement.name replacement.digits
      (assembly.withRegister lineNo replacement.name replacement.digits).equates
      (firstPass predefined source).1.equates where
  isName := replacement.isName
  notNumber := unused.notNumber
  undefined := by
    rw [← equates_assemble assembles]
    exact unused.undefined
  plain := by
    rw [← equates_assemble assembles]
    exact plain
  defined := Std.TreeMap.getElem?_insert_self
  texts := fun _ other =>
    text_ne_lineNumberName absent otherTexts (passes_of_assemble assembles) other

include sourceLines assembles member numbered stands apart in
/-- The line with the name does the same as the line with the register. -/
theorem Replacement.readLine_renamed {middle next otherMiddle base : Assembly}
    (avoids : (firstPass predefined source).1.Avoids (Concealed replacement.name))
    (introduces : Introduces replacement.name replacement.digits base.equates
      (firstPass predefined source).1.equates)
    (steady : Assembly.Steady (Concealed replacement.name) base (firstPass predefined source).1
      (statementText replacement.line.dropCarriageReturn))
    (follows : Assembly.Follows (Concealed replacement.name) [] middle otherMiddle)
    (based : base.Grows otherMiddle) (bounded : middle.Grows (firstPass predefined source).1)
    (read : (Assembly.start predefined).readLines 0 []
      (replacement.before ++ replacement.between) = (middle, none))
    (lineRead : middle.readLine replacement.lineNo
      (statementText replacement.line.dropCarriageReturn) = (next, none)) (otherNo : Nat) :
    ∃ otherNext, otherMiddle.readLine otherNo
        (statementText replacement.renamedLine.dropCarriageReturn) = (otherNext, none) ∧
      Assembly.Follows (Concealed replacement.name) [] next otherNext := by
  have isHidden : Concealed replacement.name lineNumberName := .inl rfl
  obtain ⟨found, words, op, arguments, earlier, foundRead, written, emits, earlierMember,
    operation⟩ := replacement.emits sourceLines assembles member numbered
  obtain rfl : found = middle := (Prod.mk.inj (foundRead.symm.trans read)).1
  have agree := (follows.beginLine isHidden replacement.lineNo otherNo).equates
  have within := bounded.within_beginLine replacement.lineNo
  have behind := (based.trans (Assembly.grows_beginLine otherMiddle otherNo)).equates
  obtain ⟨others, renames, otherWritten⟩ :=
    renames_of_stands stands apart operation ((steady _ _ within behind agree).trans written)
  have unusedArguments : ∀ word ∈ arguments, ¬ Uses (Concealed replacement.name) word := by
    intro word inside
    apply avoids.opcodes earlier earlierMember
    rw [emits.words_eq, emits.named]
    exact List.mem_cons_of_mem _ inside
  obtain ⟨sameLabels, otherArguments, otherBehind, encodes⟩ :=
    renames.encodes emits.known emits.named introduces within behind agree unusedArguments
      emits.encodes
  exact follows.readLine_alike isHidden lineRead written emits otherWritten sameLabels otherBehind
    encodes

include sourceLines renamedLines fits assembles absent otherTexts unused plain member numbered
  stands apart in
/-- The first pass over both. -/
theorem Replacement.follows_firstPass :
    (firstPass predefined renamed).2 = none ∧
      Assembly.Follows (Concealed replacement.name) [] (firstPass predefined source).1
        (firstPass predefined renamed).1 := by
  have passes := passes_of_assemble assembles
  have avoids := avoids_of_unused assembles absent unused
  have isHidden : Concealed replacement.name lineNumberName := .inl rfl
  have whole := readLines_firstPass passes
  rw [sourceLines, Replacement.lines] at whole
  obtain ⟨middle, line, read, restRead⟩ := Assembly.readLines_append_ok whole
  obtain ⟨first, earlierLine, beforeRead, betweenRead⟩ := Assembly.readLines_append_ok read
  obtain ⟨next, lineFits, lineRead, afterRead⟩ := Assembly.readLines_cons_ok restRead
  rw [Nat.zero_add] at betweenRead lineRead afterRead
  have introduces := replacement.introduces assembles absent otherTexts unused plain first
    (replacement.before.length + 1)
  have steady : ∀ raw ∈ source.lines, Assembly.Steady (Concealed replacement.name)
      (first.withRegister (replacement.before.length + 1) replacement.name replacement.digits)
      (firstPass predefined source).1 (statementText raw.dropCarriageReturn) := by
    intro raw inside
    apply introduces.steady
    exact fun mentions => absent (mentions.trans (infix_of_statement inside))
  have firstGrows : first.Grows (firstPass predefined source).1 :=
    (Assembly.grows_readLines betweenRead).trans (Assembly.grows_readLines restRead)
  have firstUndefined : first.equates[replacement.name]? = none :=
    introduces.undefined_left firstGrows.equates
  have equateRead := readLine_equateLine replacement.isName replacement.number unused.notNumber
    firstUndefined (replacement.before.length + 1)
  obtain ⟨otherMiddle, otherBetweenRead, middleFollows⟩ :=
    (first.follows_withRegister _ _ _).readLines isHidden avoids
      (fun raw inside => steady raw (by simp [sourceLines, Replacement.lines, inside])) (.refl _)
      (Assembly.grows_readLines restRead) betweenRead
  obtain ⟨otherNext, otherLineRead, nextFollows⟩ := replacement.readLine_renamed sourceLines
    assembles member numbered stands apart avoids introduces
    (steady replacement.line (by simp [sourceLines, Replacement.lines])) middleFollows
    (Assembly.grows_readLines otherBetweenRead) (Assembly.grows_readLines restRead) read lineRead
    (replacement.before.length + 1 + replacement.between.length + 1)
  obtain ⟨otherFinal, otherAfterRead, follows⟩ := nextFollows.readLines isHidden avoids
    (fun raw inside => steady raw (by simp [sourceLines, Replacement.lines, inside]))
    ((Assembly.grows_readLines otherBetweenRead).trans (Assembly.grows_readLine otherLineRead))
    (.refl _) afterRead
  obtain ⟨previous, behindBefore⟩ := Assembly.readLines_append beforeRead
    (equateLine replacement.name replacement.digits ::
      (replacement.between ++ replacement.renamedLine :: replacement.after))
  obtain ⟨otherPrevious, behindBetween⟩ := Assembly.readLines_append otherBetweenRead
    (replacement.renamedLine :: replacement.after)
  have renamedPasses : firstPass predefined renamed = (otherFinal, none) := by
    rw [firstPass, renamedLines, Replacement.renamedLines, behindBefore, Nat.zero_add,
      Assembly.readLines_cons fits.1 equateRead, behindBetween,
      Assembly.readLines_cons fits.2 otherLineRead]
    exact otherAfterRead
  rw [renamedPasses]
  exact ⟨rfl, follows⟩

end Renamed

/-- Equates for registers are transparent.  Take a source that is assembled and does not mention
the number of the line, and a register that stands in the line of an opcode.  Define a new name
for it in a line in front of that line, and write the name in its place.  The source is then
assembled to the same codes and the same labels, unless the name lets an expression in the same
line go on. -/
theorem register_equate_transparent {predefined : Definitions} {source renamed : Glyphs}
    {replacement : Replacement} {opcode : Opcode}
    (sourceLines : source.lines = replacement.lines)
    (renamedLines : renamed.lines = replacement.renamedLines) (fits : replacement.Fits)
    (assembles : (assemble predefined source).2 = none)
    (absent : ¬ lineNumberName <:+: source)
    (otherTexts : ∀ entry ∈ predefined, entry.2 ≠ lineNumberName)
    (unused : Unused replacement.name (assemble predefined source).1)
    (plain : (assemble predefined source).1.equates[replacement.operand]? = none)
    (member : opcode ∈ (assemble predefined source).1.opcodes.toList)
    (numbered : opcode.lineNo = replacement.lineNo)
    (stands : replacement.Stands opcode) (apart : ¬ replacement.ExtendsExpression) :
    (assemble predefined renamed).2 = none ∧
      (assemble predefined renamed).1.opcodes.toList.map Opcode.code =
        (assemble predefined source).1.opcodes.toList.map Opcode.code ∧
      ∀ label : Glyphs, (assemble predefined renamed).1.labels[label]? =
        (assemble predefined source).1.labels[label]? := by
  obtain ⟨passes, follows⟩ := replacement.follows_firstPass sourceLines renamedLines fits assembles
    absent otherTexts unused plain member numbered stands apart
  obtain ⟨renamedAssembles, labels, moved, split, relocated⟩ :=
    assemble_of_follows assembles passes follows (by simp)
      (by simp [KeepsDistance, Assembly.bytesOf])
  refine ⟨renamedAssembles, ?_, fun label => ?_⟩
  · rw [split, List.nil_append, eq_comm, ← List.forall₂_eq_eq_eq, List.forall₂_map_left_iff,
      List.forall₂_map_right_iff]
    refine relocated.imp fun opcode other codeEq => ?_
    simpa [Opcode.Relocated, Assembly.bytesOf] using codeEq.symm
  · rw [labels label]
    simp [Assembly.bytesOf]

/-- Registers that stand alone and as bases, beside offsets that are an expression and an
equate. -/
def copyWord : Glyphs :=
  Glyphs.ofString ("\n".intercalate
    [".equ NEXT 8",
      "copy: lw $2, $(4)($5) ; from",
      "sw $2, NEXT($5)"])

def namedTarget : Replacement where
  name := Glyphs.ofString "R"
  digits := Glyphs.ofString "2"
  before := []
  between := [Glyphs.ofString ".equ NEXT 8"]
  front := Glyphs.ofString "copy: lw "
  back := Glyphs.ofString ", $(4)($5) ; from"
  after := [Glyphs.ofString "sw $2, NEXT($5)"]
  isName := by constructor <;> decide
  number := by constructor <;> decide
  noSemicolon := by decide
  noHash := by decide

def namedBase : Replacement where
  name := Glyphs.ofString "_r"
  digits := Glyphs.ofString "5"
  before := [".equ NEXT 8", "copy: lw $2, $(4)($5) ; from"].map Glyphs.ofString
  between := []
  front := Glyphs.ofString "sw $2, NEXT("
  back := Glyphs.ofString ")"
  after := []
  isName := by constructor <;> decide
  number := by constructor <;> decide
  noSemicolon := by decide
  noHash := by decide

def copyTarget : Glyphs :=
  Glyphs.ofString ("\n".intercalate
    [".equ R $2",
      ".equ NEXT 8",
      "copy: lw R, $(4)($5) ; from",
      "sw $2, NEXT($5)"])

def copyBase : Glyphs :=
  Glyphs.ofString ("\n".intercalate
    [".equ NEXT 8",
      "copy: lw $2, $(4)($5) ; from",
      ".equ _r $5",
      "sw $2, NEXT(_r)"])

theorem assembled_copyWord :
    (assemble [] copyWord).2 = none ∧
      (assemble [] copyWord).1.opcodes.toList =
        [⟨2, 0, ["lw", "$2", "4($5)"].map Glyphs.ofString, 0x8ca20004, none⟩,
          ⟨3, 4, ["sw", "$2", "NEXT($5)"].map Glyphs.ofString, 0xaca20008, none⟩] ∧
      ∀ word ∈ [namedTarget.name, namedBase.name, namedTarget.operand, namedBase.operand],
        (assemble [] copyWord).1.equates[word]? = none := by
  decide +kernel

theorem unused_copyWord :
    Unused namedTarget.name (assemble [] copyWord).1 ∧
      Unused namedBase.name (assemble [] copyWord).1 := by
  obtain ⟨-, opcodes, undefined⟩ := assembled_copyWord
  refine ⟨⟨by decide, undefined _ (by simp), ?_⟩, ⟨by decide, undefined _ (by simp), ?_⟩⟩
  all_goals
    rw [opcodes]
    decide +kernel

theorem register_equate_transparent_copyWord :
    copyWord.lines = namedTarget.lines ∧ copyTarget.lines = namedTarget.renamedLines ∧
      copyWord.lines = namedBase.lines ∧ copyBase.lines = namedBase.renamedLines ∧
      (assemble [] copyWord).1.opcodes.toList.map Opcode.code = [0x8ca20004, 0xaca20008] ∧
      (assemble [] copyTarget).1.opcodes.toList.map Opcode.code = [0x8ca20004, 0xaca20008] ∧
      (assemble [] copyBase).1.opcodes.toList.map Opcode.code = [0x8ca20004, 0xaca20008] := by
  obtain ⟨assembles, opcodes, plain⟩ := assembled_copyWord
  have codes : (assemble [] copyWord).1.opcodes.toList.map Opcode.code =
      [0x8ca20004, 0xaca20008] := by
    rw [opcodes]
    rfl
  obtain ⟨absent, targetLines, targetRenamed, baseLines, baseRenamed⟩ :
      ¬ lineNumberName <:+: copyWord ∧ copyWord.lines = namedTarget.lines ∧
        copyTarget.lines = namedTarget.renamedLines ∧ copyWord.lines = namedBase.lines ∧
        copyBase.lines = namedBase.renamedLines := by
    decide +kernel
  have target := register_equate_transparent targetLines targetRenamed (by decide +kernel)
    assembles absent (by simp) unused_copyWord.1 (plain _ (by simp))
    (opcodes ▸ List.mem_cons_self) rfl
    (.alone (by rintro glyph ⟨⟩; decide) (by rintro glyph ⟨⟩; decide)) (by decide +kernel)
  have base := register_equate_transparent baseLines baseRenamed (by decide +kernel)
    assembles absent (by simp) unused_copyWord.2 (plain _ (by simp))
    (opcodes ▸ List.mem_cons_of_mem _ List.mem_cons_self) rfl
    (.base (by decide) rfl [] rfl (by simp)) (by decide +kernel)
  exact ⟨targetLines, targetRenamed, baseLines, baseRenamed, codes, target.2.1.trans codes,
    base.2.1.trans codes⟩

/-- Behind an expression, the name of a base register becomes a part of the expression. -/
theorem register_equate_not_transparent :
    (assemble [] (Glyphs.ofString "lw $1, $(4)($5)")).2 = none ∧
      (assemble [] (Glyphs.ofString "lw $1, $(4)($5)")).1.opcodes.toList.map Opcode.code =
        [0x8ca10004] ∧
      (assemble [] (Glyphs.ofString ".equ R $5\nlw $1, $(4)(R)")).2 ≠ none := by
  decide +kernel
example :
    (assemble [] (Glyphs.ofString ".equ $5 $6\njr $5")).1.opcodes.toList.map Opcode.code =
        [0x00c00008] ∧
      (assemble [] (Glyphs.ofString
        ".equ $5 $6\n.equ R $5\njr R")).1.opcodes.toList.map Opcode.code = [0x00a00008] := by
  decide +kernel

end Assembler
end ReversibleMips
