import ReversibleMips.Proofs.LabelledPrograms
import ReversibleMips.Proofs.MentionedWords

/-!
# Relocation

Lines that emit one word each and do nothing else move what is behind them, and do not change
it otherwise.  Labels move with the words that they are in front of, so branches keep their
distances and only the words that hold an address tell that something is in front of them.
-/

namespace ReversibleMips
namespace Assembler

def sourceOf (lines : List Glyphs) : Glyphs := lines.flatMap (· ++ [.char '\n'])

theorem splitBefore_append_mark {α : Type} [DecidableEq α] {mark : α} {piece : List α}
    (absent : mark ∉ piece) (rest : List α) :
    Text.splitBefore mark (piece ++ mark :: rest) = piece :: Text.splitBefore mark rest := by
  obtain ⟨first, pieces, split, -⟩ := Text.splitOn_eq_cons mark rest
  simp only [Text.splitBefore, Text.splitOn_append_mark absent, split, List.getLast?_cons_cons,
    List.dropLast_cons_of_ne_nil (List.cons_ne_nil first pieces)]
  split
  · rfl
  · rfl

theorem lines_sourceOf_append {lines : List Glyphs} (single : ∀ line ∈ lines, .char '\n' ∉ line)
    (source : Glyphs) : Glyphs.lines (sourceOf lines ++ source) = lines ++ source.lines := by
  induction lines with
  | nil => rfl
  | cons line lines ih =>
      have later := ih fun line member => single line (List.mem_cons_of_mem _ member)
      have first := splitBefore_append_mark (single line List.mem_cons_self)
        (sourceOf lines ++ source)
      rw [Glyphs.lines] at later ⊢
      rw [List.cons_append, ← later, ← first]
      simp [sourceOf]

namespace Assembly

/-- A line emits at most one opcode, and then it defines no equate. -/
theorem size_readLine {assembly next : Assembly} {lineNo : Nat} {line : Glyphs}
    (read : assembly.readLine lineNo line = (next, none)) :
    next.opcodes.size ≤ assembly.opcodes.size ∨
      next.opcodes.size = assembly.opcodes.size + 1 ∧
        assembly.equates.AgreeOff (· = lineNumberName) next.equates := by
  obtain ⟨words, -, ⟨-, rfl⟩ | ⟨rest, -, defined⟩ | ⟨labelled, -, -, defined, emitted⟩⟩ :=
    readLine_eq read
  · exact .inl (Nat.le_refl _)
  · obtain ⟨name, text, -, -, rfl⟩ := defineEquate_eq defined
    exact .inl (Nat.le_refl _)
  · obtain ⟨same, -⟩ := defineLabels_ok defined
    obtain ⟨-, rfl⟩ | ⟨mnemonic, arguments, op, encoded, -, -, -, rfl⟩ := emit_eq emitted
    · rw [same]
      exact .inl (Nat.le_refl _)
    · rw [same]
      refine .inr ⟨Array.size_push _, fun word visible => ?_⟩
      exact getElem?_insert_of_ne visible _

theorem size_readLines_le {assembly final : Assembly} {lineNo : Nat} {previous : Glyphs}
    {lines : List Glyphs} (read : assembly.readLines lineNo previous lines = (final, none)) :
    final.opcodes.size ≤ assembly.opcodes.size + lines.length := by
  induction lines generalizing assembly lineNo previous with
  | nil =>
      cases read
      exact Nat.le_refl _
  | cons raw lines ih =>
      obtain ⟨next, -, first, later⟩ := readLines_cons_ok read
      have rest := ih later
      have step := size_readLine first
      rw [List.length_cons]
      omega

/-- Lines that all emit an opcode define no equates. -/
theorem agreeOff_of_size {assembly final : Assembly} {lineNo : Nat} {previous : Glyphs}
    {lines : List Glyphs} (read : assembly.readLines lineNo previous lines = (final, none))
    (all : final.opcodes.size = assembly.opcodes.size + lines.length) :
    assembly.equates.AgreeOff (· = lineNumberName) final.equates := by
  induction lines generalizing assembly lineNo previous with
  | nil =>
      cases read
      exact fun word visible => rfl
  | cons raw lines ih =>
      obtain ⟨next, -, first, later⟩ := readLines_cons_ok read
      have rest := size_readLines_le later
      rw [List.length_cons] at all
      rcases size_readLine first with less | ⟨one, agree⟩
      · omega
      · intro word visible
        rw [ih later (by omega) word visible, agree word visible]

/-- Linking leaves opcodes alone that refer to no label. -/
theorem eq_of_linkOpcodes {labels : Labels} {opcodes linked : List Opcode}
    (unlabelled : ∀ opcode ∈ linked, opcode.label = none)
    (links : linkOpcodes labels opcodes = (linked, none)) : linked = opcodes := by
  induction opcodes generalizing linked with
  | nil =>
      cases links
      rfl
  | cons opcode opcodes ih =>
      rw [linkOpcodes] at links
      split at links
      · cases links
      · rename_i first firstLinks
        cases restLinks : linkOpcodes labels opcodes with
        | mk later error =>
            rw [restLinks] at links
            cases links
            have rest := ih (fun opcode member => unlabelled opcode (List.mem_cons_of_mem _ member))
              restLinks
            have alone : opcode.label = none := by
              have firstAlone := unlabelled first List.mem_cons_self
              rw [eq_of_linkOpcode firstLinks] at firstAlone
              exact firstAlone
            rw [linkOpcode_eq_ok alone] at firstLinks
            cases firstLinks
            rw [rest]

end Assembly

/-- The second pass keeps everything but codes, also where it stops. -/
theorem withoutCode_linkOpcodes (labels : Labels) (opcodes : List Opcode) :
    (Assembly.linkOpcodes labels opcodes).1.map Opcode.withoutCode =
      opcodes.map Opcode.withoutCode := by
  induction opcodes with
  | nil => rfl
  | cons opcode opcodes ih =>
      rw [Assembly.linkOpcodes]
      split
      · rfl
      · rename_i linked links
        rw [List.map_cons, ih, List.map_cons, eq_of_linkOpcode links]
        rfl

theorem length_linkOpcodes (labels : Labels) (opcodes : List Opcode) :
    (Assembly.linkOpcodes labels opcodes).1.length = opcodes.length := by
  rw [← List.length_map Opcode.withoutCode, withoutCode_linkOpcodes, List.length_map]

theorem size_assemble {predefined : Definitions} {source : Glyphs}
    (assembles : (assemble predefined source).2 = none) :
    (assemble predefined source).1.opcodes.size = (firstPass predefined source).1.opcodes.size := by
  have length := length_linkOpcodes (firstPass predefined source).1.labels
    (firstPass predefined source).1.opcodes.toList
  rw [(links_of_assemble assembles).2] at length
  simpa using length

theorem steady_of_no_expression {hidden : Glyphs → Prop} {base bound : Assembly} {line : Glyphs}
    (absent : ¬ expressionMark <:+: line) : Assembly.Steady hidden base bound line := by
  intro left right _ _ _
  have kept : ¬ expressionMark <:+: expandCharacters line := by
    intro inside
    exact absent ((filled_expandCharacters line).infix_of_made (by decide) inside)
  rw [Equates.wordsOf, Equates.wordsOf, right.expandExpressions_eq_self kept,
    left.expandExpressions_eq_self kept]

/-- Lines that emit an opcode each.  They define no labels and refer to none, and an equate
would be a line without an opcode. -/
structure EmitOnly (predefined : Definitions) (lines : List Glyphs) : Prop where
  single : ∀ line ∈ lines, .char '\n' ∉ line
  assembles : (assemble predefined (sourceOf lines)).2 = none
  each : (assemble predefined (sourceOf lines)).1.opcodes.size = lines.length
  undefining : (assemble predefined (sourceOf lines)).1.labels.isEmpty = true
  unlabelled : ∀ opcode ∈ (assemble predefined (sourceOf lines)).1.opcodes.toList,
    opcode.label = none

section EmitOnly

variable {predefined : Definitions} {front : List Glyphs}
    (emitOnly : EmitOnly predefined front)
include emitOnly

theorem EmitOnly.opcodes_eq :
    (assemble predefined (sourceOf front)).1.opcodes =
      (firstPass predefined (sourceOf front)).1.opcodes := by
  have links := (links_of_assemble emitOnly.assembles).2
  exact Array.toList_inj.mp (Assembly.eq_of_linkOpcodes emitOnly.unlabelled links)

theorem EmitOnly.read :
    (Assembly.start predefined).readLines 0 [] front =
      ((firstPass predefined (sourceOf front)).1, none) := by
  have lines : (sourceOf front).lines = front := by
    have append := lines_sourceOf_append emitOnly.single []
    rw [List.append_nil] at append
    exact append.trans (List.append_nil front)
  have read := readLines_firstPass (passes_of_assemble emitOnly.assembles)
  rw [lines] at read
  exact read

/-- What is read behind such lines follows what is read alone. -/
theorem EmitOnly.follows :
    Assembly.Follows (· = lineNumberName)
      (assemble predefined (sourceOf front)).1.opcodes.toList (Assembly.start predefined)
      (firstPass predefined (sourceOf front)).1 where
  equates := by
    apply Assembly.agreeOff_of_size emitOnly.read
    rw [← emitOnly.opcodes_eq, emitOnly.each]
    exact (Nat.zero_add _).symm
  labels := by
    intro label
    have none : (assemble predefined (sourceOf front)).1.labels[label]? = none :=
      Std.TreeMap.getElem?_of_isEmpty emitOnly.undefining
    have startNone : (Assembly.start predefined).labels[label]? = Option.none :=
      Std.TreeMap.getElem?_emptyc
    rw [← (links_of_assemble emitOnly.assembles).1, none, startNone, Option.map_none]
  opcodes := by
    refine ⟨[], ?_, .nil⟩
    rw [emitOnly.opcodes_eq, List.append_nil]

end EmitOnly

theorem avoids_of_unmentioned {predefined : Definitions} {source : Glyphs}
    (absent : ¬ lineNumberName <:+: source) (passes : (firstPass predefined source).2 = none) :
    (firstPass predefined source).1.Avoids (· = lineNumberName) where
  equates := fun _ _ other _ => other
  opcodes := fun _ member _ inside => not_uses_lineNumberName absent passes member inside

section Behind

variable {predefined : Definitions} {front : List Glyphs} {source : Glyphs}
    (emitOnly : EmitOnly predefined front)
    (assembles : (assemble predefined source).2 = none)
    (noNumber : ¬ lineNumberName <:+: source) (noExpression : ¬ expressionMark <:+: source)
    (fits : front.length + (assemble predefined source).1.opcodes.size < 0x40000000)

include emitOnly assembles noNumber noExpression in
/-- The first pass over both. -/
theorem follows_firstPass :
    (firstPass predefined (sourceOf front ++ source)).2 = none ∧
      Assembly.Follows (· = lineNumberName)
        (assemble predefined (sourceOf front)).1.opcodes.toList (firstPass predefined source).1
        (firstPass predefined (sourceOf front ++ source)).1 := by
  have passes := passes_of_assemble assembles
  have steady : ∀ raw ∈ source.lines, Assembly.Steady (· = lineNumberName)
      (firstPass predefined (sourceOf front)).1 (firstPass predefined source).1
      (statementText raw.dropCarriageReturn) := by
    intro raw member
    apply steady_of_no_expression
    exact fun inside => noExpression (inside.trans (infix_of_statement member))
  obtain ⟨line, behind⟩ := Assembly.readLines_append emitOnly.read source.lines
  obtain ⟨final, read, follows⟩ := emitOnly.follows.readLines (by rfl)
    (avoids_of_unmentioned noNumber passes) steady (.refl _) (.refl _)
    (readLines_firstPass passes)
  have whole : firstPass predefined (sourceOf front ++ source) = (final, none) := by
    rw [firstPass, lines_sourceOf_append emitOnly.single, behind]
    exact read
  rw [whole]
  exact ⟨rfl, follows⟩

include assembles fits in
/-- The address of a label has room to move. -/
theorem toNat_target {label : Glyphs} {target : UInt32}
    (defined : (firstPass predefined source).1.labels[label]? = some target) :
    (target + UInt32.ofNat (4 * front.length)).toNat = target.toNat + 4 * front.length := by
  have passes := passes_of_assemble assembles
  rw [size_assemble assembles] at fits
  obtain ⟨count, defines, targetEq⟩ :=
    (labels_firstPass passes (by omega) label target).mp defined
  have inside := defines.count_le (readLines_firstPass passes)
  rw [UInt32.toNat_add, UInt32.toNat_ofNat']
  omega

include assembles fits in
theorem keepsDistance_firstPass {opcode : Opcode}
    (member : opcode ∈ (firstPass predefined source).1.opcodes.toList) {label : Glyphs}
    {target : UInt32} (defined : (firstPass predefined source).1.labels[label]? = some target) :
    KeepsDistance (UInt32.ofNat (4 * front.length)) opcode target := by
  have passes := passes_of_assemble assembles
  have moved := toNat_target assembles fits defined
  rw [size_assemble assembles] at fits
  obtain ⟨index, found⟩ := List.getElem?_of_mem member
  have inside : index < (firstPass predefined source).1.opcodes.size := by
    simpa using (List.getElem?_eq_some_iff.mp found).1
  have pcEq : opcode.pc.toNat = 4 * index :=
    pc_firstPass passes (by omega) (by simpa using found)
  have fourEq : (4 : UInt32).toNat = 4 := rfl
  rw [KeepsDistance, moved]
  simp only [UInt32.toNat_add, UInt32.toNat_ofNat', pcEq, fourEq]
  omega

include assembles fits in
/-- The address of a label is moved without wrapping around. -/
theorem toNat_code_of_isPointer {opcode : Opcode}
    (member : opcode ∈ (assemble predefined source).1.opcodes.toList)
    (pointer : opcode.IsPointer) :
    (opcode.code + UInt32.ofNat (4 * front.length)).toNat =
      opcode.code.toNat + 4 * front.length := by
  have passes := passes_of_assemble assembles
  obtain ⟨earlier, earlierMember, linked⟩ :=
    linkOpcode_of_mem (links_of_assemble assembles).2 member
  rcases linkOpcode_ok linked with
    ⟨alone, rfl⟩ | ⟨label, target, code, refers, defined, coded, rfl⟩
  · exact absurd alone pointer.2
  · obtain ⟨index, found⟩ := List.getElem?_of_mem earlierMember
    have placed := listed_firstPass passes index earlier (by simpa using found)
    obtain ⟨op, mnemonic, unlinked⟩ := placed.unlinked (by simp [refers])
    obtain rfl : op = .word := Option.some.inj (mnemonic.symm.trans pointer.1)
    have blank : earlier.code = 0 := by
      cases unlinked with
      | datum _ blank => exact blank
      | branch conditional => exact absurd conditional (by decide)
    rw [linkedCode_datum blank] at coded
    cases coded
    exact toNat_target assembles fits defined

end Behind

/-- A source can be moved behind lines that emit a word each.  The lines in front become what
they are alone.  Every label lies behind by the size of these lines, and so does what a word
with the address of a label holds.  All other codes are the same, also those of branches. -/
theorem assemble_relocates {predefined : Definitions} {front : List Glyphs}
    {source : Glyphs} (emitOnly : EmitOnly predefined front)
    (assembles : (assemble predefined source).2 = none)
    (noNumber : ¬ lineNumberName <:+: source) (noExpression : ¬ expressionMark <:+: source)
    (fits : front.length + (assemble predefined source).1.opcodes.size < 0x40000000) :
    let first := (assemble predefined (sourceOf front)).1
    let alone := (assemble predefined source).1
    let whole := assemble predefined (sourceOf front ++ source)
    whole.2 = none ∧
    (∀ label : Glyphs, (whole.1.labels[label]?).map UInt32.toNat =
      (alone.labels[label]?).map fun address => address.toNat + 4 * front.length) ∧
    ∃ moved, whole.1.opcodes.toList = first.opcodes.toList ++ moved ∧
      List.Forall₂ (fun opcode other => other.code.toNat =
        if opcode.IsPointer then opcode.code.toNat + 4 * front.length else opcode.code.toNat)
        alone.opcodes.toList moved := by
  intro first alone whole
  have labelsEq := (links_of_assemble assembles).1
  obtain ⟨wholePasses, follows⟩ :=
    follows_firstPass emitOnly assembles noNumber noExpression
  have bytes : Assembly.bytesOf first.opcodes.toList = UInt32.ofNat (4 * front.length) := by
    rw [Assembly.bytesOf, Array.length_toList, emitOnly.each]
  have moves := assemble_of_follows assembles wholePasses follows emitOnly.unlabelled
  rw [bytes] at moves
  obtain ⟨wholeAssembles, wholeLabels, moved, split, relocated⟩ :=
    moves fun opcode member label target defined =>
      keepsDistance_firstPass assembles fits member defined
  refine ⟨wholeAssembles, fun label => ?_, moved, split, ?_⟩
  · change ((assemble predefined (sourceOf front ++ source)).1.labels[label]?).map _ =
      ((assemble predefined source).1.labels[label]?).map _
    rw [wholeLabels, labelsEq]
    cases defined : (firstPass predefined source).1.labels[label]? with
    | none => rfl
    | some target => exact congrArg some (toNat_target assembles fits defined)
  · have known := (List.forall₂_and_left _ _).mpr ⟨fun opcode member => member, relocated⟩
    refine known.imp ?_
    rintro opcode other ⟨member, codeEq⟩
    rw [codeEq]
    split
    · rename_i pointer
      exact toNat_code_of_isPointer assembles fits member pointer
    · rfl

def twoWords : List Glyphs := ["add $1, $2, $3", ".word LINENO ; two"].map Glyphs.ofString

def bothWays : Glyphs :=
  Glyphs.ofString ("\n".intercalate
    [".equ COUNT $7",
      "again: beq COUNT, $0, done",
      ".word done",
      "bne $1, COUNT, again",
      "done: .word again"])

theorem emitOnly_twoWords : EmitOnly [] twoWords := by
  constructor
  all_goals decide +kernel

theorem assemble_relocates_bothWays :
    EmitOnly [] twoWords ∧ (assemble [] bothWays).2 = none ∧
      ¬ lineNumberName <:+: bothWays ∧ ¬ expressionMark <:+: bothWays ∧
      twoWords.length + (assemble [] bothWays).1.opcodes.size < 0x40000000 ∧
      (assemble [] bothWays).1.opcodes.toList.map Opcode.code = [0x10e00002, 12, 0x1427fffd, 0] ∧
      (assemble [] (sourceOf twoWords ++ bothWays)).2 = none ∧
      (assemble [] (sourceOf twoWords ++ bothWays)).1.opcodes.toList.map Opcode.code =
        [0x00430820, 2, 0x10e00002, 12 + 8, 0x1427fffd, 0 + 8] := by
  obtain ⟨assembles, noNumber, noExpression, fits, codes, wholeCodes⟩ :
      (assemble [] bothWays).2 = none ∧
        ¬ lineNumberName <:+: bothWays ∧ ¬ expressionMark <:+: bothWays ∧
        twoWords.length + (assemble [] bothWays).1.opcodes.size < 0x40000000 ∧
        (assemble [] bothWays).1.opcodes.toList.map Opcode.code =
          [0x10e00002, 12, 0x1427fffd, 0] ∧
        (assemble [] (sourceOf twoWords ++ bothWays)).1.opcodes.toList.map Opcode.code =
          [0x00430820, 2, 0x10e00002, 12 + 8, 0x1427fffd, 0 + 8] := by
    decide +kernel
  have relocates := assemble_relocates emitOnly_twoWords assembles noNumber noExpression fits
  exact ⟨emitOnly_twoWords, assembles, noNumber, noExpression, fits, codes, relocates.1,
    wholeCodes⟩

end Assembler
end ReversibleMips
