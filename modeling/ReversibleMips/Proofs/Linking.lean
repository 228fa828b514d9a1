import ReversibleMips.Proofs.Encoding
import ReversibleMips.Proofs.FirstPass

/-!
# Linking labels

The second pass puts the address of a label into every opcode that refers to it: into a
datum as it is, and into a branch as the number of words that lie between the word after the
branch and the label.  It succeeds exactly if all labels are there and no branch goes too
far, and otherwise stops at the first opcode for which this fails.
-/

namespace ReversibleMips

namespace Opcode

/-- The mnemonic is one of a conditional branch. -/
def IsBranch (opcode : Opcode) : Prop :=
  opcode.operation? = some .beq ∨ opcode.operation? = some .bne

/-- The number of words from the word after an opcode to a byte address. -/
def distance (opcode : Opcode) (target : UInt32) : Int :=
  ((target.toNat : Int) - (opcode.pc.toNat + 4)) / 4

/-- The number of words to a byte address can be the immediate of a branch. -/
def Reaches (opcode : Opcode) (target : UInt32) : Prop :=
  -0x8000 ≤ opcode.distance target ∧ opcode.distance target ≤ 0x7fff

instance (opcode : Opcode) (target : UInt32) : Decidable (opcode.Reaches target) :=
  inferInstanceAs (Decidable (_ ∧ _))

def withoutCode (opcode : Opcode) : Opcode := { opcode with code := 0 }

end Opcode

namespace Assembler

/-- The label of an opcode is there, and near enough if the opcode is a branch. -/
def Linkable (labels : Labels) (opcode : Opcode) : Prop :=
  ∀ label, opcode.label = some label →
    ∃ target, labels[label]? = some target ∧ (opcode.IsBranch → opcode.Reaches target)

/-- What keeps an opcode from being linked. -/
inductive Blames (labels : Labels) (opcode : Opcode) : Fault → Prop
  | missing {label : Glyphs} (refers : opcode.label = some label)
      (undefined : labels[label]? = none) : Blames labels opcode (.labelMissing label.shown)
  | distant {label : Glyphs} {target : UInt32} (refers : opcode.label = some label)
      (defined : labels[label]? = some target) (branch : opcode.IsBranch)
      (far : ¬ opcode.Reaches target) : Blames labels opcode (.immediateRange label.shown)

/-- What becomes of an opcode that is linked. -/
inductive Linked (labels : Labels) (opcode : Opcode) : Opcode → Prop
  | unlabelled (alone : opcode.label = none) : Linked labels opcode opcode
  | datum {label : Glyphs} {target : UInt32} (refers : opcode.label = some label)
      (defined : labels[label]? = some target) (word : opcode.operation? = some .word) :
      Linked labels opcode { opcode with code := target }
  | branch {label : Glyphs} {target : UInt32} {op : Op} {s t : Nat}
      (refers : opcode.label = some label) (defined : labels[label]? = some target)
      (mnemonic : opcode.operation? = some op) (conditional : op = .beq ∨ op = .bne)
      (sGeneral : s < 32) (tGeneral : t < 32) (near : opcode.Reaches target) :
      Linked labels opcode
        { opcode with code := op.encode s t 0 (Int16.ofInt (opcode.distance target)) }

theorem Linked.withoutCode_eq {labels : Labels} {opcode linked : Opcode}
    (isLinked : Linked labels opcode linked) : linked.withoutCode = opcode.withoutCode := by
  cases isLinked <;> rfl

/-- An error is about the first opcode that cannot be linked. -/
inductive BlamesFirst (labels : Labels) (opcodes : List Opcode) (error : SourceError) : Prop
  | intro (earlier : List Opcode) (opcode : Opcode) (later : List Opcode)
      (cut : opcodes = earlier ++ opcode :: later)
      (fine : ∀ opcode ∈ earlier, Linkable labels opcode)
      (stuck : ¬ Linkable labels opcode)
      (blames : Blames labels opcode error.fault)
      (lineNo : (error.lineNo : Int) = opcode.lineNo)
      (line : error.line = " ".intercalate (opcode.words.map Glyphs.shown))

/-- The fields of a branch are what was encoded. -/
theorem fields_encode_branch {op : Op} (conditional : op = .beq ∨ op = .bne) {s t : Nat}
    (sGeneral : s < 32) (tGeneral : t < 32) (immediate : Int16) :
    let word := op.encode s t 0 immediate
    word.op = op ∧ word.regS.val = s ∧ word.regT.val = t ∧ word.immediate = immediate := by
  have sEq : Shape.field true s = s := Shape.field_eq sGeneral (by simp)
  have tEq : Shape.field true t = t := Shape.field_eq tGeneral (by simp)
  rcases conditional with rfl | rfl
  · obtain ⟨opcodeEq, fields⟩ :=
      Shape.fields_encode_immediate (by omega : 0x04 < 64) s t 0 immediate
    rw [sEq, tEq] at fields
    exact ⟨by simp only [Word.op, Op.encode, Op.shape?, opcodeEq], fields⟩
  · obtain ⟨opcodeEq, fields⟩ :=
      Shape.fields_encode_immediate (by omega : 0x05 < 64) s t 0 immediate
    rw [sEq, tEq] at fields
    exact ⟨by simp only [Word.op, Op.encode, Op.shape?, opcodeEq], fields⟩

section Link

variable {labels : Labels}
    (aligned : ∀ (label : Glyphs) (target : UInt32), labels[label]? = some target →
      target.toNat % 4 = 0)

theorem Placed.toNat_pc {index : Nat} {opcode : Opcode} (placed : Placed index opcode)
    (inside : index + 1 < 0x40000000) : opcode.pc.toNat = 4 * index := by
  rw [placed.pc_eq, UInt32.toNat_ofNat', Nat.mod_eq_of_lt (by omega)]

/-- The immediate that the second pass computes is the distance of the target. -/
theorem Placed.offset_eq {index : Nat} {opcode : Opcode} (placed : Placed index opcode)
    (inside : index + 1 < 0x40000000) {target : UInt32} (whole : target.toNat % 4 = 0) :
    ((target.toNat : Int) - (opcode.pc + 4).toNat).tdiv 4 = opcode.distance target := by
  have pc := placed.toNat_pc inside
  have after : (opcode.pc + 4).toNat = 4 * index + 4 := by
    rw [UInt32.toNat_add, pc, Nat.mod_eq_of_lt]
    · rfl
    · change 4 * index + 4 < 2 ^ 32
      omega
  rw [after, Opcode.distance, pc, Int.tdiv_eq_ediv_of_dvd (by omega)]
  rfl

/-- The placeholder of a branch gets the number of words from the word behind it, if that can be
an immediate. -/
theorem linkedCode_placeholder {opcode : Opcode} {op : Op} (conditional : op = .beq ∨ op = .bne)
    {s t : Nat} (sGeneral : s < 32) (tGeneral : t < 32)
    (registers : opcode.code = op.encode s t 0 0) (label : Glyphs) (target : UInt32) :
    Assembly.linkedCode opcode label target =
      let offset := ((target.toNat : Int) - (opcode.pc + 4).toNat).tdiv 4
      if -0x8000 ≤ offset ∧ offset ≤ 0x7fff then .ok (op.encode s t 0 (Int16.ofInt offset))
      else .error (.immediateRange label.shown) := by
  obtain ⟨opEq, sEq, tEq, -⟩ := fields_encode_branch conditional sGeneral tGeneral 0
  rw [← registers] at opEq sEq tEq
  simp only [Assembly.linkedCode, Instruction.op_decode, opEq, sEq, tEq, conditional, if_true]

theorem linkedCode_branch {index : Nat} {opcode : Opcode} (placed : Placed index opcode)
    (inside : index + 1 < 0x40000000) {op : Op} (conditional : op = .beq ∨ op = .bne) {s t : Nat}
    (sGeneral : s < 32) (tGeneral : t < 32) (registers : opcode.code = op.encode s t 0 0)
    (label : Glyphs) {target : UInt32} (whole : target.toNat % 4 = 0) :
    Assembly.linkedCode opcode label target =
      if opcode.Reaches target then
        .ok (op.encode s t 0 (Int16.ofInt (opcode.distance target)))
      else
        .error (.immediateRange label.shown) := by
  simp only [linkedCode_placeholder conditional sGeneral tGeneral registers,
    placed.offset_eq inside whole]
  rfl

theorem linkedCode_datum {opcode : Opcode} (blank : opcode.code = 0) (label : Glyphs)
    (target : UInt32) : Assembly.linkedCode opcode label target = .ok target := by
  have data : Word.op 0 = .word := by decide
  simp [Assembly.linkedCode, blank, data]

theorem linkOpcode_eq_ok {opcode : Opcode} (alone : opcode.label = none) :
    Assembly.linkOpcode labels opcode = .ok opcode := by
  simp [Assembly.linkOpcode, alone]

theorem linkOpcode_eq_missing {opcode : Opcode} {label : Glyphs}
    (refers : opcode.label = some label) (undefined : labels[label]? = none) :
    Assembly.linkOpcode labels opcode = .error (.labelMissing label.shown) := by
  simp [Assembly.linkOpcode, refers, undefined]

theorem linkOpcode_eq_map {opcode : Opcode} {label : Glyphs} {target : UInt32}
    (refers : opcode.label = some label) (defined : labels[label]? = some target) :
    Assembly.linkOpcode labels opcode =
      (Assembly.linkedCode opcode label target).map fun code => { opcode with code := code } := by
  simp [Assembly.linkOpcode, refers, defined]

theorem linkable_iff {opcode : Opcode} {label : Glyphs} {target : UInt32}
    (refers : opcode.label = some label) (defined : labels[label]? = some target) :
    Linkable labels opcode ↔ (opcode.IsBranch → opcode.Reaches target) := by
  constructor
  · intro linkable
    obtain ⟨found, same, near⟩ := linkable label refers
    rw [defined] at same
    cases same
    exact near
  · intro near other otherRefers
    rw [refers] at otherRefers
    cases otherRefers
    exact ⟨target, defined, near⟩

include aligned in
/-- An opcode is linked, or there is something to blame. -/
theorem linkOpcode_cases {index : Nat} {opcode : Opcode} (placed : Placed index opcode)
    (inside : index + 1 < 0x40000000) :
    (∃ linked, Assembly.linkOpcode labels opcode = .ok linked ∧ Linkable labels opcode ∧
        Linked labels opcode linked) ∨
      ∃ fault, Assembly.linkOpcode labels opcode = .error fault ∧ ¬ Linkable labels opcode ∧
        Blames labels opcode fault := by
  cases refers : opcode.label with
  | none =>
      exact .inl ⟨opcode, linkOpcode_eq_ok refers, by simp [Linkable, refers],
        .unlabelled refers⟩
  | some label =>
      cases defined : labels[label]? with
      | none =>
          refine .inr ⟨_, linkOpcode_eq_missing refers defined, ?_, .missing refers defined⟩
          intro linkable
          obtain ⟨target, found, -⟩ := linkable label refers
          rw [defined] at found
          cases found
      | some target =>
          obtain ⟨op, mnemonic, unlinked⟩ := placed.unlinked (by simp [refers])
          rw [linkOpcode_eq_map refers defined, linkable_iff refers defined]
          cases unlinked with
          | datum word blank =>
              subst word
              rw [linkedCode_datum blank]
              refine .inl ⟨_, rfl, ?_, .datum refers defined mnemonic⟩
              simp [Opcode.IsBranch, mnemonic]
          | branch conditional s t sGeneral tGeneral registers =>
              rw [linkedCode_branch placed inside conditional sGeneral tGeneral registers label
                (aligned label target defined)]
              have branch : opcode.IsBranch := by
                rcases conditional with rfl | rfl
                · exact .inl mnemonic
                · exact .inr mnemonic
              by_cases near : opcode.Reaches target
              · rw [if_pos near]
                exact .inl ⟨_, rfl, fun _ => near,
                  .branch refers defined mnemonic conditional sGeneral tGeneral near⟩
              · rw [if_neg near]
                exact .inr ⟨_, rfl, fun reaches => near (reaches branch),
                  .distant refers defined branch near⟩

/-- Every opcode is one of the first pass, at an address with another behind it. -/
def AllPlaced (opcodes : List Opcode) : Prop :=
  ∀ opcode ∈ opcodes, ∃ index, Placed index opcode ∧ index + 1 < 0x40000000

include aligned in
/-- All opcodes are linked, or the first that cannot be linked is blamed. -/
theorem linkOpcodes_cases {opcodes : List Opcode} (placed : AllPlaced opcodes) :
    (∃ linked, Assembly.linkOpcodes labels opcodes = (linked, none) ∧
        (∀ opcode ∈ opcodes, Linkable labels opcode) ∧
        linked.map Opcode.withoutCode = opcodes.map Opcode.withoutCode ∧
        ∀ opcode ∈ linked, ∃ earlier ∈ opcodes, Linked labels earlier opcode) ∨
      ∃ kept error, Assembly.linkOpcodes labels opcodes = (kept, some error) ∧
        BlamesFirst labels opcodes error := by
  induction opcodes with
  | nil => exact .inl ⟨[], rfl, by simp, rfl, by simp⟩
  | cons opcode opcodes ih =>
      obtain ⟨index, place, inside⟩ := placed opcode (by simp)
      have later := ih fun opcode member => placed opcode (List.mem_cons_of_mem _ member)
      rcases linkOpcode_cases aligned place inside with
        ⟨linked, link, linkable, isLinked⟩ | ⟨fault, link, stuck, blames⟩
      · rcases later with ⟨rest, links, linkables, same, areLinked⟩ | ⟨kept, error, links, blamed⟩
        · refine .inl ⟨linked :: rest, ?_, ?_, ?_, ?_⟩
          · simp only [Assembly.linkOpcodes, link, links]
          · simpa using ⟨linkable, linkables⟩
          · rw [List.map_cons, List.map_cons, isLinked.withoutCode_eq, same]
          · intro found member
            rcases List.mem_cons.mp member with rfl | behind
            · exact ⟨opcode, List.mem_cons_self, isLinked⟩
            · obtain ⟨earlier, earlierMember, foundLinked⟩ := areLinked found behind
              exact ⟨earlier, List.mem_cons_of_mem _ earlierMember, foundLinked⟩
        · refine .inr ⟨linked :: kept, error, ?_, ?_⟩
          · simp only [Assembly.linkOpcodes, link, links]
          · obtain ⟨earlier, culprit, behind, cut, fine, stuck, blames, lineNo, line⟩ := blamed
            refine ⟨opcode :: earlier, culprit, behind, ?_, ?_, stuck, blames, lineNo, line⟩
            · rw [cut, List.cons_append]
            · simpa using ⟨linkable, fine⟩
      · refine .inr ⟨opcode :: opcodes, ⟨opcode.lineNo.toNat,
          " ".intercalate (opcode.words.map Glyphs.shown), fault⟩, ?_, ?_⟩
        · simp only [Assembly.linkOpcodes, link]
        · exact ⟨[], opcode, opcodes, rfl, by simp, stuck, blames,
            Int.toNat_of_nonneg place.numbered, rfl⟩

end Link

end Assembler
end ReversibleMips
