import ReversibleMips.Proofs.CleanLoads
import ReversibleMips.Proofs.Relocation

/-!
# Listings

An assembled program is listed line by line, laid out as an image, and looked up by address.
All three agree, because every opcode gets the address that its place in the listing gives, and
the second pass changes neither addresses nor lines.  A line emits at most one opcode, so the
lines of a listing increase.
-/

namespace ReversibleMips

namespace Program

/-- Every opcode stands at the address that its place in the listing gives. -/
def Consecutive (program : Program) : Prop :=
  ∀ index opcode, program.opcodes[index]? = some opcode → opcode.pc.toNat = 4 * index

section Consecutive

variable {program : Program} (consecutive : program.Consecutive)
include consecutive

theorem codes_eq :
    program.codes =
      program.opcodes.mapIdx fun index opcode => (UInt32.ofNat (4 * index), opcode.code) := by
  apply List.ext_getElem?
  intro index
  rw [codes, List.getElem?_map, List.getElem?_mapIdx]
  apply Option.map_congr
  intro opcode found
  rw [← consecutive index opcode found, UInt32.ofNat_toNat]

/-- An opcode is found at the address of its place, and no other is. -/
theorem opcodeAt?_eq_some_iff (pc : UInt32) (opcode : Opcode) :
    program.opcodeAt? pc = some opcode ↔
      ∃ index, program.opcodes[index]? = some opcode ∧ pc.toNat = 4 * index := by
  constructor
  · intro found
    obtain ⟨index, here⟩ := List.getElem?_of_mem (List.mem_of_find?_eq_some found)
    have samePc : opcode.pc = pc := by simpa using List.find?_some found
    exact ⟨index, here, by rw [← samePc, consecutive index opcode here]⟩
  · rintro ⟨index, here, place⟩
    have samePc : opcode.pc = pc := by
      rw [← UInt32.toNat_inj, place, consecutive index opcode here]
    have isFound : (program.opcodeAt? pc).isSome := by
      rw [opcodeAt?, List.find?_isSome]
      exact ⟨opcode, List.mem_of_getElem? here, by simp [samePc]⟩
    obtain ⟨other, found⟩ := Option.isSome_iff_exists.mp isFound
    obtain ⟨otherIndex, otherHere⟩ := List.getElem?_of_mem (List.mem_of_find?_eq_some found)
    have otherPc : other.pc = pc := by simpa using List.find?_some found
    have otherPlace := consecutive otherIndex other otherHere
    rw [otherPc, place] at otherPlace
    have sameIndex : index = otherIndex := by omega
    rw [← sameIndex, here] at otherHere
    rw [found, otherHere]

theorem opcodeAt?_eq_none_iff (pc : UInt32) :
    program.opcodeAt? pc = none ↔ ∀ index < program.opcodes.length, pc.toNat ≠ 4 * index := by
  rw [Option.eq_none_iff_forall_ne_some]
  constructor
  · intro missing index inside place
    exact missing program.opcodes[index] ((opcodeAt?_eq_some_iff consecutive pc _).mpr
      ⟨index, List.getElem?_eq_getElem inside, place⟩)
  · intro elsewhere opcode found
    obtain ⟨index, here, place⟩ := (opcodeAt?_eq_some_iff consecutive pc opcode).mp found
    exact elsewhere index (List.getElem?_eq_some_iff.mp here).1 place

end Consecutive

/-- The bytes of an opcode in the image are those of its code, the most significant first. -/
theorem bytes_image {program : Program} {index : Nat} {opcode : Opcode}
    (here : program.opcodes[index]? = some opcode) :
    ∃ first second third fourth : UInt8,
      (program.image.drop (4 * index)).take 4 = [first, second, third, fourth] ∧
      opcode.code.toNat = first.toNat * 0x1000000 + second.toNat * 0x10000 +
        third.toNat * 0x100 + fourth.toNat := by
  have found : (Image.toWords program.image)[index]? = some opcode.code := by
    simp [image, here]
  refine ⟨_, _, _, _, Image.bytes_of_getElem?_toWords found, ?_⟩
  have bounded := opcode.code.toNat_lt
  simp only [UInt8.toNat_ofNat']
  omega

end Program

namespace Assembler

/-- Opcodes come from increasing lines, up to some line. -/
structure Ascends (lineNo : Nat) (opcodes : List Opcode) : Prop where
  increasing : opcodes.Pairwise fun earlier later => earlier.lineNo < later.lineNo
  reached : ∀ opcode ∈ opcodes, opcode.lineNo ≤ lineNo

theorem Ascends.of_withoutCode {lineNo : Nat} {opcodes linked : List Opcode}
    (ascends : Ascends lineNo opcodes)
    (same : linked.map Opcode.withoutCode = opcodes.map Opcode.withoutCode) :
    Ascends lineNo linked := by
  constructor
  · have increasing : (opcodes.map Opcode.withoutCode).Pairwise
        fun earlier later => earlier.lineNo < later.lineNo :=
      List.pairwise_map.mpr ascends.increasing
    rw [← same, List.pairwise_map] at increasing
    exact increasing
  · have reached : ∀ opcode ∈ opcodes.map Opcode.withoutCode, opcode.lineNo ≤ lineNo :=
      List.forall_mem_map.mpr ascends.reached
    rw [← same, List.forall_mem_map] at reached
    exact reached

namespace Assembly

theorem ascends_readLine {assembly next : Assembly} {lineNo : Nat} {line : Glyphs}
    (ascends : Ascends lineNo assembly.opcodes.toList)
    (read : assembly.readLine (lineNo + 1) line = (next, none)) :
    Ascends (lineNo + 1) next.opcodes.toList := by
  have before : ∀ opcode ∈ assembly.opcodes.toList, opcode.lineNo < (lineNo + 1 : Nat) := by
    intro opcode member
    have reached := ascends.reached opcode member
    omega
  rcases emits_readLine read with same | ⟨words, op, arguments, opcode, -, emits, pushed⟩
  · rw [same]
    exact ⟨ascends.increasing, fun opcode member => Int.le_of_lt (before opcode member)⟩
  · rw [pushed, Array.toList_push]
    constructor
    · rw [List.pairwise_append]
      refine ⟨ascends.increasing, List.pairwise_singleton _ _, ?_⟩
      intro earlier member later isLast
      rw [List.mem_singleton.mp isLast, emits.lineNo_eq]
      exact before earlier member
    · intro earlier member
      rcases List.mem_append.mp member with old | isLast
      · exact Int.le_of_lt (before earlier old)
      · obtain rfl := List.mem_singleton.mp isLast
        exact Int.le_of_eq emits.lineNo_eq

theorem ascends_readLines {assembly final : Assembly} {lineNo : Nat} {previous : Glyphs}
    {lines : List Glyphs} (ascends : Ascends lineNo assembly.opcodes.toList)
    (read : assembly.readLines lineNo previous lines = (final, none)) :
    Ascends (lineNo + lines.length) final.opcodes.toList := by
  induction lines generalizing assembly lineNo previous with
  | nil =>
      cases read
      exact ascends
  | cons raw lines ih =>
      obtain ⟨next, -, first, later⟩ := readLines_cons_ok read
      have behind := ih (ascends_readLine ascends first) later
      rwa [Nat.add_assoc, Nat.add_comm 1] at behind

end Assembly

section Source

variable {predefined : Definitions} {source : Glyphs}
    (assembles : (assemble predefined source).2 = none)
include assembles

/-- The second pass keeps everything but codes. -/
theorem withoutCode_assemble :
    (assemble predefined source).1.program.opcodes.map Opcode.withoutCode =
      (firstPass predefined source).1.opcodes.toList.map Opcode.withoutCode := by
  have same := withoutCode_linkOpcodes (firstPass predefined source).1.labels
    (firstPass predefined source).1.opcodes.toList
  rw [(links_of_assemble assembles).2] at same
  exact same

theorem ascends_assemble :
    Ascends source.lines.length (assemble predefined source).1.program.opcodes := by
  have start : Ascends 0 (Assembly.start predefined).opcodes.toList :=
    ⟨.nil, by simp [Assembly.start]⟩
  have first := Assembly.ascends_readLines start
    (readLines_firstPass (passes_of_assemble assembles))
  rw [Nat.zero_add] at first
  exact first.of_withoutCode (withoutCode_assemble assembles)

theorem consecutive_assemble
    (fits : (assemble predefined source).1.program.opcodes.length < 0x40000000) :
    (assemble predefined source).1.program.Consecutive := by
  intro index opcode here
  have same := congrArg (fun opcodes => opcodes[index]?) (withoutCode_assemble assembles)
  simp only [List.getElem?_map, here, Option.map_some] at same
  obtain ⟨earlier, found, sameOpcode⟩ := Option.map_eq_some_iff.mp same.symm
  have firstFits : (firstPass predefined source).1.opcodes.size < 0x40000000 := by
    rw [← size_assemble assembles]
    simpa [Assembly.program] using fits
  have place := pc_firstPass (passes_of_assemble assembles) firstFits
    (by simpa using found : (firstPass predefined source).1.opcodes[index]? = some earlier)
  change opcode.withoutCode.pc.toNat = 4 * index
  rw [← sameOpcode]
  exact place

end Source

/-- The addresses, the listing and the image of an assembled program agree.  Opcodes stand at
consecutive words, and come from increasing lines.  The image has four bytes for each of them,
which are its code.  An address has an opcode if it is the address of its place, and none
otherwise. -/
theorem listing_agrees {predefined : Definitions} {source : Glyphs}
    (assembles : (assemble predefined source).2 = none)
    (fits : (assemble predefined source).1.program.opcodes.length < 0x40000000) :
    let program := (assemble predefined source).1.program
    (∀ index opcode, program.opcodes[index]? = some opcode → opcode.pc.toNat = 4 * index) ∧
    program.opcodes.Pairwise (fun earlier later => earlier.lineNo < later.lineNo) ∧
    program.codes =
      program.opcodes.mapIdx (fun index opcode => (UInt32.ofNat (4 * index), opcode.code)) ∧
    program.image.length = 4 * program.opcodes.length ∧
    (∀ index opcode, program.opcodes[index]? = some opcode →
      ∃ first second third fourth : UInt8,
        (program.image.drop (4 * index)).take 4 = [first, second, third, fourth] ∧
        opcode.code.toNat = first.toNat * 0x1000000 + second.toNat * 0x10000 +
          third.toNat * 0x100 + fourth.toNat) ∧
    (∀ pc opcode, program.opcodeAt? pc = some opcode ↔
      ∃ index, program.opcodes[index]? = some opcode ∧ pc.toNat = 4 * index) ∧
    ∀ pc, program.opcodeAt? pc = none ↔
      ∀ index < program.opcodes.length, pc.toNat ≠ 4 * index := by
  intro program
  have consecutive := consecutive_assemble assembles fits
  refine ⟨consecutive, (ascends_assemble assembles).increasing, Program.codes_eq consecutive, ?_,
    fun index opcode here => Program.bytes_image here,
    Program.opcodeAt?_eq_some_iff consecutive, Program.opcodeAt?_eq_none_iff consecutive⟩
  rw [Program.image, Image.length_ofWords, List.length_map]

/-- A branch and two data, with labels, an equate, a comment and blank lines between them. -/
def scattered : Glyphs :=
  Glyphs.ofString
    "; first\n.equ SEVEN 7\nstart: bne $1, $0, end\n\nmiddle:\n.word SEVEN\n\nend: .word start"

theorem listing_agrees_scattered :
    let program := (assemble [] scattered).1.program
    (assemble [] scattered).2 = none ∧ program.opcodes.length < 0x40000000 ∧
      program.opcodes.map Opcode.lineNo = [3, 6, 8] ∧
      program.codes = [(0, 0x14200001), (4, 7), (8, 0)] ∧
      program.image = [0x14, 0x20, 0, 1, 0, 0, 0, 7, 0, 0, 0, 0] ∧
      (program.opcodeAt? 4).isSome ∧ program.opcodeAt? 2 = none ∧ program.opcodeAt? 12 = none := by
  obtain ⟨assembles, length, lines, codes, image⟩ :
      (assemble [] scattered).2 = none ∧
        (assemble [] scattered).1.program.opcodes.length = 3 ∧
        (assemble [] scattered).1.program.opcodes.map Opcode.lineNo = [3, 6, 8] ∧
        (assemble [] scattered).1.program.codes = [(0, 0x14200001), (4, 7), (8, 0)] ∧
        (assemble [] scattered).1.program.image = [0x14, 0x20, 0, 1, 0, 0, 0, 7, 0, 0, 0, 0] := by
    decide +kernel
  have fits : (assemble [] scattered).1.program.opcodes.length < 0x40000000 := by
    rw [length]
    decide
  obtain ⟨-, -, -, -, -, present, absent⟩ := listing_agrees assembles fits
  refine ⟨assembles, fits, lines, codes, image, ?_, ?_, ?_⟩
  · have inside : 1 < (assemble [] scattered).1.program.opcodes.length := by
      rw [length]
      decide
    rw [(present 4 _).mpr ⟨1, List.getElem?_eq_getElem inside, rfl⟩]
    rfl
  · refine (absent 2).mpr ?_
    intro index _ place
    have two : 2 = 4 * index := place
    omega
  · refine (absent 12).mpr ?_
    intro index inside place
    have twelve : 12 = 4 * index := place
    rw [length] at inside
    omega

end Assembler
end ReversibleMips
