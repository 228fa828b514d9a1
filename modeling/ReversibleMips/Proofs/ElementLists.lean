import ReversibleMips.CommandLine.Elements
import ReversibleMips.Proofs.IntegerLiterals

/-!
# Element lists on the command line

A list of elements is written as items with commas between them.  An item is blank and lists
nothing, or it is an integer literal with blanks around it.  Whatever way of writing is chosen,
the elements that are read are those that were written.  The first item that is neither blank
nor the literal of an element stops the reading, and what was read until then is kept.
-/

namespace ReversibleMips

namespace Text

theorem Literal.notBlank {text : List Char} {value : Int} (literal : Literal text value)
    {char : Char} (member : char ∈ text) : isBlank char = false := by
  rcases literal.plain member with rfl | rfl | rfl | alphanumeric
  · rfl
  · rfl
  · rfl
  · exact isBlank_of_isAlphanum alphanumeric

theorem Literal.comma_notMem {text : List Char} {value : Int} (literal : Literal text value) :
    ',' ∉ text := by
  intro member
  rcases literal.plain member with same | same | same | same <;> cases same

/-- What is shown as a literal has no stray bytes. -/
theorem Literal.eq_ofChars {text : Glyphs} {value : Int} (literal : Literal text.chars value) :
    text = .ofChars text.chars := by
  apply Glyphs.eq_ofChars
  intro member
  rcases literal.plain member with same | same | same | same <;> cases same

end Text

namespace Glyphs

/-- A text of nothing but white space. -/
def Blank (text : Glyphs) : Prop := ∀ glyph ∈ text, glyph.isBlank = true

theorem Blank.comma_notMem {text : Glyphs} (blank : Blank text) : .char ',' ∉ text :=
  fun member => absurd (blank (.char ',') member) (by decide)

/-- An item is a text with blanks around it. -/
def Surrounds (item text : Glyphs) : Prop :=
  ∃ front back, Blank front ∧ Blank back ∧ item = front ++ text ++ back

theorem surrounds_trim (item : Glyphs) : Surrounds item item.trim := by
  let behind := item.dropWhile Glyph.isBlank
  refine ⟨item.takeWhile Glyph.isBlank, (behind.reverse.takeWhile Glyph.isBlank).reverse, ?_, ?_,
    ?_⟩
  · exact List.all_eq_true.mp List.all_takeWhile
  · intro glyph member
    exact List.all_eq_true.mp List.all_takeWhile glyph (List.mem_reverse.mp member)
  · have kept : item.trim ++ (behind.reverse.takeWhile Glyph.isBlank).reverse = behind := by
      rw [trim, Text.trimBoth, ← List.reverse_append, List.takeWhile_append_dropWhile,
        List.reverse_reverse]
    rw [List.append_assoc, kept, List.takeWhile_append_dropWhile]

theorem trim_eq_nil_iff {item : Glyphs} : item.trim = [] ↔ Blank item := by
  constructor
  · intro empty glyph member
    obtain ⟨front, back, before, behind, whole⟩ := surrounds_trim item
    rw [whole, empty, List.append_nil] at member
    rcases List.mem_append.mp member with early | late
    · exact before glyph early
    · exact behind glyph late
  · intro blank
    have all : (item ++ []).dropWhile Glyph.isBlank = [] := List.dropWhile_append_of_pos blank
    rw [List.append_nil] at all
    rw [trim, Text.trimBoth, all]
    rfl

/-- Both ends of a text without blanks stop the trimming. -/
theorem trim_of_surrounds {item text : Glyphs} (around : Surrounds item text) (present : text ≠ [])
    (solid : ∀ glyph ∈ text, glyph.isBlank = false) : item.trim = text := by
  obtain ⟨front, back, before, behind, rfl⟩ := around
  have stops {rest glyphs : Glyphs} (present : glyphs ≠ [])
      (inside : ∀ glyph ∈ glyphs, glyph.isBlank = false) :
      (glyphs ++ rest).dropWhile Glyph.isBlank = glyphs ++ rest := by
    obtain ⟨first, others, rfl⟩ := List.exists_cons_of_ne_nil present
    rw [List.cons_append, List.dropWhile_cons_of_neg (by simp [inside first List.mem_cons_self])]
  have backwards : ∀ glyph ∈ back.reverse, glyph.isBlank = true :=
    fun glyph member => behind glyph (List.mem_reverse.mp member)
  have reversed : ∀ glyph ∈ text.reverse, glyph.isBlank = false :=
    fun glyph member => solid glyph (List.mem_reverse.mp member)
  have last := @stops [] text.reverse (by simpa using present) reversed
  rw [List.append_nil] at last
  rw [trim, Text.trimBoth, List.append_assoc, List.dropWhile_append_of_pos before,
    stops present solid, List.reverse_append, List.dropWhile_append_of_pos backwards, last,
    List.reverse_reverse]

theorem trim_of_literal {item : Glyphs} {numeral : List Char} {value : Int}
    (around : Surrounds item (.ofChars numeral)) (literal : Text.Literal numeral value) :
    item.trim = .ofChars numeral := by
  apply trim_of_surrounds around
  · simpa [ofChars] using literal.ne_nil
  · intro glyph member
    obtain ⟨char, inside, rfl⟩ := List.mem_map.mp member
    exact literal.notBlank inside

end Glyphs

namespace CommandLine

open Text Glyphs

/-- What the items of a list are, and the elements that they list.  An item is blank, or the
literal of the next element with blanks around it. -/
inductive Lists : List Glyphs → List Int32 → Prop
  | nil : Lists [] []
  | blank {item : Glyphs} {items : List Glyphs} {elements : List Int32}
      (blank : Blank item) (rest : Lists items elements) : Lists (item :: items) elements
  | element {item : Glyphs} {numeral : List Char} {items : List Glyphs} {element : Int32}
      {elements : List Int32} (around : Surrounds item (.ofChars numeral))
      (literal : Literal numeral element.toInt) (rest : Lists items elements) :
      Lists (item :: items) (element :: elements)

/-- An item that is not blank, and not the literal of an element with blanks around it. -/
def Refused (item : Glyphs) : Prop :=
  ¬ Blank item ∧ ∀ numeral value, Surrounds item (.ofChars numeral) → Literal numeral value →
    ¬ FitsInt32 value

def listed (items : List Glyphs) : List Int32 × Option ElementError :=
  elementsOf ((items.map trim).filter fun item => !item.isEmpty)

theorem fitsInt32_toInt (element : Int32) : FitsInt32 element.toInt :=
  ⟨element.le_toInt, element.toInt_lt⟩

theorem toInt_ofInt {value : Int} (fits : FitsInt32 value) : (Int32.ofInt value).toInt = value :=
  Int32.toInt_ofInt_of_le fits.1 fits.2

theorem listed_blank {item : Glyphs} (blank : Blank item) (items : List Glyphs) :
    listed (item :: items) = listed items := by
  simp [listed, trim_eq_nil_iff.mpr blank]

section Nonblank

variable {item : Glyphs} (nonblank : ¬ Blank item) (items : List Glyphs)
include nonblank

theorem listed_of_nonblank :
    listed (item :: items) =
      elementsOf (trim item :: (items.map trim).filter fun item => !item.isEmpty) := by
  have kept : trim item ≠ [] := fun empty => nonblank (trim_eq_nil_iff.mp empty)
  simp [listed, kept]

theorem listed_of_ok {value : Int} (read : readInt 32 (trim item).chars = .ok value) :
    listed (item :: items) = (Int32.ofInt value :: (listed items).1, (listed items).2) := by
  rw [listed_of_nonblank nonblank, elementsOf, read]
  rfl

theorem listed_of_error {error : LiteralError} (read : readInt 32 (trim item).chars = .error error) :
    listed (item :: items) = ([], some ⟨trim item, error⟩) := by
  rw [listed_of_nonblank nonblank, elementsOf, read]

end Nonblank

theorem notBlank_of_surrounds {item : Glyphs} {numeral : List Char} {value : Int}
    (around : Surrounds item (.ofChars numeral)) (literal : Literal numeral value) : ¬ Blank item := by
  intro blank
  have empty := trim_eq_nil_iff.mpr blank
  rw [trim_of_literal around literal] at empty
  exact literal.ne_nil (List.map_eq_nil_iff.mp empty)

theorem surrounds_of_literal {item : Glyphs} {value : Int}
    (literal : Literal (trim item).chars value) :
    Surrounds item (.ofChars (trim item).chars) := by
  rw [← literal.eq_ofChars]
  exact surrounds_trim item

/-- What items list comes in front of what is read behind them. -/
theorem Lists.listed_append {items : List Glyphs} {elements : List Int32}
    (lists : Lists items elements) (rest : List Glyphs) :
    listed (items ++ rest) = (elements ++ (listed rest).1, (listed rest).2) := by
  induction lists with
  | nil => rfl
  | blank blank _ ih => rw [List.cons_append, listed_blank blank, ih]
  | @element item numeral items element elements around literal _ ih =>
      have read : readInt 32 (trim item).chars = .ok element.toInt := by
        rw [trim_of_literal around literal, chars_ofChars]
        exact readInt_eq_ok_iff.mpr ⟨literal, fitsInt32_toInt element⟩
      rw [List.cons_append, listed_of_ok (notBlank_of_surrounds around literal) _ read, ih,
        Int32.ofInt_toInt]
      rfl

theorem refused_of_error {item : Glyphs} {error : LiteralError} (nonblank : ¬ Blank item)
    (read : readInt 32 (trim item).chars = .error error) : Refused item := by
  refine ⟨nonblank, ?_⟩
  intro numeral value around literal fits
  rw [trim_of_literal around literal, chars_ofChars,
    readInt_eq_ok_iff.mpr ⟨literal, fits⟩] at read
  cases read

/-- A refused item is reported, and it is out of range if it is a literal at all. -/
theorem Refused.listed_eq {item : Glyphs} (refused : Refused item)
    (rest : List Glyphs) :
    ∃ error, readInt 32 (trim item).chars = .error error ∧
      ((∃ value, Literal (trim item).chars value) → error = .outOfRange) ∧
      listed (item :: rest) = ([], some ⟨trim item, error⟩) := by
  obtain ⟨nonblank, outside⟩ := refused
  cases read : readInt 32 (trim item).chars with
  | ok value =>
      obtain ⟨literal, fits⟩ := readInt_eq_ok_iff.mp read
      exact absurd fits (outside _ _ (surrounds_of_literal literal) literal)
  | error error =>
      refine ⟨error, rfl, ?_, listed_of_error nonblank rest read⟩
      rintro ⟨value, literal⟩
      rw [readInt_of_literal literal,
        if_neg (outside _ _ (surrounds_of_literal literal) literal)] at read
      exact (Except.error.inj read).symm

/-- Items either list elements throughout, or there is a first one that is refused. -/
theorem lists_or_refused (items : List Glyphs) :
    (∃ elements, Lists items elements) ∨
      ∃ front item back elements, items = front ++ item :: back ∧ Lists front elements ∧
        Refused item := by
  induction items with
  | nil => exact .inl ⟨[], .nil⟩
  | cons item items ih =>
      by_cases blank : Blank item
      · rcases ih with ⟨elements, lists⟩ | ⟨front, first, back, elements, rfl, lists, refused⟩
        · exact .inl ⟨elements, .blank blank lists⟩
        · exact .inr ⟨item :: front, first, back, elements, rfl, .blank blank lists, refused⟩
      · cases read : readInt 32 (trim item).chars with
        | error error =>
            exact .inr ⟨[], item, items, [], rfl, .nil, refused_of_error blank read⟩
        | ok value =>
            obtain ⟨literal, fits⟩ := readInt_eq_ok_iff.mp read
            rw [← toInt_ofInt fits] at literal
            have around := surrounds_of_literal literal
            rcases ih with ⟨elements, lists⟩ | ⟨front, first, back, elements, rfl, lists, refused⟩
            · exact .inl ⟨_, .element around literal lists⟩
            · exact .inr
                ⟨item :: front, first, back, _, rfl, .element around literal lists, refused⟩

theorem Lists.not_refused {items : List Glyphs} {elements : List Int32}
    (lists : Lists items elements) {item : Glyphs} (member : item ∈ items) :
    ¬ Refused item := by
  induction lists with
  | nil => cases member
  | blank blank _ ih =>
      rcases List.mem_cons.mp member with rfl | later
      · exact fun refused => refused.1 blank
      · exact ih later
  | element around literal _ ih =>
      rcases List.mem_cons.mp member with rfl | later
      · exact fun refused => refused.2 _ _ around literal (fitsInt32_toInt _)
      · exact ih later

theorem comma_notMem_of_surrounds {item : Glyphs} {numeral : List Char} {value : Int}
    (around : Surrounds item (.ofChars numeral)) (literal : Literal numeral value) : Glyph.char ',' ∉ item := by
  obtain ⟨front, back, before, behind, rfl⟩ := around
  simp only [List.mem_append, not_or]
  refine ⟨⟨before.comma_notMem, fun member => ?_⟩, behind.comma_notMem⟩
  obtain ⟨char, inside, same⟩ := List.mem_map.mp member
  cases same
  exact literal.comma_notMem inside

theorem Lists.comma_notMem {items : List Glyphs} {elements : List Int32}
    (lists : Lists items elements) : ∀ item ∈ items, Glyph.char ',' ∉ item := by
  induction lists with
  | nil => simp
  | blank blank _ ih => exact List.forall_mem_cons.mpr ⟨blank.comma_notMem, ih⟩
  | element around literal _ ih =>
      exact List.forall_mem_cons.mpr ⟨comma_notMem_of_surrounds around literal, ih⟩

def joined (items : List Glyphs) : Glyphs := [.char ','].intercalate items

theorem parseElements_joined {items : List Glyphs} (whole : ∀ item ∈ items, Glyph.char ',' ∉ item) :
    parseElements (joined items) = listed items := by
  cases items with
  | nil => rfl
  | cons item items =>
      rw [parseElements, joined, splitOn_intercalate whole]
      rfl

/-- Every text is its items with commas between them. -/
theorem exists_joined (text : Glyphs) :
    ∃ items, (∀ item ∈ items, Glyph.char ',' ∉ item) ∧ joined items = text :=
  ⟨splitOn (.char ',') text, fun _ => notMem_of_mem_splitOn, intercalate_splitOn _ text⟩

/-- Element lists survive the command line.  Elements that are written as literals, such as those
in decimal or in hexadecimal with a sign, with any blanks around them and with any blank items
between them, are read back without an error.  Every text consists of items without commas.  If
some of them are neither blank nor literals of elements, then the first of these is reported, as
out of range if it is a literal at all, together with exactly the elements of the items before
it. -/
theorem element_lists_survive :
    (∀ number : Int, Literal (toString number).toList number ∧
      Literal (signedHex number) number) ∧
    (∀ items elements, Lists items elements →
      parseElements (joined items) = (elements, none)) ∧
    (∀ text : Glyphs, ∃ items, (∀ item ∈ items, Glyph.char ',' ∉ item) ∧ joined items = text) ∧
    ∀ items, (∀ item ∈ items, Glyph.char ',' ∉ item) → (∃ item ∈ items, Refused item) →
      ∃ front item back elements error, items = front ++ item :: back ∧
        Lists front elements ∧ Refused item ∧ readInt 32 (trim item).chars = .error error ∧
        ((∃ value, Literal (trim item).chars value) → error = .outOfRange) ∧
        parseElements (joined items) = (elements, some ⟨trim item, error⟩) := by
  refine ⟨fun number => ⟨literal_decimal number, literal_signedHex number⟩, ?_, exists_joined, ?_⟩
  · intro items elements lists
    have read := lists.listed_append []
    rw [List.append_nil] at read
    rw [parseElements_joined lists.comma_notMem, read, listed, List.map_nil, List.filter_nil,
      elementsOf, List.append_nil]
  · rintro items whole ⟨refusedItem, member, isRefused⟩
    rcases lists_or_refused items with ⟨elements, lists⟩ | first
    · exact absurd isRefused (lists.not_refused member)
    · obtain ⟨front, item, back, elements, rfl, lists, refused⟩ := first
      obtain ⟨error, read, reported, stops⟩ := refused.listed_eq back
      refine ⟨front, item, back, elements, error, rfl, lists, refused, read, reported, ?_⟩
      rw [parseElements_joined whole, lists.listed_append, stops, List.append_nil]

/-- The least and the greatest element in hexadecimal and in decimal, between blank items. -/
def extremeItems : List Glyphs :=
  [" -0x80000000", "\t", "2147483647\u00a0", ""].map Glyphs.ofString

/-- An element, a blank item, a number that is too large, and a byte that is no character. -/
def largeItems : List Glyphs :=
  ["-0x7f", " ", " 3000000000"].map Glyphs.ofString ++ [[.stray 0xff]]

theorem element_lists_survive_extremes :
    parseElements (joined extremeItems) = ([Int32.minValue, Int32.maxValue], none) ∧
      parseElements (joined largeItems) =
        ([-127], some ⟨.ofString "3000000000", .outOfRange⟩) ∧
      ∃ front item back, largeItems = front ++ item :: back ∧ Lists front [-127] ∧
        Refused item ∧ trim item = .ofString "3000000000" := by
  obtain ⟨written, listing, -, reporting⟩ := element_lists_survive
  have least : Literal "-0x80000000".toList Int32.minValue.toInt := by
    have literal := (written Int32.minValue.toInt).2
    rwa [show signedHex Int32.minValue.toInt = "-0x80000000".toList by decide +kernel] at literal
  have greatest : Literal "2147483647".toList Int32.maxValue.toInt :=
    (written Int32.maxValue.toInt).1
  have lists : Lists extremeItems [Int32.minValue, Int32.maxValue] := by
    refine .element ⟨[.char ' '], [], ?_, ?_, rfl⟩ least (.blank ?_
      (.element ⟨[], [.char '\u00a0'], ?_, ?_, rfl⟩ greatest (.blank ?_ .nil)))
    all_goals simp [Blank, ofString, ofChars, Glyph.isBlank, isBlank]
  have large : Refused (.ofString " 3000000000") := by
    have nonblank : ¬ Blank (.ofString " 3000000000") := fun blank =>
      absurd (blank (.char '3') (by decide)) (by decide)
    exact @refused_of_error _ .outOfRange nonblank rfl
  have read : parseElements (joined largeItems) =
      ([-127], some ⟨.ofString "3000000000", .outOfRange⟩) := by decide +kernel
  obtain ⟨front, item, back, elements, error, split, before, refused, -, -, parsed⟩ :=
    reporting largeItems (by decide) ⟨.ofString " 3000000000", by simp [largeItems], large⟩
  rw [read, Prod.mk.injEq, Option.some.injEq, ElementError.mk.injEq] at parsed
  obtain ⟨rfl, word, -⟩ := parsed
  exact ⟨listing _ _ lists, read, front, item, back, split, before, refused, word.symm⟩

end CommandLine
end ReversibleMips
