/-!
# Numerals

The forms in which the simulator writes numbers: words in hexadecimal or binary
at full width, decimal numbers with their thousands set apart, and the padding
of texts into columns.
-/

namespace ReversibleMips
namespace Text

/-- The digits of a number, filled with zeros on the left up to a least
width. -/
def digits (base width number : Nat) : List Char :=
  let written := Nat.toDigits base number
  List.replicate (width - written.length) '0' ++ written

/-- Hexadecimal without padding, such as `0xabcc`. -/
def hex (number : Nat) : String :=
  "0x" ++ String.ofList (digits 16 1 number)

/-- Hexadecimal with eight digits, such as `0x0000abcc`. -/
def hexWord (number : Nat) : String :=
  "0x" ++ String.ofList (digits 16 8 number)

def binaryWord (number : Nat) : String :=
  String.ofList (digits 2 32 number)

def decimal (width number : Nat) : String :=
  String.ofList (digits 10 width number)

/-- Set a comma after every third character that others follow. -/
def commaEveryThird : List Char → List Char
  | first :: second :: third :: fourth :: rest =>
      first :: second :: third :: ',' :: commaEveryThird (fourth :: rest)
  | short => short

/-- Decimal with a comma between groups of thousands, such as `1,234`. -/
def grouped (number : Nat) : String :=
  String.ofList (commaEveryThird (Nat.toDigits 10 number).reverse).reverse

def padRight (width : Nat) (text : String) : String :=
  text ++ String.ofList (List.replicate (width - text.length) ' ')

end Text
end ReversibleMips
