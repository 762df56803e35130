/-!
# Blank space

The characters with the Unicode property `White_Space`, and texts without those at their ends.
-/
namespace Switchboard.Text

/-- Blank characters, as ranges of code points. -/
def blankRanges : List (Nat × Nat) :=
  [(0x9, 0xD), (0x20, 0x20), (0x85, 0x85), (0xA0, 0xA0), (0x1680, 0x1680), (0x2000, 0x200A),
   (0x2028, 0x2029), (0x202F, 0x202F), (0x205F, 0x205F), (0x3000, 0x3000)]

/-- Whether a code point lies in one of the ranges. -/
def inRanges (ranges : List (Nat × Nat)) (n : Nat) : Bool :=
  ranges.any fun r => r.1 ≤ n && n ≤ r.2

/-- Whether a character is blank. -/
def isBlank (c : Char) : Bool := inRanges blankRanges c.toNat

/-- The characters from the first to the last that is not blank. -/
def trimBlank (cs : List Char) : List Char :=
  ((cs.dropWhile isBlank).reverse.dropWhile isBlank).reverse

/-- The text without blank characters at its ends. -/
def trim (s : String) : String := String.ofList (trimBlank s.toList)

/-- Whether a text has no other than blank characters. -/
def isBlankText (s : String) : Bool := s.toList.all isBlank

end Switchboard.Text
