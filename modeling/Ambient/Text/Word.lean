import Ambient.Text.Alphabetic
import Ambient.Text.Mark
import Ambient.Text.Numeric

/-!
# Word characters and word boundaries

A word character is a letter, a combining mark, a decimal digit, a connector
such as `_`, or one of the two join controls.  Words are those of Unicode 16:
what became a letter, mark or digit only later belongs to none.  A word boundary
stands between two neighbours of which exactly one is a word character; the end
of the text counts as a neighbour that is none.
-/

namespace Ambient.Text

/-- The ranges of the category Pc, connecting punctuation. -/
def connectorRanges : List (Nat × Nat) :=
  [(0x005F, 0x005F), (0x203F, 0x2040), (0x2054, 0x2054), (0xFE33, 0xFE34), (0xFE4D, 0xFE4F),
   (0xFF3F, 0xFF3F)]

def joinControlRanges : List (Nat × Nat) :=
  [(0x200C, 0x200D)]

/-- The ranges of the letters, marks and digits that are new in Unicode 17. -/
def recentRanges : List (Nat × Nat) :=
  [(0x088F, 0x088F), (0x0C5C, 0x0C5C), (0x0CDC, 0x0CDC), (0x1ACF, 0x1ADD), (0x1AE0, 0x1AEB),
   (0xA7CE, 0xA7CF), (0xA7D2, 0xA7D2), (0xA7D4, 0xA7D4), (0xA7F1, 0xA7F1), (0x10940, 0x10959),
   (0x10EC5, 0x10EC7), (0x10EFA, 0x10EFB), (0x11B60, 0x11B67), (0x11DB0, 0x11DDB),
   (0x11DE0, 0x11DE9), (0x16EA0, 0x16EB8), (0x16EBB, 0x16ED3), (0x16FF2, 0x16FF6),
   (0x187F8, 0x187FF), (0x18D09, 0x18D1E), (0x18D80, 0x18DF2), (0x1E6C0, 0x1E6DE),
   (0x1E6E0, 0x1E6F5), (0x1E6FE, 0x1E6FF), (0x2B73A, 0x2B73F), (0x2CEA2, 0x2CEAD),
   (0x323B0, 0x33479)]

def isWordChar (c : Char) : Bool :=
  (isAlphabetic c || isMark c || isDecimalDigit c ||
    inRanges connectorRanges c.toNat || inRanges joinControlRanges c.toNat) &&
  !inRanges recentRanges c.toNat

/-- Whether a letter or number of some script. -/
def isAlphanumeric (c : Char) : Bool :=
  isAlphabetic c || isNumeric c

/-- Whether a neighbour, which is absent at either end of a text, belongs to words. -/
def isWordSide : Option Char → Bool
  | none => false
  | some c => isWordChar c

/-- Whether a word starts or ends between two neighbours. -/
def isWordBoundary (before after : Option Char) : Bool :=
  isWordSide before != isWordSide after

end Ambient.Text
