/-! # Classes of characters

A class is a list of code point ranges, both ends included. -/

namespace RadiusDictionary.Text

/-- Whether the code point of `c` lies in one of the ranges. -/
def inRanges (ranges : List (Nat × Nat)) (c : Char) : Bool :=
  ranges.any fun range => range.1 ≤ c.toNat && c.toNat ≤ range.2

end RadiusDictionary.Text
