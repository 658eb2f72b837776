/-! Character properties given as lists of code point ranges, both ends included. -/

namespace ShadowCheck.Text

abbrev Ranges := List (Nat × Nat)

def Ranges.covers (ranges : Ranges) (c : Char) : Bool :=
  ranges.any fun range => range.1 ≤ c.toNat && c.toNat ≤ range.2

def isAscii (c : Char) : Bool :=
  c.toNat < 0x80

end ShadowCheck.Text
