import ShadowCheck.Text.Range

/-! White space in the sense of the Unicode property White_Space. -/

namespace ShadowCheck.Text

def blankRanges : Ranges :=
  [ (0x9, 0xD), (0x20, 0x20),
    (0x85, 0x85), (0xA0, 0xA0), (0x1680, 0x1680), (0x2000, 0x200A), (0x2028, 0x2029),
    (0x202F, 0x202F), (0x205F, 0x205F), (0x3000, 0x3000)
  ]

def isBlank (c : Char) : Bool :=
  blankRanges.covers c

def trimRight (text : List Char) : List Char :=
  (text.reverse.dropWhile isBlank).reverse

theorem isBlank_of_isWhitespace {c : Char} (h : c.isWhitespace) : isBlank c := by
  simp only [Char.isWhitespace, Bool.or_eq_true, decide_eq_true_eq] at h
  rcases h with ((rfl | rfl) | rfl) | rfl <;> rfl

end ShadowCheck.Text
