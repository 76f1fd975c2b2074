namespace ScriptPool.Text

/-- A list of closed ranges of code points. -/
abbrev Ranges := List (Nat × Nat)

/-- Whether a code point lies in one of the ranges. -/
def Ranges.contains (ranges : Ranges) (code : Nat) : Bool :=
  ranges.any fun range => range.1 ≤ code && code ≤ range.2

/-- The code points of the Unicode property `White_Space`. -/
def blankRanges : Ranges :=
  [(0x9, 0xd), (0x20, 0x20), (0x85, 0x85), (0xa0, 0xa0), (0x1680, 0x1680), (0x2000, 0x200a),
    (0x2028, 0x2029), (0x202f, 0x202f), (0x205f, 0x205f), (0x3000, 0x3000)]

/-- A blank character separates words and is trimmed from the ends of a text. -/
def isBlank (c : Char) : Bool :=
  blankRanges.contains c.toNat

theorem isBlank_space : isBlank ' ' = true := by decide

/-- A decimal digit of the ASCII range. -/
def isDigit (c : Char) : Bool :=
  '0' ≤ c && c ≤ '9'

end ScriptPool.Text
