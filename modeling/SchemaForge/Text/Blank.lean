/-!
White space: the characters with the property of that name in Unicode. A text may be trimmed at its end or at
both ends.
-/

namespace SchemaForge

namespace Text

/-- White space in Unicode's sense. -/
def isBlank (c : Char) : Bool :=
  let n := c.toNat
  (0x9 ≤ n && n ≤ 0xD) || n = 0x20 || n = 0x85 || n = 0xA0 || n = 0x1680 || (0x2000 ≤ n && n ≤ 0x200A) ||
    n = 0x2028 || n = 0x2029 || n = 0x202F || n = 0x205F || n = 0x3000

/-- The text without the white space at its end, as characters. -/
def trimEnd (s : String) : List Char := (s.toList.reverse.dropWhile isBlank).reverse

/-- No character but white space. -/
def allBlank (s : String) : Bool := s.toList.all isBlank

end Text

end SchemaForge
