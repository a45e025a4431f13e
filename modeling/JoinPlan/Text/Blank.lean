/-!
# Blank characters

The characters with the Unicode property `White_Space`, and texts without them.
-/

namespace JoinPlan

namespace Text

/-- The character has the property `White_Space`. -/
def isBlank (c : Char) : Bool :=
  let code := c.toNat
  (0x09 ≤ code && code ≤ 0x0D) || code = 0x20 || code = 0x85 || code = 0xA0 || code = 0x1680 ||
    (0x2000 ≤ code && code ≤ 0x200A) || code = 0x2028 || code = 0x2029 || code = 0x202F ||
    code = 0x205F || code = 0x3000

/-- The characters of a text that are not blank. -/
def withoutBlanks (text : String) : List Char :=
  text.toList.filter (!isBlank ·)

/-- The text without the blanks at either end. -/
def trimBlanks (text : String) : List Char :=
  ((text.toList.dropWhile isBlank).reverse.dropWhile isBlank).reverse

end Text

end JoinPlan
