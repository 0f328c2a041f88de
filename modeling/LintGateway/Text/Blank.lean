/-!
# Blank characters

Surrounding white space never carries meaning in a label, a suffix or an error stream, so it is cut
away before the text is looked at. A character is blank here when Unicode gives it the property
White_Space or when it is one of the four separator controls U+001C to U+001F; the zero-width space
and the byte order mark are not blank.
-/

set_option autoImplicit false

namespace LintGateway.Text

/-- The blank characters. -/
def isBlank (c : Char) : Bool :=
  let n := c.toNat
  (9 ≤ n && n ≤ 13) || (28 ≤ n && n ≤ 32) || n == 0x85 || n == 0xa0 || n == 0x1680 ||
    (0x2000 ≤ n && n ≤ 0x200a) || n == 0x2028 || n == 0x2029 || n == 0x202f || n == 0x205f ||
    n == 0x3000

/-- The characters left once the blanks at both ends are cut. -/
def trimChars (cs : List Char) : List Char :=
  ((cs.dropWhile isBlank).reverse.dropWhile isBlank).reverse

/-- The text left once the blanks at both ends are cut. -/
def trim (s : String) : String := String.ofList (trimChars s.toList)

/-- A text is blank when nothing is left of it after `trim`. -/
def isBlankText (s : String) : Bool := s.toList.all isBlank

end LintGateway.Text
