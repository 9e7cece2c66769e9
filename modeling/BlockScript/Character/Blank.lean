import BlockScript.Character.Range

/-!
# Blank characters

The characters with the Unicode property `White_Space`.

* `isBlank`: the character is blank.
* `trimBlank`: a text without the blanks at its two ends.
-/

namespace BlockScript.Character

/-- The blank code points. -/
def blankRanges : List Range :=
  [(0x9, 0xD), (0x20, 0x20), (0x85, 0x85), (0xA0, 0xA0), (0x1680, 0x1680), (0x2000, 0x200A),
   (0x2028, 0x2029), (0x202F, 0x202F), (0x205F, 0x205F), (0x3000, 0x3000)]

/-- The character is blank. -/
def isBlank (c : Char) : Bool :=
  Range.covers blankRanges c.toNat

/-- The text without the blanks at its end. -/
def trimBlankRight (cs : List Char) : List Char :=
  (cs.reverse.dropWhile isBlank).reverse

/-- The text without the blanks at its two ends. -/
def trimBlank (cs : List Char) : List Char :=
  trimBlankRight (cs.dropWhile isBlank)

end BlockScript.Character
