import GoSchema.Text.CodeRange

/-! # Blanks

A blank is a character with the Unicode property White_Space. U+00A0 is one; U+FEFF and U+200B
are not.
-/

namespace GoSchema.Text

/-- Code points of the blanks, ascending. -/
def blankRanges : CodeRanges :=
  [(0x9, 0xD), (0x20, 0x20), (0x85, 0x85), (0xA0, 0xA0), (0x1680, 0x1680), (0x2000, 0x200A),
   (0x2028, 0x2029), (0x202F, 0x202F), (0x205F, 0x205F), (0x3000, 0x3000)]

def isBlankChar (c : Char) : Bool :=
  blankRanges.contains c

/-- Is every character of `text` a blank? The empty text is blank. -/
def isBlank (text : String) : Bool :=
  text.toList.all isBlankChar

def trim (text : String) : String :=
  String.ofList (((text.toList.dropWhile isBlankChar).reverse.dropWhile isBlankChar).reverse)

end GoSchema.Text
