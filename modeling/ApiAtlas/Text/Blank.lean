/-!
# Blank characters

The characters that count as white space in text: those with a white-space,
block-separator or segment-separator direction and the space separators.
Trimming removes them from both ends of a text, and a line that holds nothing
else is blank.
-/

namespace ApiAtlas.Text

/-- Whether a character is white space. -/
def isBlank (c : Char) : Bool :=
  let n := c.toNat
  (9 ≤ n && n ≤ 13) || (28 ≤ n && n ≤ 32) || n == 0x85 || n == 0xA0 ||
    n == 0x1680 || (0x2000 ≤ n && n ≤ 0x200A) || n == 0x2028 ||
    n == 0x2029 || n == 0x202F || n == 0x205F || n == 0x3000

/-- The characters after the leading ones that satisfy a test. -/
def dropLeading (test : Char → Bool) (text : List Char) : List Char :=
  text.dropWhile test

/-- The characters before the trailing ones that satisfy a test. -/
def dropTrailing (test : Char → Bool) (text : List Char) : List Char :=
  (text.reverse.dropWhile test).reverse

/-- The characters between the ones at both ends that satisfy a test. -/
def trimBy (test : Char → Bool) (text : List Char) : List Char :=
  dropTrailing test (dropLeading test text)

/-- A text without the white space at its ends. -/
def trim (text : String) : String :=
  String.ofList (trimBy isBlank text.toList)

end ApiAtlas.Text
