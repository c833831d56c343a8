/-!
# Blank characters, trimming and lines

A character is *blank* if it has the Unicode property `White_Space`. The
property is a closed list of 25 characters, five of which lie outside the range
that a byte can hold, so the table below is the whole of it. Trimming removes
blank characters from both ends and nothing from the middle.

A line ends before a line feed; one carriage return right before that line feed
belongs to the ending and not to the line. A text that ends in a line feed has
no further, empty line after it.
-/

namespace Compositor.Text

/-- The characters with the property `White_Space`. -/
def isBlank (c : Char) : Bool :=
  let n := c.toNat
  (9 ≤ n && n ≤ 13) || n == 0x20 || n == 0x85 || n == 0xA0 || n == 0x1680
    || (0x2000 ≤ n && n ≤ 0x200A) || n == 0x2028 || n == 0x2029 || n == 0x202F
    || n == 0x205F || n == 0x3000

/-- The characters without the blank ones at the front. -/
def trimFront (cs : List Char) : List Char := cs.dropWhile isBlank

/-- The characters without the blank ones at either end. -/
def trimChars (cs : List Char) : List Char :=
  (trimFront (trimFront cs).reverse).reverse

/-- The text without the blank characters at either end. -/
def trim (s : String) : String := String.ofList (trimChars s.toList)

/-- The text with the letters A to Z in lower case and all else unchanged. -/
def lowerAscii (s : String) : String := String.ofList (s.toList.map Char.toLower)

/-- A line without the carriage return that belongs to its ending. -/
def dropReturn (line : List Char) : List Char :=
  if line.getLast? = some '\r' then line.dropLast else line

/-- The lines of a text, each without its ending. The accumulator holds the
current line, last character first. -/
def linesFrom : List Char → List Char → List (List Char)
  | line, [] => if line.isEmpty then [] else [line.reverse]
  | line, c :: rest =>
    if c = '\n' then dropReturn line.reverse :: linesFrom [] rest else linesFrom (c :: line) rest

/-- The lines of a text, each without its ending. -/
def lines (s : String) : List String := (linesFrom [] s.toList).map String.ofList

/-- The parts of a list before and after the first occurrence of a character. -/
def splitAt? (sep : Char) : List Char → Option (List Char × List Char)
  | [] => none
  | c :: rest =>
    if c = sep then some ([], rest)
    else (splitAt? sep rest).map fun (before, after) => (c :: before, after)

end Compositor.Text
