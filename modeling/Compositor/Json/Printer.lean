import Compositor.Json.Token

/-!
# Writing JSON

A value is written in one of two layouts. The compact layout has nothing between
tokens: it is the list of the value's tokens, each spelled out, so it is read back
by scanning the tokens and reading the value. The indented layout puts each item
and each member on a line of its own, two blanks deeper than its container, with
one blank after the colon; an empty container stays on its line.

In a string the quote, the backslash and the control characters below U+0020 are
escaped, those with a short escape by it and the rest by four lower-case
hexadecimal digits. Every other character stands for itself.
-/

namespace Compositor.Json

/-- A hexadecimal digit in lower case. -/
def hexDigit (d : Nat) : Char := if d < 10 then Char.ofNat (48 + d) else Char.ofNat (87 + d)

/-- A character as it stands in a string. -/
def escape (c : Char) : List Char :=
  if c = '"' then ['\\', '"']
  else if c = '\\' then ['\\', '\\']
  else if c = '\x08' then ['\\', 'b']
  else if c = '\x0c' then ['\\', 'f']
  else if c = '\n' then ['\\', 'n']
  else if c = '\r' then ['\\', 'r']
  else if c = '\t' then ['\\', 't']
  else if c.toNat < 0x20 then
    ['\\', 'u', '0', '0', hexDigit (c.toNat / 16), hexDigit (c.toNat % 16)]
  else [c]

/-- A string as written. One that names no text is written as half of a surrogate pair. -/
def quoted : Option String → List Char
  | some s => '"' :: s.toList.flatMap escape ++ ['"']
  | none => ['"', '\\', 'u', 'd', '8', '0', '0', '"']

/-- A natural number in decimal digits. -/
def decimal (n : Nat) : List Char := Nat.toDigits 10 n

/-- A run of digits, with the zeros at its front. -/
def Digits.chars (d : Digits) : List Char :=
  let written := decimal d.value
  List.replicate (d.count - written.length) '0' ++ written

/-- An integer in decimal digits. -/
def decimalInt (i : Int) : List Char :=
  if i < 0 then '-' :: decimal i.natAbs else decimal i.natAbs

/-- A number as written. -/
def Number.chars (n : Number) : List Char :=
  (if n.negative then ['-'] else []) ++ decimal n.whole
    ++ (match n.fraction with
        | some d => '.' :: d.chars
        | none => [])
    ++ (match n.exponent with
        | some e => 'e' :: decimalInt e
        | none => [])

/-- A token as written. -/
def Token.chars : Token → List Char
  | .openArray => ['[']
  | .closeArray => [']']
  | .openObject => ['\x7b']
  | .closeObject => ['\x7d']
  | .comma => [',']
  | .colon => [':']
  | .null => ['n', 'u', 'l', 'l']
  | .bool true => ['t', 'r', 'u', 'e']
  | .bool false => ['f', 'a', 'l', 's', 'e']
  | .number n => n.chars
  | .text s => quoted s

namespace Value

mutual

/-- The tokens of a value. -/
def tokens : Value → List Token
  | .null => [.null]
  | .bool b => [.bool b]
  | .number n => [.number n]
  | .text s => [.text s]
  | .array items => .openArray :: itemTokens items ++ [.closeArray]
  | .object members => .openObject :: memberTokens members ++ [.closeObject]

/-- The tokens between the brackets of an array. -/
def itemTokens : List Value → List Token
  | [] => []
  | [v] => v.tokens
  | v :: rest => v.tokens ++ .comma :: itemTokens rest

/-- The tokens between the brackets of an object. -/
def memberTokens : List (Option String × Value) → List Token
  | [] => []
  | [(name, v)] => .text name :: .colon :: v.tokens
  | (name, v) :: rest => .text name :: .colon :: v.tokens ++ .comma :: memberTokens rest

end

/-- The value in the compact layout. -/
def compact (v : Value) : String := String.ofList (v.tokens.flatMap Token.chars)

/-- The start of a line at some depth. -/
def lineAt (depth : Nat) : List Char := '\n' :: List.replicate (2 * depth) ' '

mutual

/-- The value in the indented layout, inside containers of the given number. -/
def indentedChars (depth : Nat) : Value → List Char
  | .null => Token.null.chars
  | .bool b => (Token.bool b).chars
  | .number n => n.chars
  | .text s => quoted s
  | .array [] => ['[', ']']
  | .array (v :: rest) =>
    '[' :: lineAt (depth + 1) ++ v.indentedChars (depth + 1)
      ++ indentedItems (depth + 1) rest ++ lineAt depth ++ [']']
  | .object [] => ['\x7b', '\x7d']
  | .object ((name, v) :: rest) =>
    '\x7b' :: lineAt (depth + 1) ++ quoted name ++ [':', ' '] ++ v.indentedChars (depth + 1)
      ++ indentedMembers (depth + 1) rest ++ lineAt depth ++ ['\x7d']

/-- The items behind the first, each after a comma on a line of its own. -/
def indentedItems (depth : Nat) : List Value → List Char
  | [] => []
  | v :: rest => ',' :: lineAt depth ++ v.indentedChars depth ++ indentedItems depth rest

/-- The members behind the first, each after a comma on a line of its own. -/
def indentedMembers (depth : Nat) : List (Option String × Value) → List Char
  | [] => []
  | (name, v) :: rest =>
    ',' :: lineAt depth ++ quoted name ++ [':', ' '] ++ v.indentedChars depth
      ++ indentedMembers depth rest

end

/-- The value in the indented layout. -/
def indented (v : Value) : String := String.ofList (v.indentedChars 0)

end Value

end Compositor.Json
