import Compositor.Json.Value

/-!
# JSON tokens

The first half of reading: from characters to tokens. The scanner is an
automaton that takes one character at a time and never looks back, so scanning
is a fold, and scanning a concatenation is scanning the parts one after the
other. A number is the only token whose end is not its own last character; it
ends at the first character that cannot continue it, which is then taken as if
the number had already been put away.

Strings are collected as units: a character of the text is one unit, an escape
is one unit of UTF-16. Only at the closing quote are halves of surrogate pairs
put together; a half without its partner makes a string that names no text.
-/

namespace Compositor.Json

/-- A token of a JSON text. -/
inductive Token where
  | openArray
  | closeArray
  | openObject
  | closeObject
  | comma
  | colon
  | null
  | bool (b : Bool)
  | number (n : Number)
  | text (chars : Option String)
  deriving DecidableEq, Repr

namespace Token

/-- Space, tab, line feed and carriage return may stand between tokens. -/
def isBlank (c : Char) : Bool := c == ' ' || c == '\t' || c == '\n' || c == '\r'

/-- The value of a decimal digit. -/
def digit? (c : Char) : Option Nat :=
  if '0' ≤ c ∧ c ≤ '9' then some (c.toNat - '0'.toNat) else none

/-- The value of a hexadecimal digit of either case. -/
def hexDigit? (c : Char) : Option Nat :=
  if '0' ≤ c ∧ c ≤ '9' then some (c.toNat - '0'.toNat)
  else if 'a' ≤ c ∧ c ≤ 'f' then some (c.toNat - 'a'.toNat + 10)
  else if 'A' ≤ c ∧ c ≤ 'F' then some (c.toNat - 'A'.toNat + 10)
  else none

/-- What a one-letter escape stands for. -/
def shortEscape? : Char → Option Char
  | '"' => some '"'
  | '\\' => some '\\'
  | '/' => some '/'
  | 'b' => some '\x08'
  | 'f' => some '\x0c'
  | 'n' => some '\n'
  | 'r' => some '\r'
  | 't' => some '\t'
  | _ => none

/-- Whether a unit is the first half of a surrogate pair. -/
def isHighHalf (u : Nat) : Bool := 0xD800 ≤ u && u ≤ 0xDBFF

/-- Whether a unit is the second half of a surrogate pair. -/
def isLowHalf (u : Nat) : Bool := 0xDC00 ≤ u && u ≤ 0xDFFF

/-- The characters that a list of units spells, unless a half stands alone. -/
def spell : List Nat → Option (List Char)
  | [] => some []
  | [u] => if isHighHalf u || isLowHalf u then none else some [Char.ofNat u]
  | u :: v :: rest =>
    if isHighHalf u then
      if isLowHalf v then
        (spell rest).map (Char.ofNat (0x10000 + (u - 0xD800) * 0x400 + (v - 0xDC00)) :: ·)
      else none
    else if isLowHalf u then none
    else (spell (v :: rest)).map (Char.ofNat u :: ·)

/-- Where the scanner stands inside a number. -/
inductive NumberPart where
  /-- After the sign: a digit has to follow. -/
  | sign
  /-- After a leading zero: no further digit of the whole part may follow. -/
  | zero
  /-- In the whole part. -/
  | whole
  /-- After the point: a digit has to follow. -/
  | point
  /-- In the fraction. -/
  | fraction
  /-- After the letter of the exponent: a sign or a digit has to follow. -/
  | exponent
  /-- After the sign of the exponent: a digit has to follow. -/
  | exponentSign (negative : Bool)
  /-- In the exponent. -/
  | exponentDigits (negative : Bool)
  deriving DecidableEq, Repr

/-- Whether a number may end here. -/
def NumberPart.isComplete : NumberPart → Bool
  | .zero | .whole | .fraction | .exponentDigits _ => true
  | _ => false

/-- What the scanner is in the middle of. -/
inductive Mode where
  /-- Between tokens. -/
  | between
  /-- In a word of which these characters are still missing. -/
  | word (missing : List Char) (token : Token)
  /-- In a number. -/
  | number (part : NumberPart) (n : Number)
  /-- In a string; its units are held last first. -/
  | text (units : List Nat)
  /-- After a backslash in a string. -/
  | escape (units : List Nat)
  /-- In the four digits of an escape: how many are missing, and the value so far. -/
  | hex (units : List Nat) (missing : Nat) (value : Nat)
  deriving DecidableEq, Repr

/-- The state of the scanner: the tokens found, last first, and what it is in
the middle of. -/
structure Scanner where
  found : List Token := []
  mode : Mode := .between
  deriving DecidableEq, Repr

namespace Scanner

/-- The scanner after finding a token. -/
def emit (s : Scanner) (t : Token) : Scanner := ⟨t :: s.found, .between⟩

/-- The step between tokens. -/
def stepBetween (s : Scanner) (c : Char) : Option Scanner :=
  if isBlank c then some s
  else match c with
    | '[' => some (s.emit .openArray)
    | ']' => some (s.emit .closeArray)
    | '\x7b' => some (s.emit .openObject)
    | '\x7d' => some (s.emit .closeObject)
    | ',' => some (s.emit .comma)
    | ':' => some (s.emit .colon)
    | '"' => some { s with mode := .text [] }
    | 'n' => some { s with mode := .word ['u', 'l', 'l'] .null }
    | 't' => some { s with mode := .word ['r', 'u', 'e'] (.bool true) }
    | 'f' => some { s with mode := .word ['a', 'l', 's', 'e'] (.bool false) }
    | '-' => some { s with mode := .number .sign { negative := true } }
    | '0' => some { s with mode := .number .zero {} }
    | _ => (digit? c).map fun d => { s with mode := .number .whole { whole := d } }

/-- The number continued by a character, if that character can continue it. -/
def continueNumber? (part : NumberPart) (n : Number) (c : Char) : Option (NumberPart × Number) :=
  match part, digit? c with
  | .sign, some 0 => some (.zero, n)
  | .sign, some d => some (.whole, { n with whole := d })
  | .whole, some d => some (.whole, { n with whole := n.whole * 10 + d })
  | .point, some d | .fraction, some d =>
    some (.fraction, { n with fraction := some ((n.fraction.getD ⟨0, 0⟩).push d) })
  | .exponent, some d | .exponentSign false, some d | .exponentDigits false, some d =>
    some (.exponentDigits false, { n with exponent := some (n.exponent.getD 0 * 10 + d) })
  | .exponentSign true, some d | .exponentDigits true, some d =>
    some (.exponentDigits true, { n with exponent := some (n.exponent.getD 0 * 10 - d) })
  | .zero, none | .whole, none =>
    if c = '.' then some (.point, n)
    else if c = 'e' ∨ c = 'E' then some (.exponent, n)
    else none
  | .fraction, none => if c = 'e' ∨ c = 'E' then some (.exponent, n) else none
  | .exponent, none =>
    if c = '+' then some (.exponentSign false, n)
    else if c = '-' then some (.exponentSign true, n)
    else none
  | _, _ => none

/-- The token for a finished string. -/
def textToken (units : List Nat) : Token :=
  .text ((spell units.reverse).map String.ofList)

/-- One step of the scanner; `none` if no JSON text continues so. -/
def step (s : Scanner) (c : Char) : Option Scanner :=
  match s.mode with
  | .between => s.stepBetween c
  | .word [] _ => none
  | .word [last] t => if c = last then some (s.emit t) else none
  | .word (next :: missing) t => if c = next then some { s with mode := .word missing t } else none
  | .number part n =>
    match continueNumber? part n c with
    | some (part, n) => some { s with mode := .number part n }
    | none => if part.isComplete then (s.emit (.number n)).stepBetween c else none
  | .text units =>
    if c = '"' then some (s.emit (textToken units))
    else if c = '\\' then some { s with mode := .escape units }
    else if c.toNat < 0x20 then none
    else some { s with mode := .text (c.toNat :: units) }
  | .escape units =>
    if c = 'u' then some { s with mode := .hex units 4 0 }
    else (shortEscape? c).map fun e => { s with mode := .text (e.toNat :: units) }
  | .hex units missing value =>
    (hexDigit? c).map fun d =>
      let value := value * 16 + d
      match missing with
      | 0 | 1 => { s with mode := .text (value :: units) }
      | missing + 1 => { s with mode := .hex units missing value }

/-- The tokens, if the text may end here. -/
def finish (s : Scanner) : Option (List Token) :=
  match s.mode with
  | .between => some s.found.reverse
  | .number part n => if part.isComplete then some (.number n :: s.found).reverse else none
  | _ => none

/-- The scanner after a list of characters. -/
def run (s : Scanner) (cs : List Char) : Option Scanner := cs.foldlM step s

theorem run_append (s : Scanner) (as bs : List Char) :
    s.run (as ++ bs) = (s.run as).bind fun t => t.run bs := by
  simp [run, List.foldlM_append]

end Scanner

/-- The tokens of a text. -/
def scan (cs : List Char) : Option (List Token) :=
  (Scanner.run {} cs).bind Scanner.finish

end Token

end Compositor.Json
