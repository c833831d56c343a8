/-!
# JSON values

The tree behind a JSON text. Two things are kept that a less careful tree would
lose, because readers of such a tree ask for them.

A number keeps the way it was *written*: whether it had a fraction or an
exponent, and whether a zero had a sign. Reading an integer accepts only what
was written as one, and `-0` was not. A string keeps whether it *names a text*:
the grammar allows an escape for half of a surrogate pair, and such a string is
well-formed where nobody reads it but has no characters where somebody does.

An object is the list of its members in the order written, repeated names
included.
-/

namespace Compositor.Json

/-- A run of decimal digits: the number they spell and how many there are. -/
structure Digits where
  value : Nat
  count : Nat
  deriving DecidableEq, Repr, Inhabited

/-- The run extended by one digit. -/
def Digits.push (d : Digits) (digit : Nat) : Digits := ⟨d.value * 10 + digit, d.count + 1⟩

/-- A number as written. -/
structure Number where
  negative : Bool := false
  whole : Nat := 0
  fraction : Option Digits := none
  exponent : Option Int := none
  deriving DecidableEq, Repr, Inhabited

namespace Number

/-- The number written for an integer. -/
def ofInt (i : Int) : Number := { negative := decide (i < 0), whole := i.natAbs }

/-- The integer that was written, if one was: no fraction, no exponent, and no
sign before a zero. -/
def toInt? (n : Number) : Option Int :=
  match n with
  | ⟨false, whole, none, none⟩ => some whole
  | ⟨true, whole, none, none⟩ => if whole = 0 then none else some (-(whole : Int))
  | _ => none

@[simp] theorem toInt?_ofInt (i : Int) : (ofInt i).toInt? = some i := by
  by_cases h : i < 0
  · have hne : i.natAbs ≠ 0 := by omega
    simp only [ofInt, h, decide_true, toInt?, if_neg hne, Option.some.injEq]
    omega
  · simp only [ofInt, h, decide_false, toInt?, Option.some.injEq]
    omega

end Number

/-- A JSON value. The characters of a string are absent if it names no text. -/
inductive Value where
  | null
  | bool (b : Bool)
  | number (n : Number)
  | text (chars : Option String)
  | array (items : List Value)
  | object (members : List (Option String × Value))
  deriving Inhabited

namespace Value

/-- The value written for an integer. -/
def int (i : Int) : Value := .number (.ofInt i)

/-- The value written for a natural number. -/
def nat (n : Nat) : Value := int n

/-- The value written for a string. -/
def str (s : String) : Value := .text (some s)

/-- An object with the given members. -/
def ofFields (members : List (String × Value)) : Value :=
  .object (members.map fun (name, v) => (some name, v))

/-- The value of an optional part, `null` if there is none. -/
def ofOption {α : Type} (f : α → Value) : Option α → Value
  | none => .null
  | some a => f a

end Value

end Compositor.Json
