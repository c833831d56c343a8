import Compositor.Json.Token

/-!
# Reading JSON

The second half of reading: from tokens to a value. Again an automaton, now
with a stack of the containers that are open. What may come next depends only on
where the reader stands – after an opening bracket, after a comma, after a name –
so an open container is the list of what it already holds and nothing else, and
no depth of nesting is too deep.

A text is one value with nothing behind it.
-/

namespace Compositor.Json

/-- A container that is still open, with what it holds so far, last first. -/
inductive Open where
  | array (items : List Value)
  /-- An object that waits for the value of a member. -/
  | object (members : List (Option String × Value)) (name : Option String)

/-- What the reader expects next. -/
inductive Expect where
  /-- A value. -/
  | value
  /-- A value, or the end of the array just opened. -/
  | itemOrClose
  /-- A name, or the end of the object just opened. -/
  | nameOrClose
  /-- A name, after a comma. -/
  | name (members : List (Option String × Value))
  /-- The colon after a name. -/
  | colon (members : List (Option String × Value)) (name : Option String)
  /-- What follows the given value: a comma, the end of the container, or the end of the text. -/
  | after (v : Value)

/-- The state of the reader. -/
structure Reader where
  expect : Expect := .value
  stack : List Open := []

namespace Reader

/-- The reader at the start of a value. -/
def beginValue (stack : List Open) : Token → Option Reader
  | .null => some ⟨.after .null, stack⟩
  | .bool b => some ⟨.after (.bool b), stack⟩
  | .number n => some ⟨.after (.number n), stack⟩
  | .text s => some ⟨.after (.text s), stack⟩
  | .openArray => some ⟨.itemOrClose, stack⟩
  | .openObject => some ⟨.nameOrClose, stack⟩
  | _ => none

/-- The reader after a value, in the container on top of the stack. -/
def afterValue (v : Value) : List Open → Token → Option Reader
  | .array items :: stack, .comma => some ⟨.value, .array (v :: items) :: stack⟩
  | .array items :: stack, .closeArray => some ⟨.after (.array (v :: items).reverse), stack⟩
  | .object members name :: stack, .comma => some ⟨.name ((name, v) :: members), stack⟩
  | .object members name :: stack, .closeObject =>
    some ⟨.after (.object ((name, v) :: members).reverse), stack⟩
  | _, _ => none

/-- One step of the reader; `none` if no value continues so. -/
def step (r : Reader) (t : Token) : Option Reader :=
  match r.expect with
  | .value => beginValue r.stack t
  | .itemOrClose =>
    match t with
    | .closeArray => some ⟨.after (.array []), r.stack⟩
    | t => beginValue (.array [] :: r.stack) t
  | .nameOrClose =>
    match t with
    | .closeObject => some ⟨.after (.object []), r.stack⟩
    | .text name => some ⟨.colon [] name, r.stack⟩
    | _ => none
  | .name members =>
    match t with
    | .text name => some ⟨.colon members name, r.stack⟩
    | _ => none
  | .colon members name =>
    match t with
    | .colon => some ⟨.value, .object members name :: r.stack⟩
    | _ => none
  | .after v => afterValue v r.stack t

/-- The value read, if one is complete. -/
def finish (r : Reader) : Option Value :=
  match r.expect, r.stack with
  | .after v, [] => some v
  | _, _ => none

/-- The reader after a list of tokens. -/
def run (r : Reader) (ts : List Token) : Option Reader := ts.foldlM step r

theorem run_append (r : Reader) (as bs : List Token) :
    r.run (as ++ bs) = (r.run as).bind fun t => t.run bs := by
  simp [run, List.foldlM_append]

end Reader

namespace Value

/-- The value that a list of tokens spells. -/
def ofTokens? (ts : List Token) : Option Value := (Reader.run {} ts).bind Reader.finish

/-- The value of a JSON text. -/
def parse? (s : String) : Option Value := (Token.scan s.toList).bind ofTokens?

end Value

end Compositor.Json
