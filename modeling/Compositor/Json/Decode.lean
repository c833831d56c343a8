import Compositor.Json.Reader
import Compositor.Checked

/-!
# Decoding JSON values

What the parts of a value mean to a reader who knows what to expect. A record may
be written in two ways: as an object whose members are its fields in any order, or
as an array that lists the fields in their declared order and may stop early. In
an object a field may stand only once, and every name has to name a text; names
that are not fields are refused or skipped, as the reader chooses. A choice among
names may be written as the name or as an object with that name and `null`.
-/

namespace Compositor.Json.Value

/-- A truth value. -/
def bool? : Value → Option Bool
  | .bool b => some b
  | _ => none

/-- An integer that was written as one. -/
def int? : Value → Option Int
  | .number n => n.toInt?
  | _ => none

/-- A natural number below a limit. -/
def natBelow? (limit : Nat) (v : Value) : Option Nat :=
  match v.int? with
  | some (.ofNat n) => if n < limit then some n else none
  | _ => none

/-- A signed word of 32 bits. -/
def int32? (v : Value) : Option Int32 := v.int?.bind Coord.ofInt?

/-- A part that may be `null`. -/
def nullable? {α : Type} (decode : Value → Option α) : Value → Option (Option α)
  | .null => some none
  | v => (decode v).map some

/-- A choice among names: the name as a text, or as the one member of an object
whose value is `null`. -/
def choice? : Value → Option String
  | .text s => s
  | .object [(name, .null)] => name
  | _ => none

/-- The names of an object's members, if each names a text. -/
def names? : List (Option String × Value) → Option (List String)
  | [] => some []
  | (name, _) :: rest => do return (← name) :: (← names? rest)

/-- The value of the first member of a name. -/
def member? (members : List (Option String × Value)) (name : String) : Option Value :=
  (members.find? fun m => m.1 = some name).map Prod.snd

/-- **The fields of a record**, each with its value if one was given, in the order
in which `fields` names them. A `strict` reader refuses other names. -/
def fields? (fields : List String) (strict : Bool) : Value → Option (List (Option Value))
  | .array items =>
    if items.length ≤ fields.length then
      some (items.map some ++ List.replicate (fields.length - items.length) none)
    else none
  | .object members => do
    let names ← names? members
    if fields.all (fun f => names.count f ≤ 1) && (!strict || names.all (fields.contains ·)) then
      return fields.map (member? members)
    else none
  | _ => none

/-- A field of a record that has to be given. -/
def required? {α : Type} (decode : Value → Option α) (field : Option Value) : Option α :=
  field.bind decode

/-- A field of a record that has a value of its own where it is not given. -/
def defaulting? {α : Type} (value : α) (decode : Value → Option α) : Option Value → Option α
  | none => some value
  | some v => decode v

end Compositor.Json.Value
