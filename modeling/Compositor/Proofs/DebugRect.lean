import Compositor.DebugRect
import Compositor.Proofs.Json.Describing
import Compositor.Proofs.Json.Writing

/-!
# Rectangles in JSON

A rectangle is written as an object of its four integers, and a rectangle of the overlay as an
object of the name of its kind and of its rectangle. They are read from more than that: from an
array of the same values, from an object with the members in another order and with others among
them, from any spelling of the names, with blanks wherever they may stand. Nothing else is read,
and whatever the text was, writing what was read gives the one text that is written of it.
-/

namespace Compositor

open Json Json.Value

namespace Rect

/-- The values that describe a rectangle. -/
def IsDescribedBy (r : Rect) : Value → Prop :=
  IsRecord [("x", (· = .int r.x.toInt)), ("y", (· = .int r.y.toInt)),
    ("width", (· = .int r.width.toInt)), ("height", (· = .int r.height.toInt))]

variable {r : Rect} {v : Value}

/-- **A rectangle is decoded** exactly from the values that describe it. -/
theorem ofJson?_eq_some : ofJson? v = some r ↔ r.IsDescribedBy v := by
  rw [IsDescribedBy, isRecord_iff]
  simp only [List.map_cons, List.map_nil]
  constructor
  · intro h
    unfold ofJson? at h
    split at h
    · next x y width height hfields =>
      simp only [required?, Option.bind_eq_bind, Option.bind_eq_some_iff, int32?_eq_some,
        Option.pure_def, Option.some.injEq] at h
      obtain ⟨_, ⟨_, rfl, rfl⟩, _, ⟨_, rfl, rfl⟩, _, ⟨_, rfl, rfl⟩, _, ⟨_, rfl, rfl⟩, rfl⟩ := h
      exact ⟨[_, _, _, _], hfields, .cons rfl (.cons rfl (.cons rfl (.cons rfl .nil)))⟩
    · cases h
  · rintro ⟨given, hfields, hall⟩
    obtain _ | ⟨rfl, _ | ⟨rfl, _ | ⟨rfl, _ | ⟨rfl, ⟨⟩⟩⟩⟩⟩ := hall
    have hint (i : Int32) : (int i.toInt).int32? = some i := int32?_eq_some.2 rfl
    unfold ofJson?
    rw [hfields]
    simp only [List.map_cons, List.map_nil, required?, Option.bind_some, Option.bind_eq_bind, hint,
      Option.pure_def]

/-- What is written of a rectangle describes it. -/
theorem isDescribedBy_toJson (r : Rect) : r.IsDescribedBy r.toJson :=
  isRecord_ofFields (show ["x", "y", "width", "height"].Nodup by decide)
    (.cons ⟨rfl, rfl⟩ (.cons ⟨rfl, rfl⟩ (.cons ⟨rfl, rfl⟩ (.cons ⟨rfl, rfl⟩ .nil))))

theorem isPlain_toJson (r : Rect) : r.toJson.IsPlain := by
  refine isPlain_ofFields ?_
  simp only [List.forall_mem_cons]
  exact ⟨isPlain_int _, isPlain_int _, isPlain_int _, isPlain_int _, nofun⟩

/-- The text that is written of a rectangle. -/
def jsonText (r : Rect) : String :=
  "\x7b\"x\":" ++ toString r.x.toInt ++ ",\"y\":" ++ toString r.y.toInt ++ ",\"width\":"
    ++ toString r.width.toInt ++ ",\"height\":" ++ toString r.height.toInt ++ "\x7d"

theorem compact_toJson (r : Rect) : r.toJson.compact = r.jsonText := by
  rw [← String.toList_inj, compact, String.toList_ofList]
  simp [jsonText, toJson, ofFields, int, tokens, memberTokens, Number.chars_ofInt, Token.chars,
    quoted, escape]

end Rect

namespace DebugRectKind

theorem ofJson?_eq_some {v : Value} {k : DebugRectKind} : ofJson? v = some k ↔ v.Names k.name := by
  rw [ofJson?, ← choice?_eq_some, Option.bind_eq_some_iff]
  constructor
  · rintro ⟨name, hname, hk⟩
    rw [name_of_ofName? hk]
    exact hname
  · exact fun hname => ⟨k.name, hname, ofName?_name k⟩

end DebugRectKind

namespace DebugRect

/-- The values that describe a rectangle of the overlay. -/
def IsDescribedBy (d : DebugRect) : Value → Prop :=
  IsRecord [("kind", Names d.kind.name), ("rect", d.rect.IsDescribedBy)]

variable {d : DebugRect} {v : Value}

/-- **A rectangle of the overlay is decoded** exactly from the values that describe it. -/
theorem ofJson?_eq_some : ofJson? v = some d ↔ d.IsDescribedBy v := by
  rw [IsDescribedBy, isRecord_iff]
  simp only [List.map_cons, List.map_nil]
  constructor
  · intro h
    unfold ofJson? at h
    split at h
    · next kind rect hfields =>
      simp only [required?, Option.bind_eq_bind, Option.bind_eq_some_iff,
        DebugRectKind.ofJson?_eq_some, Rect.ofJson?_eq_some, Option.pure_def,
        Option.some.injEq] at h
      obtain ⟨_, ⟨_, rfl, hkind⟩, _, ⟨_, rfl, hrect⟩, rfl⟩ := h
      exact ⟨[_, _], hfields, .cons hkind (.cons hrect .nil)⟩
    · cases h
  · rintro ⟨given, hfields, hall⟩
    obtain _ | ⟨hkind, _ | ⟨hrect, ⟨⟩⟩⟩ := hall
    unfold ofJson?
    rw [hfields]
    simp only [List.map_cons, List.map_nil, required?, Option.bind_some, Option.bind_eq_bind,
      DebugRectKind.ofJson?_eq_some.2 hkind, Rect.ofJson?_eq_some.2 hrect, Option.pure_def]

theorem isDescribedBy_toJson (d : DebugRect) : d.IsDescribedBy d.toJson :=
  isRecord_ofFields (show ["kind", "rect"].Nodup by decide)
    (.cons ⟨rfl, .inl rfl⟩ (.cons ⟨rfl, d.rect.isDescribedBy_toJson⟩ .nil))

theorem isPlain_toJson (d : DebugRect) : d.toJson.IsPlain := by
  refine isPlain_ofFields ?_
  simp only [List.forall_mem_cons]
  exact ⟨isPlain_str _, d.rect.isPlain_toJson, nofun⟩

/-- The text that is written of a rectangle of the overlay. -/
def jsonText (d : DebugRect) : String :=
  "\x7b\"kind\":\"" ++ d.kind.name ++ "\",\"rect\":" ++ d.rect.jsonText ++ "\x7d"

theorem compact_toJson (d : DebugRect) : d.toJson.compact = d.jsonText := by
  have hrect : d.rect.toJson.tokens.flatMap Token.chars = d.rect.jsonText.toList := by
    rw [← Rect.compact_toJson, compact, String.toList_ofList]
  -- No name has a character that is escaped.
  have hkind : quoted (some d.kind.name) = '"' :: d.kind.name.toList ++ ['"'] := by
    cases d.kind <;> rfl
  have hfirst : quoted (some "kind") = "\"kind\"".toList := rfl
  have hsecond : quoted (some "rect") = "\"rect\"".toList := rfl
  rw [← String.toList_inj, compact, String.toList_ofList]
  simp [jsonText, toJson, DebugRectKind.toJson, ofFields, str, tokens, memberTokens, Token.chars,
    hkind, hrect, hfirst, hsecond]

/-- **Rectangles survive JSON**, those of the overlay and all others.

What is written of a rectangle is read as it, over every kind and all coordinates. A text is read
as a rectangle exactly if it spells a value that describes it; and it is rewritten as the one text
that is written of the rectangle, which is rewritten as itself. -/
theorem survives_json :
    Survives ofJson? toJson IsDescribedBy ∧
    Survives Rect.ofJson? Rect.toJson Rect.IsDescribedBy ∧
    (∀ d : DebugRect, d.toJson.compact = d.jsonText) ∧
    ∀ r : Rect, r.toJson.compact = r.jsonText :=
  ⟨survives_of_decode (fun _ _ => ofJson?_eq_some) isDescribedBy_toJson isPlain_toJson,
    survives_of_decode (fun _ _ => Rect.ofJson?_eq_some) Rect.isDescribedBy_toJson
      Rect.isPlain_toJson,
    compact_toJson, Rect.compact_toJson⟩

/-- The members in another order and with another one among them, the kind as an object and its name
with an escape, the rectangle as an array. -/
example :
    read? ofJson? (" \x7b \"rect\" : [-2147483648, 0,\t7, 2147483647],"
      ++ "\"\\n\" : [1e999, \"\\ud800\"],\n\"k\\u0069nd\":\x7b\"screen_sp\\u0061ce\":null\x7d\x7d ") =
      some ⟨.screenSpace, -2147483648, 0, 7, 2147483647⟩ := by
  decide +kernel

end DebugRect

end Compositor
