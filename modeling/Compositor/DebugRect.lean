import Compositor.Surface

/-!
# Debug rectangles

An overlay shows where things happened in a frame: what was painted, what changed,
which surfaces were damaged, where surfaces and their reflections are, and what hides
what is behind it. Each kind has a switch of its own, except that reflections are only
looked for while surfaces are shown.

A kind's rectangles form a *family*, computed from the frame and nothing else. Each
member of a family may fault, and what is stored for a frame is the run of members
before the first fault.
-/

namespace Compositor

/-- What a rectangle of the overlay shows. -/
inductive DebugRectKind where
  | paint
  | propertyChanged
  | surfaceDamage
  | replicaScreenSpace
  | screenSpace
  | occluding
  deriving DecidableEq, Repr

namespace DebugRectKind

/-- Every kind. -/
def all : List DebugRectKind :=
  [paint, propertyChanged, surfaceDamage, replicaScreenSpace, screenSpace, occluding]

/-- The name of a kind. -/
def name : DebugRectKind → String
  | .paint => "paint"
  | .propertyChanged => "property_changed"
  | .surfaceDamage => "surface_damage"
  | .replicaScreenSpace => "replica_screen_space"
  | .screenSpace => "screen_space"
  | .occluding => "occluding"

/-- The kind of a name. -/
def ofName? (s : String) : Option DebugRectKind := all.find? fun k => k.name = s

@[simp] theorem ofName?_name (k : DebugRectKind) : ofName? k.name = some k := by
  cases k <;> decide

theorem name_of_ofName? {s : String} {k : DebugRectKind} (h : ofName? s = some k) :
    k.name = s := by
  simpa using List.find?_some h

/-- The kind as a JSON value: its name. -/
def toJson (k : DebugRectKind) : Json.Value := .str k.name

/-- The kind that a JSON value names. -/
def ofJson? (v : Json.Value) : Option DebugRectKind := v.choice?.bind ofName?

end DebugRectKind

/-- A rectangle of the overlay. -/
structure DebugRect where
  kind : DebugRectKind
  rect : Rect
  deriving DecidableEq, Repr

namespace DebugRect

/-- The record that a rectangle of the overlay is in JSON. -/
def toJson (d : DebugRect) : Json.Value :=
  .ofFields [("kind", d.kind.toJson), ("rect", d.rect.toJson)]

/-- The rectangle of the overlay that a record describes. -/
def ofJson? (v : Json.Value) : Option DebugRect :=
  match v.fields? ["kind", "rect"] false with
  | some [kind, rect] => do
    return { kind := ← Json.Value.required? DebugRectKind.ofJson? kind
             rect := ← Json.Value.required? Rect.ofJson? rect }
  | _ => none

end DebugRect

/-- Which families the overlay shows. -/
structure DebugRectSettings where
  paint : Bool := false
  propertyChanged : Bool := false
  surfaceDamage : Bool := false
  screenSpace : Bool := false
  replicaScreenSpace : Bool := false
  occluding : Bool := false
  deriving DecidableEq, Repr, Inhabited

namespace DebugRectSettings

/-- Every family. -/
def all : DebugRectSettings := ⟨true, true, true, true, true, true⟩

/-- Whether any family is shown. -/
def any (s : DebugRectSettings) : Bool :=
  s.paint || s.propertyChanged || s.surfaceDamage || s.screenSpace || s.replicaScreenSpace
    || s.occluding

/-- Whether the switch of a kind is on. -/
def shows (s : DebugRectSettings) : DebugRectKind → Bool
  | .paint => s.paint
  | .propertyChanged => s.propertyChanged
  | .surfaceDamage => s.surfaceDamage
  | .replicaScreenSpace => s.replicaScreenSpace
  | .screenSpace => s.screenSpace
  | .occluding => s.occluding

/-- The names of the switches. -/
def fieldNames : List String :=
  ["show_paint_rects", "show_property_changed_rects", "show_surface_damage_rects",
    "show_screen_space_rects", "show_replica_screen_space_rects", "show_occluding_rects"]

/-- The record that the switches are in JSON. -/
def toJson (s : DebugRectSettings) : Json.Value :=
  .ofFields (fieldNames.zip
    ([s.paint, s.propertyChanged, s.surfaceDamage, s.screenSpace, s.replicaScreenSpace,
      s.occluding].map Json.Value.bool))

/-- The switches that a record describes; one that is not given is off. -/
def ofJson? (v : Json.Value) : Option DebugRectSettings :=
  let switch := Json.Value.defaulting? false Json.Value.bool?
  match v.fields? fieldNames false with
  | some [paint, changed, damage, screen, replica, occluding] => do
    return { paint := ← switch paint
             propertyChanged := ← switch changed
             surfaceDamage := ← switch damage
             screenSpace := ← switch screen
             replicaScreenSpace := ← switch replica
             occluding := ← switch occluding }
  | _ => none

end DebugRectSettings

/-- A member of a family: a rectangle, or the fault met in computing it. -/
abbrev DebugRect.Member := Except Fault DebugRect

/-- A member of the given kind. -/
def DebugRect.Member.of (kind : DebugRectKind) (rect : Except Fault Rect) : DebugRect.Member :=
  rect.map fun rect => { kind, rect }

/-- What a frame shows: its surfaces, and on the screen what hides what is behind it. -/
structure DebugFrame where
  surfaces : List RenderSurface := []
  occluding : List Rect := []

namespace DebugFrame

/-- The layers of a frame, surface by surface. -/
def layers (f : DebugFrame) : List LayerSnapshot := f.surfaces.flatMap RenderSurface.layers

/-- The painted part of a layer, unless there is none. -/
def paintOf (layer : LayerSnapshot) : List DebugRect.Member :=
  match layer.updated.intersect layer.bounds with
  | .error fault => [.error fault]
  | .ok painted =>
    if painted.isEmpty then [] else [.of .paint (painted.mapEnclosing layer.screen)]

/-- What was painted, layer by layer. -/
def paint (f : DebugFrame) : List DebugRect.Member := f.layers.flatMap paintOf

/-- The layers of which a property changed, but for empty ones. -/
def propertyChanged (f : DebugFrame) : List DebugRect.Member :=
  (f.layers.filter fun layer => layer.propertyChanged && !layer.bounds.isEmpty).map
    fun layer => .of .propertyChanged layer.screenRect

/-- The damage of the surfaces that have some. -/
def surfaceDamage (f : DebugFrame) : List DebugRect.Member :=
  (f.surfaces.filter fun s => !s.damage.isEmpty).map
    fun s => .of .surfaceDamage (s.damage.mapEnclosing s.screen)

/-- Where the surfaces are, each followed by its reflection if reflections are shown. -/
def screenSpace (f : DebugFrame) (replicas : Bool) : List DebugRect.Member :=
  f.surfaces.flatMap fun s =>
    (.of .screenSpace s.screenRect) ::
      (if replicas then
        s.replicaScreenRect.toList.map (DebugRect.Member.of .replicaScreenSpace)
      else [])

/-- What hides what is behind it. -/
def occlusion (f : DebugFrame) : List DebugRect.Member :=
  f.occluding.map fun rect => .ok { kind := .occluding, rect }

/-- Every member that the settings ask for, in the order of the overlay. -/
def members (f : DebugFrame) (settings : DebugRectSettings) : List DebugRect.Member :=
  (if settings.paint then f.paint else [])
    ++ (if settings.propertyChanged then f.propertyChanged else [])
    ++ (if settings.surfaceDamage then f.surfaceDamage else [])
    ++ (if settings.screenSpace then f.screenSpace settings.replicaScreenSpace else [])
    ++ (if settings.occluding then f.occlusion else [])

end DebugFrame

/-- The rectangles of the latest frame. -/
structure DebugRectHistory where
  rects : List DebugRect := []
  deriving Repr

namespace DebugRectHistory

/-- The rectangles before the first fault, and that fault if there is one. -/
def beforeFault : List DebugRect.Member → Except Fault Unit × List DebugRect
  | [] => (.ok (), [])
  | .error fault :: _ => (.error fault, [])
  | .ok rect :: rest =>
    let (outcome, rects) := beforeFault rest
    (outcome, rect :: rects)

/-- Replaces what is stored by what the settings ask for from a frame. -/
def save (_ : DebugRectHistory) (frame : DebugFrame) (settings : DebugRectSettings) :
    Except Fault Unit × DebugRectHistory :=
  let (outcome, rects) := beforeFault (frame.members settings)
  (outcome, { rects })

/-- How many rectangles of a kind are stored. -/
def count (h : DebugRectHistory) (kind : DebugRectKind) : Nat :=
  h.rects.countP fun d => d.kind = kind

end DebugRectHistory

end Compositor
