import Compositor.Geometry.Transform
import Compositor.Json.Decode

/-!
# Rectangles

A rectangle has a corner and a size in whole coordinates. It is empty if a side is
not positive. The opposite edges are sums, so asking for them can fault, and so can
whatever asks for them; a question that is answered before an edge is needed does
not ask for it.

In JSON a rectangle is a record with the fields `x`, `y`, `width` and `height`.
-/

namespace Compositor

/-- A rectangle by its corner and its size. -/
structure Rect where
  x : Int32 := 0
  y : Int32 := 0
  width : Int32 := 0
  height : Int32 := 0
  deriving DecidableEq, Repr, Inhabited

namespace Rect

/-- The rectangle of a size whose corner is the origin. -/
def ofSize (width height : Int32) : Rect := ⟨0, 0, width, height⟩

/-- Whether a side is not positive. -/
def isEmpty (r : Rect) : Bool := r.width ≤ 0 || r.height ≤ 0

/-- The edge opposite to `x`. -/
def right (r : Rect) : Except Fault Int32 := Coord.add r.x r.width

/-- The edge opposite to `y`. -/
def bottom (r : Rect) : Except Fault Int32 := Coord.add r.y r.height

/-- The number of pixels. -/
def area (r : Rect) : Nat :=
  if r.isEmpty then 0 else r.width.toInt.natAbs * r.height.toInt.natAbs

/-- Whether the second rectangle has a pixel and none outside of the first. -/
def contains (outer inner : Rect) : Except Fault Bool := do
  if inner.isEmpty || inner.x < outer.x || inner.y < outer.y then return false
  if (← outer.right) < (← inner.right) then return false
  return decide ((← inner.bottom) ≤ (← outer.bottom))

/-- The common part; the empty rectangle at the origin if there is none. -/
def intersect (a b : Rect) : Except Fault Rect := do
  let x := max a.x b.x
  let y := max a.y b.y
  let right := min (← a.right) (← b.right)
  let bottom := min (← a.bottom) (← b.bottom)
  if right ≤ x || bottom ≤ y then return {}
  return ⟨x, y, ← Coord.sub right x, ← Coord.sub bottom y⟩

/-- The smallest rectangle around both; an empty one contributes nothing. -/
def union (a b : Rect) : Except Fault Rect := do
  if a.isEmpty then return b
  if b.isEmpty then return a
  let x := min a.x b.x
  let y := min a.y b.y
  let width ← Coord.sub (max (← a.right) (← b.right)) x
  let height ← Coord.sub (max (← a.bottom) (← b.bottom)) y
  return ⟨x, y, width, height⟩

/-- **The image under a transform**, as the smallest rectangle around the images of
the four corners. An image that is no number is passed over. -/
def mapEnclosing (r : Rect) (t : Transform) : Except Fault Rect := do
  if r.isEmpty then return {}
  let left := Grid.ofCoord r.x
  let top := Grid.ofCoord r.y
  let right := Grid.ofCoord (← r.right)
  let bottom := Grid.ofCoord (← r.bottom)
  let images :=
    [t.project left top, t.project right top, t.project left bottom, t.project right bottom]
  let x := Grid.floor ((images.map Prod.fst).foldl Grid.least Grid.largest)
  let y := Grid.floor ((images.map Prod.snd).foldl Grid.least Grid.largest)
  let width ← Coord.sub (Grid.ceil ((images.map Prod.fst).foldl Grid.greatest Grid.smallest)) x
  let height ← Coord.sub (Grid.ceil ((images.map Prod.snd).foldl Grid.greatest Grid.smallest)) y
  return ⟨x, y, width, height⟩

open Json in
/-- The record that a rectangle is in JSON. -/
def toJson (r : Rect) : Value :=
  .ofFields [("x", .int r.x.toInt), ("y", .int r.y.toInt),
    ("width", .int r.width.toInt), ("height", .int r.height.toInt)]

open Json in
/-- The rectangle that a record describes; every field has to be given. -/
def ofJson? (v : Value) : Option Rect :=
  match v.fields? ["x", "y", "width", "height"] false with
  | some [x, y, width, height] => do
    return { x := ← Value.required? Value.int32? x
             y := ← Value.required? Value.int32? y
             width := ← Value.required? Value.int32? width
             height := ← Value.required? Value.int32? height }
  | _ => none

end Rect

end Compositor
