import Compositor.Geometry.Rect

/-!
# Render surfaces

What a frame leaves behind for each surface it was drawn into: the surface's
content and where it goes, a second place for its reflection if it has one, and the
layers drawn into it. The records are complete once a frame is committed; everything
here reads them.
-/

namespace Compositor

/-- The texture memory of a rectangle of pixels, four bytes each. A side that is not
positive makes it nothing. -/
def textureBytes (width height : Int32) : Nat :=
  if width ≤ 0 || height ≤ 0 then 0 else width.toInt.natAbs * height.toInt.natAbs * 4

theorem textureBytes_lt (width height : Int32) : textureBytes width height < wordLimit := by
  unfold textureBytes wordLimit
  split
  · decide
  · next h =>
    simp only [Bool.or_eq_true, decide_eq_true_eq, not_or, Int32.not_le,
      Int32.lt_iff_toInt_lt, Int32.toInt_zero] at h
    have hw := width.toInt_lt
    have hh := height.toInt_lt
    have hle : width.toInt.natAbs * height.toInt.natAbs ≤ (2 ^ 31 - 1) * (2 ^ 31 - 1) :=
      Nat.mul_le_mul (by omega) (by omega)
    omega

/-- What was drawn of one layer. -/
structure LayerSnapshot where
  id : Nat
  /-- The layer in its own space. -/
  bounds : Rect
  screen : Transform := .identity
  /-- What was painted anew in this frame, in the layer's own space. -/
  updated : Rect := {}
  propertyChanged : Bool := false

/-- Where a layer is on the screen. -/
def LayerSnapshot.screenRect (layer : LayerSnapshot) : Except Fault Rect :=
  layer.bounds.mapEnclosing layer.screen

/-- Where the reflection of a surface goes. Either of the two may be given without the
other. -/
structure Replica where
  /-- From the surface to what it is drawn into. -/
  draw : Option Transform := none
  screen : Option Transform := none

/-- One surface of a frame. -/
structure RenderSurface where
  id : Nat
  content : Rect
  /-- From the surface to what it is drawn into. -/
  draw : Transform := .identity
  screen : Transform := .identity
  replica : Option Replica := none
  /-- An empty rectangle clips nothing. -/
  clip : Rect := {}
  layers : List LayerSnapshot := []
  hasBackgroundFilters : Bool := false
  /-- What changed in this frame, in the surface's space. -/
  damage : Rect := {}

namespace RenderSurface

/-- The name of a surface. -/
def name (s : RenderSurface) : String := "surface#" ++ toString s.id

/-- Whether the surface is clipped at all. -/
def isClipped (s : RenderSurface) : Bool := !s.clip.isEmpty

/-- From the surface to where its reflection is drawn, if that is given. -/
def replicaDraw (s : RenderSurface) : Option Transform := s.replica.bind Replica.draw

/-- From the surface to its reflection on the screen, if that is given. -/
def replicaScreen (s : RenderSurface) : Option Transform := s.replica.bind Replica.screen

/-- Whether a reflection of the surface is drawn. -/
def hasReplica (s : RenderSurface) : Bool := s.replicaDraw.isSome

/-- The area that the surface and its reflection cover in what they are drawn into. -/
def drawableRect (s : RenderSurface) : Except Fault Rect := do
  let drawn ← s.content.mapEnclosing s.draw
  match s.replicaDraw with
  | none => return drawn
  | some replica => drawn.union (← s.content.mapEnclosing replica)

/-- Where the surface is on the screen. -/
def screenRect (s : RenderSurface) : Except Fault Rect := s.content.mapEnclosing s.screen

/-- Where the reflection of the surface is on the screen, if it is anywhere, drawn or
not. -/
def replicaScreenRect (s : RenderSurface) : Option (Except Fault Rect) :=
  s.replicaScreen.map s.content.mapEnclosing

/-- The memory of the texture behind the surface. -/
def bytes (s : RenderSurface) : Nat := textureBytes s.content.width s.content.height

end RenderSurface

end Compositor
