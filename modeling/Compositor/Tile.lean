import Compositor.Surface

/-!
# Tiles

A tiled layer is drawn as quads, one per tile, each sampled from a texture. What all
quads of a layer have in common in a frame stands in a record of its own; two quads
are equal if their own parts and their common parts are, whether or not the common
record is the same one.
-/

namespace Compositor

/-- What the quads of a layer have in common in a frame. -/
structure SharedQuadState where
  transform : Transform := .identity
  visible : Rect
  /-- The clip in what the layer is drawn into. -/
  clipped : Rect
  opacity : Float32
  opaqueContents : Bool

namespace SharedQuadState

/-- The state of a layer that stays in place and is clipped to what is visible of it. -/
def ofVisible (visible : Rect) (opacity : Float32) (opaqueContents : Bool) : SharedQuadState :=
  { visible, clipped := visible, opacity, opaqueContents }

/-- Whether two states have equal parts; an opacity that is no number equals nothing. -/
protected def beq (a b : SharedQuadState) : Bool :=
  a.transform == b.transform && a.visible == b.visible && a.clipped == b.clipped
    && a.opacity == b.opacity && a.opaqueContents == b.opaqueContents

instance : BEq SharedQuadState := ⟨SharedQuadState.beq⟩

end SharedQuadState

/-- How a texture is sampled between its pixels. -/
inductive TextureFilter where
  | linear
  | nearest
  deriving DecidableEq, Repr

/-- The edges that are smoothed. -/
structure SmoothEdges where
  left : Bool := false
  top : Bool := false
  right : Bool := false
  bottom : Bool := false
  deriving DecidableEq, Repr

/-- Whether an edge is smoothed. -/
def SmoothEdges.any (e : SmoothEdges) : Bool := e.left || e.top || e.right || e.bottom

/-- One tile. -/
structure TileQuad where
  shared : SharedQuadState
  rect : Rect
  /-- The part of the tile that lets nothing through. -/
  opaqueRect : Rect
  resource : Nat
  offset : Int32 × Int32
  size : Int32 × Int32
  filter : TextureFilter := .linear
  swizzled : Bool := false
  edges : SmoothEdges := {}

namespace TileQuad

/-- Whether two tiles have equal parts. -/
protected def beq (a b : TileQuad) : Bool :=
  a.shared == b.shared && a.rect == b.rect && a.opaqueRect == b.opaqueRect
    && a.resource == b.resource && a.offset == b.offset && a.size == b.size
    && a.filter == b.filter && a.swizzled == b.swizzled && a.edges == b.edges

instance : BEq TileQuad := ⟨TileQuad.beq⟩

/-- Whether what is behind the tile shows through: it is drawn faintly, or it is not
opaque all over. -/
def needsBlending (q : TileQuad) : Except Fault Bool :=
  if q.shared.opacity < Transform.one then .ok true
  else (q.opaqueRect.contains q.rect).map (!·)

/-- The memory of the texture behind the tile. -/
def bytes (q : TileQuad) : Nat := textureBytes q.size.1 q.size.2

end TileQuad

/-- The bytes of the textures behind a list of tiles. -/
def tileMemory (tiles : List TileQuad) : Except Fault Nat := Word.sum (tiles.map TileQuad.bytes)

end Compositor
