import Compositor.Surface

/-!
# The memory of a frame

A frame lists its surfaces with the root first. The root is drawn straight to the
device and has no texture; every other surface has one. A surface with background
filters reads what is behind it, and for all of those together the frame holds one
more texture as large as the largest of them, and one copy of the whole viewport.
-/

namespace Compositor

/-- What has been counted so far. -/
structure FrameMemory where
  /-- The copy of the viewport, once a filter has asked for it. -/
  readback : Nat := 0
  /-- The largest surface with background filters. -/
  background : Nat := 0
  /-- All surfaces. -/
  contents : Nat := 0
  deriving DecidableEq, Repr

namespace FrameMemory

/-- Counts one more surface, for a viewport whose copy takes `viewport` bytes. -/
def addSurface (viewport : Nat) (m : FrameMemory) (s : RenderSurface) :
    Except Fault FrameMemory := do
  let contents ← Word.add m.contents s.bytes
  if s.hasBackgroundFilters then
    return { readback := if m.readback = 0 then viewport else m.readback
             background := max m.background s.bytes
             contents }
  else return { m with contents }

/-- The bytes counted, all together. -/
def total (m : FrameMemory) : Except Fault Nat := do
  Word.add (← Word.add m.readback m.background) m.contents

end FrameMemory

/-- **The bytes needed for the surfaces of a frame**, root first, on a viewport of the
given size. -/
def surfaceMemory (surfaces : List RenderSurface) (width height : Int32) : Except Fault Nat := do
  let counted ← (surfaces.drop 1).foldlM (FrameMemory.addSurface (textureBytes width height)) {}
  counted.total

end Compositor
