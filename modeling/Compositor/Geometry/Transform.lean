import Compositor.Geometry.Grid

/-!
# Transforms

A transform is a matrix of four columns in single precision. A point of the plane
is taken as `(x, y, 0, 1)`; its image is divided by its last component. The sum is
formed column by column in a fixed order, and the column of the missing depth takes
part with the factor zero – an infinite entry there therefore spoils the image.
-/

namespace Compositor

/-- Four numbers of single precision. -/
structure Vec4 where
  x : Float32
  y : Float32
  z : Float32
  w : Float32
  deriving DecidableEq

namespace Vec4

/-- The sum, component by component. -/
protected def add (a b : Vec4) : Vec4 := ⟨a.x + b.x, a.y + b.y, a.z + b.z, a.w + b.w⟩

/-- Every component times the same factor. -/
def scale (a : Vec4) (k : Float32) : Vec4 := ⟨a.x * k, a.y * k, a.z * k, a.w * k⟩

instance : Add Vec4 := ⟨Vec4.add⟩

/-- Whether two columns have equal components; what is no number equals nothing. -/
protected def beq (a b : Vec4) : Bool := a.x == b.x && a.y == b.y && a.z == b.z && a.w == b.w

instance : BEq Vec4 := ⟨Vec4.beq⟩

end Vec4

/-- A matrix by columns: the images of the three axes and of the origin. -/
structure Transform where
  xAxis : Vec4
  yAxis : Vec4
  zAxis : Vec4
  origin : Vec4
  deriving DecidableEq

namespace Transform

/-- Zero in single precision. -/
def zero : Float32 := Float32.ofBits 0

/-- One in single precision. -/
def one : Float32 := Float32.ofBits 0x3F800000

/-- The transform that scales each axis by a factor. -/
def scaling (x y z : Float32) : Transform where
  xAxis := ⟨x, zero, zero, zero⟩
  yAxis := ⟨zero, y, zero, zero⟩
  zAxis := ⟨zero, zero, z, zero⟩
  origin := ⟨zero, zero, zero, one⟩

/-- The transform that leaves everything in place. -/
def identity : Transform := scaling one one one

/-- The transform that moves everything by the same amount. -/
def shift (x y z : Float32) : Transform := { identity with origin := ⟨x, y, z, one⟩ }

instance : Inhabited Transform := ⟨identity⟩

/-- Whether two transforms have equal entries. -/
protected def beq (s t : Transform) : Bool :=
  s.xAxis == t.xAxis && s.yAxis == t.yAxis && s.zAxis == t.zAxis && s.origin == t.origin

instance : BEq Transform := ⟨Transform.beq⟩

/-- The image of a column. -/
def apply (t : Transform) (v : Vec4) : Vec4 :=
  t.xAxis.scale v.x + t.yAxis.scale v.y + t.zAxis.scale v.z + t.origin.scale v.w

/-- First the second transform, then the first. -/
def after (s t : Transform) : Transform :=
  ⟨s.apply t.xAxis, s.apply t.yAxis, s.apply t.zAxis, s.apply t.origin⟩

/-- The image of a point of the plane, in the plane. -/
def project (t : Transform) (x y : Float32) : Float32 × Float32 :=
  let image := t.xAxis.scale x
  let image := t.yAxis.scale y + image
  let image := t.zAxis.scale zero + image
  let image := t.origin + image
  (image.x / image.w, image.y / image.w)

end Transform

end Compositor
