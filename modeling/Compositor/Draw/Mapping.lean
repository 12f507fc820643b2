import Compositor.Geometry.Transform

/-!
# From texels to pixels

A textured draw moves the source rectangle to the origin, orients it, scales it to the size of the
target and moves it there. Target pixels find their texel through the inverse.
-/

namespace Compositor

open Scalar

/-- The map of a source rectangle, oriented by a transform, onto a target rectangle. -/
def textureToTarget {α : Type} [Scalar α] (t : Transform) (source target : Rect) : Affine α :=
  let (width, height) := t.size source.width source.height
  let stretch : Affine α := Affine.scale
    (ofCoord target.width / ofCoord width) (ofCoord target.height / ofCoord height)
  Affine.shift (ofCoord target.x) (ofCoord target.y) * stretch *
    t.toAffine (ofCoord source.width) (ofCoord source.height) *
    Affine.shift (-ofCoord source.x) (-ofCoord source.y)

/-- Whether a draw neither turns, mirrors nor scales. -/
def isPlainCopy (t : Transform) (source target : Rect) : Bool :=
  t = Transform.normal && source.width = target.width && source.height = target.height

end Compositor
