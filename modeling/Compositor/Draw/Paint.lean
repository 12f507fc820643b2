import Compositor.Draw.Image
import Compositor.Draw.Mapping

/-!
# Painting

A shade gives every point a source colour, or none where nothing is drawn. Painting a region visits
its points in order and blends each source colour into the destination. Textures are shaded in two
ways: by whole-number offsets where the draw is a plain copy, and otherwise through the inverse of
the map from texels to pixels.
-/

namespace Compositor

abbrev Shade := Point → Except Fault (Option Rgba8)

/-- Every point has the same colour. -/
def Shade.constant (c : Rgba8) : Shade := fun _ => .ok (some c)

namespace Image

/-- Blend the shade of one point into an image. -/
def paintPoint (mode : Blend) (shade : Shade) (image : Image) (p : Point) :
    Except Fault Image := do
  match ← shade p with
  | none => return image
  | some c => image.set p (mode.apply c (← image.get p))

/-- Blend a shade into the points of a region. -/
def paint (image : Image) (mode : Blend) (shade : Shade) (region : Region) :
    Except Fault Image :=
  region.points.foldlM (paintPoint mode shade) image

/-- The texel as far from the source's corner as the point is from the target's. -/
def copyShade (image : Image) (source target : Rect) (mask : UInt8) : Shade := fun p => do
  let dx ← Coord.exact .subtract (source.x.toInt - target.x.toInt)
  let dy ← Coord.exact .subtract (source.y.toInt - target.y.toInt)
  let x ← Coord.exact .add (p.x.toInt + dx.toInt)
  let y ← Coord.exact .add (p.y.toInt + dy.toInt)
  return some ((← image.get ⟨x, y⟩).mask mask)

/-- The sample at the position that the middle of the pixel comes from, computed in the scalars
`α`. -/
def mappedShade (α : Type) [Scalar α] (image : Image) (t : Transform) (source target : Rect)
    (filter : Filter) (mask : UInt8) : Shade := fun p => do
  let position : Position α := (textureToTarget t source target).inverse.apply p.center
  return (← image.sample source filter position).map (·.mask mask)

/-- The shade of a texture's source rectangle drawn onto a target box. -/
def textureShade (α : Type) [Scalar α] (image : Image) (t : Transform) (source target : Rect)
    (filter : Filter) (mask : UInt8) : Shade :=
  if isPlainCopy t source target then image.copyShade source target mask
  else image.mappedShade α t source target filter mask

end Image

/-- How a fill is blended: an opaque colour replaces what is below it. -/
def RectFill.effectiveBlend (fill : RectFill) : Blend :=
  if fill.blend = .premultiplied ∧ fill.color.quantize.a = 255 then .none else fill.blend

end Compositor
