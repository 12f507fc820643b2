import Compositor.Buffer.Basic
import Compositor.Geometry.Region
import Compositor.Geometry.Transform

/-!
# What to draw

A draw names a source, a target box, an optional clip and how colours meet. Boxes and alpha that
are left out have defaults, which the `resolved` functions fill in.
-/

namespace Compositor

/-- The number in the unit interval that is nearest to `x`; what is not a number stays as it is. -/
def clampUnit (x : Float32) : Float32 := if x < 0 then 0 else if 1 < x then 1 else x

/-- The byte that stands for a fraction, rounded to nearest. -/
def fractionByte (x : Float32) : UInt8 := (clampUnit x * 255.0 + 0.5).toUInt8

/-- A premultiplied colour in fractions. -/
structure Color where
  r : Float32
  g : Float32
  b : Float32
  a : Float32

def Color.quantize (c : Color) : Rgba8 :=
  ⟨fractionByte c.r, fractionByte c.g, fractionByte c.b, fractionByte c.a⟩

inductive Filter where
  | bilinear
  | nearest
deriving DecidableEq, Repr

/-- A source of texels: a buffer, or something of a known size that no processor can read. -/
inductive Texture where
  | stored (buffer : Buffer)
  | remote (width height : UInt32)
deriving DecidableEq, Repr

namespace Texture

def width : Texture → UInt32
  | stored b => b.width
  | remote width _ => width

def height : Texture → UInt32
  | stored b => b.height
  | remote _ height => height

end Texture

structure TextureDraw where
  texture : Texture
  source : Box Float := ⟨0, 0, 0, 0⟩
  target : Rect := Rect.zero
  alpha : Option Float32 := none
  clip : Option Region := none
  transform : Transform := Transform.normal
  filter : Filter := .bilinear
  blend : Blend := .premultiplied

namespace TextureDraw

/-- The source box, or the whole texture if the box has no positive size. -/
def effectiveSource (d : TextureDraw) : Box Float :=
  let box := d.source
  if box.x1 - box.x0 ≤ 0 ∨ box.y1 - box.y0 ≤ 0 then
    ⟨0, 0, d.texture.width.toFloat, d.texture.height.toFloat⟩
  else box

/-- The target box; one without width and height takes the size of the texture. -/
def effectiveTarget (d : TextureDraw) : Rect :=
  if d.target.width = 0 ∧ d.target.height = 0 then
    { d.target with
      width := Coord.ofSize d.texture.width, height := Coord.ofSize d.texture.height }
  else d.target

def effectiveAlpha (d : TextureDraw) : Float32 := (d.alpha.map clampUnit).getD 1

/-- The byte by which the texture's colours are scaled. -/
def mask (d : TextureDraw) : UInt8 := fractionByte d.effectiveAlpha

/-- The whole texels that a source box stands for, as far as they lie in a texture of the given
size. Edges are rounded to nearest. -/
def sourceTexels (box : Box Float) (width height : UInt32) : Option Rect :=
  let (w, h) := (Coord.ofSize width, Coord.ofSize height)
  let edge (x : Float) (limit : Coord) : Coord := Coord.clamp 0 limit (Scalar.round x)
  (Rect.ofEdges (edge box.x0 w) (edge box.y0 h) (edge box.x1 w) (edge box.y1 h)).inter
    (Rect.ofSize w h)

end TextureDraw

structure RectFill where
  target : Rect
  color : Color
  clip : Option Region := none
  blend : Blend := .premultiplied

/-- A fill of a box that is not empty. -/
def RectFill.make? (target : Rect) (color : Color) : Option RectFill :=
  if target.isEmpty then none else some { target, color }

/-- The points of a target box that lie in the bounds and in the clip. -/
def covered (target bounds : Rect) (clip : Option Region) : Region :=
  match target.inter bounds with
  | none => Region.empty
  | some visible =>
    match clip with
    | none => Region.ofRect visible
    | some clip => (Region.ofRect visible).inter clip

end Compositor
