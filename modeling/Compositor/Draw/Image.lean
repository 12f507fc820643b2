import Compositor.Draw.Options
import Compositor.Pixel.Bytes

/-!
# Images

An image is rows of pixels in a byte array. Reading and writing a pixel checks that it lies in the
array. Sampling reads the texel at a position, or the weighted mean of four around it, which are
moved into the rectangle that is sampled.
-/

namespace Compositor

structure Image where
  format : PixelFormat
  /-- Bytes from one row to the next. -/
  stride : Nat
  bytes : Array UInt8

namespace Image

/-- The offset of a pixel; the array holds none left of or above the origin. -/
def offset (image : Image) (p : Point) : Except Fault Nat :=
  if 0 ≤ p.x ∧ 0 ≤ p.y then
    .ok (p.y.toInt.toNat * image.stride + p.x.toInt.toNat * PixelFormat.bytesPerPixel)
  else .error .outOfBounds

def get (image : Image) (p : Point) : Except Fault Rgba8 := do
  image.format.read image.bytes (← image.offset p)

def set (image : Image) (p : Point) (c : Rgba8) : Except Fault Image := do
  return { image with bytes := ← image.format.write image.bytes (← image.offset p) c }

variable {α : Type} [Scalar α]

open Scalar

/-- The mean of four values, weighted by how far a position lies to the right and down. -/
def mix (right down : α) (p q s t : UInt8) : UInt8 :=
  let value (b : UInt8) : α := ofInt b.toNat
  toByte (value p * ((one - right) * (one - down)) + value q * (right * (one - down)) +
    value s * ((one - right) * down) + value t * (right * down))

/-- The mean of four colours, channel by channel. -/
def mixColors (right down : α) (p q s t : Rgba8) : Rgba8 where
  r := mix right down p.r q.r s.r t.r
  g := mix right down p.g q.g s.g t.g
  b := mix right down p.b q.b s.b t.b
  a := mix right down p.a q.a s.a t.a

/-- The column of the source rectangle nearest to an integer. -/
def column (source : Rect) (n : Int) : Coord :=
  Coord.clamp source.x (Coord.saturate (source.right.toInt - 1)) n

/-- The row of the source rectangle nearest to an integer. -/
def row (source : Rect) (n : Int) : Coord :=
  Coord.clamp source.y (Coord.saturate (source.bottom.toInt - 1)) n

/-- The colour at a position of the source rectangle; `none` outside of it. -/
def sample (image : Image) (source : Rect) (filter : Filter) (p : Position α) :
    Except Fault (Option Rgba8) :=
  if less p.x (ofCoord source.x) || less p.y (ofCoord source.y) ||
      atMost (ofCoord source.right) p.x || atMost (ofCoord source.bottom) p.y then
    .ok none
  else
    match filter with
    | .nearest => do
      return some (← image.get ⟨Coord.saturate (floor p.x), Coord.saturate (floor p.y)⟩)
    | .bilinear => do
      let x := p.x - half
      let y := p.y - half
      let left := column source (floor x)
      let next := column source (floor x + 1)
      let above := row source (floor y)
      let below := row source (floor y + 1)
      return some (mixColors (x - ofInt (floor x)) (y - ofInt (floor y))
        (← image.get ⟨left, above⟩) (← image.get ⟨next, above⟩)
        (← image.get ⟨left, below⟩) (← image.get ⟨next, below⟩))

end Image

end Compositor
