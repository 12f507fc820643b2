import Compositor.Geometry.Scalar
import Compositor.Geometry.Rect

/-!
# Affine maps of the plane

A map sends `(x, y)` to `(a x + c y + e, b x + d y + f)`. Products apply the right factor first.
-/

namespace Compositor

/-- A position in the plane, between pixels too. -/
structure Position (α : Type) where
  x : α
  y : α
deriving DecidableEq

/-- The middle of a pixel. -/
def Point.center {α : Type} [Scalar α] (p : Point) : Position α :=
  ⟨Scalar.ofCoord p.x + Scalar.half, Scalar.ofCoord p.y + Scalar.half⟩

/-- An upright box between two corners. -/
structure Box (α : Type) where
  x0 : α
  y0 : α
  x1 : α
  y1 : α
deriving DecidableEq

/-- The box between a rectangle's edges. -/
def Rect.toBox {α : Type} [Scalar α] (r : Rect) : Box α :=
  ⟨Scalar.ofCoord r.x, Scalar.ofCoord r.y, Scalar.ofCoord r.right, Scalar.ofCoord r.bottom⟩

structure Affine (α : Type) where
  a : α
  b : α
  c : α
  d : α
  e : α
  f : α
deriving DecidableEq

namespace Affine

variable {α : Type} [Scalar α]

open Scalar

def identity : Affine α := ⟨one, zero, zero, one, zero, zero⟩

def shift (x y : α) : Affine α := ⟨one, zero, zero, one, x, y⟩

def scale (x y : α) : Affine α := ⟨x, zero, zero, y, zero, zero⟩

/-- First `n`, then `m`. -/
def mul (m n : Affine α) : Affine α where
  a := m.a * n.a + m.c * n.b
  b := m.b * n.a + m.d * n.b
  c := m.a * n.c + m.c * n.d
  d := m.b * n.c + m.d * n.d
  e := m.a * n.e + m.c * n.f + m.e
  f := m.b * n.e + m.d * n.f + m.f

instance : Mul (Affine α) := ⟨mul⟩

def apply (m : Affine α) (p : Position α) : Position α :=
  ⟨m.a * p.x + m.c * p.y + m.e, m.b * p.x + m.d * p.y + m.f⟩

/-- The inverse map; the determinant has to differ from zero. -/
def inverse (m : Affine α) : Affine α :=
  let inv := one / (m.a * m.d - m.b * m.c)
  { a := inv * m.d
    b := -inv * m.b
    c := -inv * m.c
    d := inv * m.a
    e := inv * (m.c * m.f - m.d * m.e)
    f := inv * (m.b * m.e - m.a * m.f) }

/-- The bounding box of a box's image: least and greatest coordinates of its four corners. -/
def image (m : Affine α) (box : Box α) : Box α :=
  let p := m.apply ⟨box.x0, box.y0⟩
  let q := m.apply ⟨box.x0, box.y1⟩
  let s := m.apply ⟨box.x1, box.y0⟩
  let t := m.apply ⟨box.x1, box.y1⟩
  { x0 := lesser (lesser p.x q.x) (lesser s.x t.x)
    y0 := lesser (lesser p.y q.y) (lesser s.y t.y)
    x1 := greater (greater p.x q.x) (greater s.x t.x)
    y1 := greater (greater p.y q.y) (greater s.y t.y) }

end Affine

end Compositor
