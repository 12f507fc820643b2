import Compositor.Geometry.Affine

/-!
# The eight transforms of an image

A transform mirrors an image left to right, or does not, and then turns it clockwise by quarter
turns. Its affine map has whole coefficients, because the sine and cosine of a quarter turn are
`0`, `1` or `-1`.
-/

namespace Compositor

structure Transform where
  flipped : Bool
  turns : Fin 4
deriving DecidableEq, Repr, Inhabited

namespace Transform

def normal : Transform := ⟨false, 0⟩

def mirror : Transform := ⟨true, 0⟩

/-- One quarter turn. -/
def quarter : Transform := ⟨false, 1⟩

/-- The transform of a wire number: the low two bits count the turns, the third is the mirror. -/
def ofNumber? (n : Nat) : Option Transform :=
  if n < 8 then some ⟨n / 4 == 1, Fin.ofNat 4 n⟩ else none

def number (t : Transform) : Nat := (if t.flipped then 4 else 0) + t.turns.val

theorem ofNumber?_number (t : Transform) : ofNumber? t.number = some t := by
  obtain ⟨flipped, turns⟩ := t
  revert flipped turns
  decide

def name (t : Transform) : String :=
  match t.flipped, t.turns with
  | false, 0 => "Normal"
  | false, 1 => "Rotate90"
  | false, 2 => "Rotate180"
  | false, 3 => "Rotate270"
  | true, 0 => "Flipped"
  | true, 1 => "Flipped90"
  | true, 2 => "Flipped180"
  | true, 3 => "Flipped270"

/-- Whether width and height change places. -/
def sideways (t : Transform) : Bool := t.turns.val % 2 == 1

/-- The transform that undoes this one: a mirrored image turns back by the same turns. -/
def inverse (t : Transform) : Transform := ⟨t.flipped, if t.flipped then t.turns else -t.turns⟩

/-- First `t`, then `next`. A mirror reverses the turns made before it. -/
def andThen (t next : Transform) : Transform where
  flipped := t.flipped != next.flipped
  turns := if next.flipped then next.turns - t.turns else next.turns + t.turns

/-- The size of an image of the given size after the transform. -/
def size {β : Type} (t : Transform) (width height : β) : β × β :=
  if t.sideways then (height, width) else (width, height)

variable {α : Type} [Scalar α]

open Scalar

/-- Cosine and sine of the turns. -/
def rotation (t : Transform) : α × α :=
  match t.turns with
  | 0 => (one, zero)
  | 1 => (zero, one)
  | 2 => (ofInt (-1), zero)
  | 3 => (zero, ofInt (-1))

/-- The map of a `width × height` image onto its transformed image: the mirror, the turn about the
origin, and the shift that brings the turned image back to the origin. -/
def toAffine (t : Transform) (width height : α) : Affine α :=
  let mirror : Affine α :=
    if t.flipped then ⟨ofInt (-1), zero, zero, one, width, zero⟩ else Affine.identity
  let (cos, sin) : α × α := t.rotation
  let turn : Affine α := ⟨cos, sin, -sin, cos, zero, zero⟩
  let pivot : Affine α :=
    match t.turns with
    | 0 => Affine.shift zero zero
    | 1 => Affine.shift height zero
    | 2 => Affine.shift width height
    | 3 => Affine.shift zero width
  pivot * turn * mirror

/-- Where a rectangle of a `width × height` area goes, computed in the scalars `α`. -/
def mapRect (α : Type) [Scalar α] (t : Transform) (r : Rect) (width height : Coord) : Rect :=
  if t = normal then r
  else
    let box := (t.toAffine (ofCoord width : α) (ofCoord height)).image r.toBox
    Rect.ofEdges (Coord.saturate (round box.x0)) (Coord.saturate (round box.y0))
      (Coord.saturate (round box.x1)) (Coord.saturate (round box.y1))

end Transform

end Compositor
