import Compositor.Geometry.Coord

/-!
# Scalars

The number types that affine maps and sampling compute with. Machine floats run; the rationals are
the exact reading of the same definitions, and laws of geometry are stated on them.
-/

namespace Compositor

class Scalar (α : Type) extends Add α, Sub α, Mul α, Div α, Neg α where
  ofInt : Int → α
  /-- One half. -/
  half : α
  /-- Strict order, decided; false when a value is not a number. -/
  less : α → α → Bool
  /-- Order, decided; false when a value is not a number. -/
  atMost : α → α → Bool
  /-- The greatest integer below or at a value. -/
  floor : α → Int
  /-- The nearest integer; halves go away from zero. -/
  round : α → Int

namespace Scalar

variable {α : Type} [Scalar α]

def zero : α := ofInt 0

def one : α := ofInt 1

def ofCoord (c : Coord) : α := ofInt c.toInt

def lesser (x y : α) : α := if less y x then y else x

def greater (x y : α) : α := if less x y then y else x

/-- What is not a number is not even at or below itself. -/
def IsNumber (x : α) : Prop := atMost x x = true

/-- A value passes the tests for two coordinates: it is not below the one, and not at or above the
other. What is not a number passes them too. -/
def InRange (low high : Coord) (x : α) : Prop :=
  less x (ofCoord low) = false ∧ atMost (ofCoord high) x = false

/-- The byte nearest to a value; halves go up, and values outside the bytes go to the nearer end. -/
def toByte (x : α) : UInt8 := UInt8.ofNat (min (floor (x + half)).toNat 255)

/-- The integer as far from zero as a magnitude says, on the side of a float, and moved into the
coordinate range. -/
def signed (x : Float) (magnitude : Nat) : Int :=
  max (-2147483648) (min (if x < 0 then -magnitude else magnitude) 2147483647)

/-- Floors and roundings of floats stop at the ends of the coordinate range; what is not a number
counts as zero. The whole part of a magnitude fits 64 bits wherever it matters, and what is left of
the magnitude beside it is exact. -/
instance : Scalar Float where
  ofInt := Float.ofInt
  half := 0.5
  less x y := x < y
  atMost x y := x ≤ y
  floor x :=
    let whole := x.abs.toUInt64
    signed x (if x < 0 ∧ whole.toFloat < x.abs then whole.toNat + 1 else whole.toNat)
  round x :=
    let whole := x.abs.toUInt64
    signed x (if 0.5 ≤ x.abs - whole.toFloat then whole.toNat + 1 else whole.toNat)

instance : Scalar Rat where
  ofInt n := n
  half := 1 / 2
  less x y := x < y
  atMost x y := x ≤ y
  floor := Rat.floor
  round x := if 0 ≤ x then (x + 1 / 2).floor else -(-x + 1 / 2).floor

end Scalar

/-- Scalars whose floors keep to the tests for coordinates that are not negative. -/
class LawfulScalar (α : Type) [Scalar α] : Prop where
  /-- Whatever passes the tests has a floor between zero and the greater coordinate. -/
  floor_inside {x : α} {low high : Coord} (nonneg : 0 ≤ low.toInt) (some : 0 < high.toInt)
    (passed : Scalar.InRange low high x) : 0 ≤ Scalar.floor x ∧ Scalar.floor x < high.toInt
  /-- The floor of a number that passes them is not below the lesser coordinate either. -/
  le_floor {x : α} {low high : Coord} (nonneg : 0 ≤ low.toInt) (some : 0 < high.toInt)
    (passed : Scalar.InRange low high x) (number : Scalar.IsNumber x) :
    low.toInt ≤ Scalar.floor x

end Compositor
