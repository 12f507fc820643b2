import Compositor.Proofs.Draw.Mapping
import Compositor.Proofs.Geometry.WholeNumbers

/-!
# Floats read exactly

The affine maps of transforms have whole coefficients, and coordinates are whole numbers of 32 bits.
So nothing on the way from a rectangle to its image is rounded before the last step: the image that
floats compute is the one that rationals compute.
-/

namespace Compositor

namespace Double

open Float.Model Float.Model.UnpackedFloat

/-- A float and a rational are one whole number, whose magnitude is at most `k`. -/
def Reads (k : Nat) (x : Float) (y : Rat) : Prop :=
  ∃ n : Int, n.natAbs ≤ k ∧ Whole (unpacked x) n ∧ y = n

namespace Reads

variable {k l : Nat} {x x' : Float} {y y' : Rat}

theorem ofInt (few : a.natAbs ≤ k) (small : k < 2 ^ 53) :
    Reads k (Scalar.ofInt a) (Scalar.ofInt a) :=
  ⟨a, few, whole_ofInt (by omega), rfl⟩

theorem ofCoord (c : Coord) : Reads (2 ^ 31) (Scalar.ofCoord c) (Scalar.ofCoord c) := by
  have low := c.le_toInt
  have high := c.toInt_lt
  exact ofInt (by omega) (by norm_num)

theorem neg (reads : Reads k x y) : Reads k (-x) (-y) := by
  obtain ⟨n, few, whole, rfl⟩ := reads
  refine ⟨-n, by omega, ?_, by push_cast; rfl⟩
  have same : unpacked (-x) = UnpackedFloat.unpack .binary64
      (pack .binary64 (UnpackedFloat.neg (unpacked x))) := rfl
  rw [same, whole.neg.stored]
  exact whole.neg

theorem add (left : Reads k x y) (right : Reads l x' y') (small : k + l < 2 ^ 53) :
    Reads (k + l) (x + x') (y + y') := by
  obtain ⟨m, few, whole, rfl⟩ := left
  obtain ⟨n, few', whole', rfl⟩ := right
  have sum := whole.add whole' (by omega)
  refine ⟨m + n, by omega, ?_, by push_cast; rfl⟩
  have same : unpacked (x + x') = UnpackedFloat.unpack .binary64
      (pack .binary64 (UnpackedFloat.add .binary64 (unpacked x) (unpacked x'))) := rfl
  rw [same, sum.stored]
  exact sum

theorem mul (left : Reads k x y) (right : Reads l x' y') (small : k * l < 2 ^ 53) :
    Reads (k * l) (x * x') (y * y') := by
  obtain ⟨m, few, whole, rfl⟩ := left
  obtain ⟨n, few', whole', rfl⟩ := right
  have few'' : (m * n).natAbs ≤ k * l := Int.natAbs_mul m n ▸ Nat.mul_le_mul few few'
  have product := whole.mul whole' (by omega)
  refine ⟨m * n, few'', ?_, by push_cast; rfl⟩
  have same : unpacked (x * x') = UnpackedFloat.unpack .binary64
      (pack .binary64 (UnpackedFloat.mul .binary64 (unpacked x) (unpacked x'))) := rfl
  rw [same, product.stored]
  exact product

theorem less_eq (left : Reads k x y) (right : Reads l x' y') :
    Scalar.less x x' = Scalar.less y y' := by
  obtain ⟨m, -, whole, rfl⟩ := left
  obtain ⟨n, -, whole', rfl⟩ := right
  rw [Bool.eq_iff_iff]
  calc decide (x < x') = true ↔ x < x' := decide_eq_true_iff
    _ ↔ m < n := lt_iff_unpacked.trans (whole.lt_iff whole')
    _ ↔ (m : Rat) < n := Int.cast_lt.symm
    _ ↔ decide ((m : Rat) < n) = true := decide_eq_true_iff.symm

theorem lesser (left : Reads k x y) (right : Reads k x' y') :
    Reads k (Scalar.lesser x x') (Scalar.lesser y y') := by
  unfold Scalar.lesser
  rw [right.less_eq left]
  split
  · exact right
  · exact left

theorem greater (left : Reads k x y) (right : Reads k x' y') :
    Reads k (Scalar.greater x x') (Scalar.greater y y') := by
  unfold Scalar.greater
  rw [left.less_eq right]
  split
  · exact right
  · exact left

theorem saturate_round_eq (reads : Reads k x y) (small : k < 2 ^ 53) :
    Coord.saturate (Scalar.round x) = Coord.saturate (Scalar.round y) := by
  obtain ⟨n, few, whole, rfl⟩ := reads
  rw [saturate_round whole (by omega), Scalar.round_intCast]

end Reads

/-! ## Maps -/

/-- A map of floats and a map of rationals have the same whole numbers: factors of magnitudes up to
`l` and shifts of magnitudes up to `k`. -/
structure ReadsMap (l k : Nat) (m : Affine Float) (m' : Affine Rat) : Prop where
  a : Reads l m.a m'.a
  b : Reads l m.b m'.b
  c : Reads l m.c m'.c
  d : Reads l m.d m'.d
  e : Reads k m.e m'.e
  f : Reads k m.f m'.f

namespace ReadsMap

variable {k k' l l' : Nat} {m n : Affine Float} {m' n' : Affine Rat}

theorem mul (left : ReadsMap l k m m') (right : ReadsMap l' k' n n')
    (factors : l * l' + l * l' < 2 ^ 53) (shifts : l * k' + l * k' + k < 2 ^ 53) :
    ReadsMap (l * l' + l * l') (l * k' + l * k' + k) (m * n) (m' * n') where
  a := (left.a.mul right.a (by omega)).add (left.c.mul right.b (by omega)) factors
  b := (left.b.mul right.a (by omega)).add (left.d.mul right.b (by omega)) factors
  c := (left.a.mul right.c (by omega)).add (left.c.mul right.d (by omega)) factors
  d := (left.b.mul right.c (by omega)).add (left.d.mul right.d (by omega)) factors
  e := ((left.a.mul right.e (by omega)).add (left.c.mul right.f (by omega)) (by omega)).add left.e
    shifts
  f := ((left.b.mul right.e (by omega)).add (left.d.mul right.f (by omega)) (by omega)).add left.f
    shifts

variable {x y : Float} {x' y' : Rat}

theorem apply (map : ReadsMap l k m m') (across : Reads k' x x') (down : Reads k' y y')
    (small : l * k' + l * k' + k < 2 ^ 53) :
    Reads (l * k' + l * k' + k) (m.apply ⟨x, y⟩).x (m'.apply ⟨x', y'⟩).x ∧
      Reads (l * k' + l * k' + k) (m.apply ⟨x, y⟩).y (m'.apply ⟨x', y'⟩).y :=
  ⟨((map.a.mul across (by omega)).add (map.c.mul down (by omega)) (by omega)).add map.e small,
    ((map.b.mul across (by omega)).add (map.d.mul down (by omega)) (by omega)).add map.f small⟩

end ReadsMap

/-! ## Images of rectangles -/

theorem readsMap_toAffine (t : Transform) (width height : Coord) :
    ReadsMap 4 (5 * 2 ^ 31) (t.toAffine (Scalar.ofCoord width) (Scalar.ofCoord height))
      (t.toAffine (Scalar.ofCoord width) (Scalar.ofCoord height)) := by
  have one : Reads 1 Scalar.one Scalar.one := .ofInt (by decide) (by norm_num)
  have minus : Reads 1 (Scalar.ofInt (-1)) (Scalar.ofInt (-1)) := .ofInt (by decide) (by norm_num)
  have zero (k : Nat) (small : k < 2 ^ 53) : Reads k Scalar.zero Scalar.zero :=
    .ofInt (Nat.zero_le k) small
  have none := zero 1 (by norm_num)
  have origin := zero 0 (by norm_num)
  have side := zero (2 ^ 31) (by norm_num)
  have product {pivot turn mirror : Affine Float} {pivot' turn' mirror' : Affine Rat}
      (first : ReadsMap 1 (2 ^ 31) pivot pivot') (second : ReadsMap 1 0 turn turn')
      (third : ReadsMap 1 (2 ^ 31) mirror mirror') :
      ReadsMap 4 (5 * 2 ^ 31) (pivot * turn * mirror) (pivot' * turn' * mirror') :=
    (first.mul second (by norm_num) (by norm_num)).mul third (by norm_num) (by norm_num)
  have shift {x y : Float} {x' y' : Rat} (across : Reads (2 ^ 31) x x')
      (down : Reads (2 ^ 31) y y') : ReadsMap 1 (2 ^ 31) (.shift x y) (.shift x' y') :=
    ⟨one, none, none, one, across, down⟩
  obtain ⟨flipped, turns⟩ := t
  have mirror : ReadsMap 1 (2 ^ 31)
      (if flipped then ⟨Scalar.ofInt (-1), Scalar.zero, Scalar.zero, Scalar.one,
        Scalar.ofCoord width, Scalar.zero⟩ else Affine.identity)
      (if flipped then ⟨Scalar.ofInt (-1), Scalar.zero, Scalar.zero, Scalar.one,
        Scalar.ofCoord width, Scalar.zero⟩ else Affine.identity) := by
    cases flipped
    · exact ⟨one, none, none, one, side, side⟩
    · exact ⟨minus, none, none, one, .ofCoord width, side⟩
  obtain rfl | rfl | rfl | rfl := Transform.turns_eq turns
  · exact product (shift side side) ⟨one, none, none.neg, one, origin, origin⟩ mirror
  · exact product (shift (.ofCoord height) side) ⟨none, one, one.neg, none, origin, origin⟩ mirror
  · exact product (shift (.ofCoord width) (.ofCoord height))
      ⟨minus, none, none.neg, minus, origin, origin⟩ mirror
  · exact product (shift side (.ofCoord width)) ⟨none, minus, minus.neg, none, origin, origin⟩
      mirror

end Double

/-- The image of a rectangle is computed without rounding. -/
theorem Transform.mapRect_float (t : Transform) (r : Rect) (width height : Coord) :
    t.mapRect Float r width height = t.mapRect Rat r width height := by
  have map := Double.readsMap_toAffine t width height
  have corner (x y : Coord) := map.apply (.ofCoord x) (.ofCoord y) (by norm_num)
  have low_low := corner r.x r.y
  have low_high := corner r.x r.bottom
  have high_low := corner r.right r.y
  have high_high := corner r.right r.bottom
  unfold mapRect
  split
  · rfl
  · have left := ((low_low.1.lesser low_high.1).lesser
      (high_low.1.lesser high_high.1)).saturate_round_eq (by norm_num)
    have top := ((low_low.2.lesser low_high.2).lesser
      (high_low.2.lesser high_high.2)).saturate_round_eq (by norm_num)
    have right := ((low_low.1.greater low_high.1).greater
      (high_low.1.greater high_high.1)).saturate_round_eq (by norm_num)
    have bottom := ((low_low.2.greater low_high.2).greater
      (high_low.2.greater high_high.2)).saturate_round_eq (by norm_num)
    simp only [Affine.image, Rect.toBox]
    rw [left, top, right, bottom]

end Compositor
