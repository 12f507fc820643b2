import Compositor.Proofs.Geometry.Exact
import Compositor.Proofs.Geometry.Orientation
import Compositor.Proofs.Region.Counting

/-!
# Corners

A rectangle lies between two opposite corners. A transform moves corners to corners, and the image
of the rectangle is what lies between them. The corners of the pixels of an area are the cells of a
grid with one more column and one more row, so what is known of cells is known of corners.
-/

namespace Compositor

open Scalar

/-! ## Corners of rectangles -/

namespace Rect

/-- The corner with the least coordinates. -/
def low (r : Rect) : Int × Int := (r.x.toInt, r.y.toInt)

/-- The opposite corner, which is not below if no side is negative. -/
def high (r : Rect) : Int × Int := (r.right.toInt, r.bottom.toInt)

/-- The rectangle between two opposite corners. -/
def between (p q : Int × Int) : Rect :=
  ofEdges (Coord.saturate (p ⊓ q).1) (Coord.saturate (p ⊓ q).2) (Coord.saturate (p ⊔ q).1)
    (Coord.saturate (p ⊔ q).2)

theorem between_congr {p q p' q' : Int × Int} (low : p ⊓ q = p' ⊓ q') (high : p ⊔ q = p' ⊔ q') :
    between p q = between p' q' := by
  rw [between, between, low, high]

theorem Exact.high_eq {r : Rect} (exact : r.Exact) (wide : 0 ≤ r.width.toInt)
    (tall : 0 ≤ r.height.toInt) :
    r.high = (r.x.toInt + r.width.toInt, r.y.toInt + r.height.toInt) := by
  obtain ⟨right, bottom⟩ := exact
  have := r.x.le_toInt
  have := r.y.le_toInt
  simp only [high, toInt_right, toInt_bottom, Prod.mk.injEq]
  omega

theorem Exact.low_le_high {r : Rect} (exact : r.Exact) (wide : 0 ≤ r.width.toInt)
    (tall : 0 ≤ r.height.toInt) : r.low ≤ r.high := by
  rw [exact.high_eq wide tall, low, Prod.mk_le_mk]
  omega

theorem between_low_high {r : Rect} (exact : r.Exact) (wide : 0 ≤ r.width.toInt)
    (tall : 0 ≤ r.height.toInt) : between r.low r.high = r := by
  have ordered := exact.low_le_high wide tall
  have corner := exact.high_eq wide tall
  simp only [high, Prod.mk.injEq] at corner
  have := r.width.toInt_lt
  have := r.height.toInt_lt
  have width : Coord.sub r.right r.x = r.width := by
    rw [← Int32.toInt_inj, Coord.toInt_sub]
    omega
  have height : Coord.sub r.bottom r.y = r.height := by
    rw [← Int32.toInt_inj, Coord.toInt_sub]
    omega
  rw [between, inf_eq_left.2 ordered, sup_eq_right.2 ordered]
  simp only [low, high, Coord.saturate_toInt, ofEdges, width, height]

/-- A corner has coordinates. -/
def InPlane (p : Int × Int) : Prop :=
  (-2147483648 ≤ p.1 ∧ p.1 ≤ 2147483647) ∧ (-2147483648 ≤ p.2 ∧ p.2 ≤ 2147483647)

instance (p : Int × Int) : Decidable (InPlane p) := inferInstanceAs (Decidable (_ ∧ _))

/-- Between corners that are not too far apart, the rectangle has the corners and the sides that it
should have. -/
theorem corners_between {p q : Int × Int} (inPlane : InPlane p) (inPlane' : InPlane q)
    (wide : (p ⊔ q).1 - (p ⊓ q).1 ≤ 2147483647) (tall : (p ⊔ q).2 - (p ⊓ q).2 ≤ 2147483647) :
    ((between p q).low = p ⊓ q ∧ (between p q).high = p ⊔ q) ∧
      (between p q).width.toInt = (p ⊔ q).1 - (p ⊓ q).1 ∧
      (between p q).height.toInt = (p ⊔ q).2 - (p ⊓ q).2 := by
  simp only [InPlane] at inPlane inPlane'
  simp only [Prod.fst_sup, Prod.fst_inf, Prod.snd_sup, Prod.snd_inf] at wide tall
  simp only [low, high, between, Prod.ext_iff, toInt_right, toInt_bottom, ofEdges, Coord.toInt_sub,
    Coord.toInt_saturate, Prod.fst_sup, Prod.fst_inf, Prod.snd_sup, Prod.snd_inf]
  omega

end Rect

/-! ## Corners of images -/

namespace Transform

/-- Where a corner goes. -/
def corner (t : Transform) (area p : Int × Int) : Int × Int :=
  t.cell (area.1 + 1) (area.2 + 1) p.1 p.2

variable {area p q : Int × Int}

theorem toAffine_apply_corner (t : Transform) (area p : Int × Int) :
    (t.toAffine (area.1 : Rat) (area.2 : Rat)).apply ⟨p.1, p.2⟩ =
      ⟨(t.corner area p).1, (t.corner area p).2⟩ := by
  obtain ⟨flipped, turns⟩ := t
  simp only [toAffine, rotation, corner, cell, Affine.apply_mul]
  obtain rfl | rfl | rfl | rfl := turns_eq turns <;> cases flipped
  all_goals
    simp only [↓reduceIte, Bool.false_eq_true, Affine.apply, Affine.identity, Affine.shift, one,
      zero, ofInt, Position.mk.injEq]
    push_cast
    constructor <;> ring

theorem corner_normal (area p : Int × Int) : normal.corner area p = p := rfl

/-- Two transforms in a row move corners like their composition. -/
theorem corner_andThen (a b : Transform) (area p : Int × Int) :
    b.corner (a.size area.1 area.2) (a.corner area p) = (a.andThen b).corner area p := by
  have product := b.continues a (area.1 : Rat) (area.2 : Rat)
  rw [size_intCast] at product
  have moved := congrArg (Affine.apply · (⟨p.1, p.2⟩ : Position Rat)) product
  simp only [Affine.apply_mul, toAffine_apply_corner, Position.mk.injEq, Int.cast_inj] at moved
  exact Prod.ext moved.1 moved.2

/-- A corner of the area goes to a corner of the transformed area. -/
theorem corner_inside (t : Transform) (inside : 0 ≤ p ∧ p ≤ area) :
    0 ≤ t.corner area p ∧ t.corner area p ≤ t.size area.1 area.2 := by
  obtain ⟨⟨left, top⟩, right, bottom⟩ := inside
  obtain ⟨flipped, turns⟩ := t
  obtain rfl | rfl | rfl | rfl := turns_eq turns <;> cases flipped
  all_goals
    simp only [Prod.fst_zero, Prod.snd_zero] at left top
    simp [corner, cell, size, sideways, Prod.le_def]
    omega

/-- What lies between two corners has its image between their images, whichever they are. -/
theorem corner_inf_corner (t : Transform) (area p q : Int × Int) :
    t.corner area (p ⊓ q) ⊓ t.corner area (p ⊔ q) = t.corner area p ⊓ t.corner area q := by
  obtain ⟨flipped, turns⟩ := t
  obtain rfl | rfl | rfl | rfl := turns_eq turns <;> cases flipped
  all_goals
    simp [corner, cell, Prod.ext_iff] <;> omega

theorem corner_sup_corner (t : Transform) (area p q : Int × Int) :
    t.corner area (p ⊓ q) ⊔ t.corner area (p ⊔ q) = t.corner area p ⊔ t.corner area q := by
  obtain ⟨flipped, turns⟩ := t
  obtain rfl | rfl | rfl | rfl := turns_eq turns <;> cases flipped
  all_goals
    simp [corner, cell, Prod.ext_iff] <;> omega

/-! ## Images of rectangles -/

variable {r : Rect} {width height : Coord}

theorem lesser_intCast (m n : Int) : lesser (m : Rat) (n : Rat) = ((m ⊓ n : Int) : Rat) := by
  simp only [lesser, less, decide_eq_true_eq, Int.cast_lt]
  split <;> congr 1 <;> omega

theorem greater_intCast (m n : Int) : greater (m : Rat) (n : Rat) = ((m ⊔ n : Int) : Rat) := by
  simp only [greater, less, decide_eq_true_eq, Int.cast_lt]
  split <;> congr 1 <;> omega

/-- Every transform but the identity makes a rectangle anew, between the images of two opposite
corners. -/
theorem mapRect_of_ne_normal {t : Transform} (moving : t ≠ normal) (r : Rect)
    (width height : Coord) : t.mapRect Rat r width height =
      Rect.between (t.corner (width.toInt, height.toInt) r.low)
        (t.corner (width.toInt, height.toInt) r.high) := by
  have apply (x y : Int) := t.toAffine_apply_corner (width.toInt, height.toInt) (x, y)
  simp only [mapRect, if_neg moving, Affine.image, Rect.toBox, ofCoord, ofInt, apply,
    lesser_intCast, greater_intCast, round_intCast]
  -- Each coordinate of an image depends on one coordinate only, so two of the four corners do.
  obtain ⟨flipped, turns⟩ := t
  obtain rfl | rfl | rfl | rfl := turns_eq turns <;> cases flipped
  all_goals
    simp only [corner, cell, Rect.between, Rect.low, Rect.high, Prod.fst_inf, Prod.snd_inf,
      Prod.fst_sup, Prod.snd_sup, inf_idem, sup_idem, Bool.false_eq_true, ↓reduceIte]

/-- A rectangle whose edges are in order has its image between the images of its corners. -/
theorem mapRect_eq (t : Transform) (exact : r.Exact) (wide : 0 ≤ r.width.toInt)
    (tall : 0 ≤ r.height.toInt) (width height : Coord) : t.mapRect Rat r width height =
      Rect.between (t.corner (width.toInt, height.toInt) r.low)
        (t.corner (width.toInt, height.toInt) r.high) := by
  by_cases same : t = normal
  · rw [same, corner_normal, corner_normal, Rect.between_low_high exact wide tall]
    rfl
  · exact mapRect_of_ne_normal same r width height

end Transform

end Compositor
