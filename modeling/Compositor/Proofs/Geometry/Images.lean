import Compositor.Proofs.Geometry.Corners

/-!
# Images of rectangles

The image of a rectangle under a transform is a rectangle again. On the rectangles inside an area
that cover something, transforms act as they act on the area.
-/

namespace Compositor

namespace Rect

/-- The rectangle lies in `[0, width] × [0, height]`. -/
def Inside (r : Rect) (width height : Coord) : Prop :=
  (0 ≤ r.x.toInt ∧ r.x.toInt + r.width.toInt ≤ width.toInt) ∧
    (0 ≤ r.y.toInt ∧ r.y.toInt + r.height.toInt ≤ height.toInt)

instance (r : Rect) (width height : Coord) : Decidable (r.Inside width height) :=
  inferInstanceAs (Decidable (_ ∧ _))

variable {r : Rect} {width height : Coord}

theorem Inside.exact (inside : r.Inside width height) : r.Exact := by
  obtain ⟨⟨-, right⟩, -, bottom⟩ := inside
  have := width.toInt_lt
  have := height.toInt_lt
  exact ⟨by omega, by omega⟩

/-- Both corners are corners of the area. -/
theorem Inside.corners (inside : r.Inside width height) (filled : r.isEmpty = false) :
    (0 ≤ r.low ∧ r.low ≤ (width.toInt, height.toInt)) ∧
      0 ≤ r.high ∧ r.high ≤ (width.toInt, height.toInt) := by
  have sides := sides_of_isEmpty_eq_false filled
  rw [inside.exact.high_eq sides.1.le sides.2.le]
  obtain ⟨⟨left, right⟩, top, bottom⟩ := inside
  simp only [low, Prod.le_def, Prod.fst_zero, Prod.snd_zero]
  omega

theorem inPlane_of_inside {p : Int × Int} (inside : 0 ≤ p ∧ p ≤ (width.toInt, height.toInt)) :
    InPlane p := by
  have := width.toInt_lt
  have := height.toInt_lt
  obtain ⟨⟨left, top⟩, right, bottom⟩ := inside
  simp only [Prod.fst_zero, Prod.snd_zero] at left top
  simp only [InPlane]
  omega

end Rect

namespace Transform

variable {r : Rect} {width height : Coord}

theorem isEmpty_of_size {t : Transform} {moved : Rect}
    (size : (moved.width, moved.height) = t.size r.width r.height) :
    moved.isEmpty = r.isEmpty := by
  cases sideways : t.sideways <;>
    simp only [Transform.size, sideways, Bool.false_eq_true, ↓reduceIte, Prod.mk.injEq] at size
  · simp only [Rect.isEmpty, size]
  · simp only [Rect.isEmpty, size]
    exact Bool.or_comm ..

/-- The sides of what lies between the images of two corners. -/
theorem sides_between_corners (t : Transform) (area p q : Int × Int) :
    ((t.corner area p ⊔ t.corner area q).1 - (t.corner area p ⊓ t.corner area q).1,
      (t.corner area p ⊔ t.corner area q).2 - (t.corner area p ⊓ t.corner area q).2) =
      t.size ((p ⊔ q).1 - (p ⊓ q).1) ((p ⊔ q).2 - (p ⊓ q).2) := by
  obtain ⟨flipped, turns⟩ := t
  obtain rfl | rfl | rfl | rfl := turns_eq turns <;> cases flipped
  all_goals
    simp [corner, cell, size, sideways] <;> omega

/-- The image of a rectangle inside an area that covers something: where it lies, and its sides. -/
theorem mapRect_inside (t : Transform) (inside : r.Inside width height)
    (filled : r.isEmpty = false) {p q : Int × Int}
    (low : t.corner (width.toInt, height.toInt) r.low = p)
    (high : t.corner (width.toInt, height.toInt) r.high = q) :
    ((t.mapRect Rat r width height).low = p ⊓ q ∧ (t.mapRect Rat r width height).high = p ⊔ q) ∧
    ((t.mapRect Rat r width height).width, (t.mapRect Rat r width height).height) =
      t.size r.width r.height ∧
    (t.mapRect Rat r width height).Inside (t.size width height).1 (t.size width height).2 := by
  have sides := Rect.sides_of_isEmpty_eq_false filled
  have corners := inside.corners filled
  have below := t.corner_inside corners.1
  have below' := t.corner_inside corners.2
  have ordered := inside.exact.low_le_high sides.1.le sides.2.le
  have extent := t.sides_between_corners (width.toInt, height.toInt) r.low r.high
  have image := t.mapRect_eq inside.exact sides.1.le sides.2.le width height
  generalize t.mapRect Rat r width height = moved at *
  rw [t.size_map Int32.toInt width height, low] at below
  rw [t.size_map Int32.toInt width height, high] at below'
  rw [low, high] at extent image
  have width_eq : r.high.1 - r.low.1 = r.width.toInt := by
    simp [inside.exact.high_eq sides.1.le sides.2.le, Rect.low]
  have height_eq : r.high.2 - r.low.2 = r.height.toInt := by
    simp [inside.exact.high_eq sides.1.le sides.2.le, Rect.low]
  rw [sup_eq_right.2 ordered, inf_eq_left.2 ordered, width_eq, height_eq,
    size_map Int32.toInt, Prod.mk.injEq] at extent
  have := (t.size r.width r.height).1.toInt_lt
  have := (t.size r.width r.height).2.toInt_lt
  obtain ⟨placed, width', height'⟩ := Rect.corners_between (Rect.inPlane_of_inside below)
    (Rect.inPlane_of_inside below') (by omega) (by omega)
  rw [← image] at placed width' height'
  refine ⟨placed, ?_, ?_⟩
  · rw [Prod.ext_iff, ← Int32.toInt_inj, ← Int32.toInt_inj]
    exact ⟨width'.trans extent.1, height'.trans extent.2⟩
  · have least := le_inf below.1 below'.1
    have most := sup_le below.2 below'.2
    rw [← placed.1] at least width' height'
    simp only [Prod.le_def, Prod.fst_zero, Prod.snd_zero, Rect.low] at least most width' height'
    simp only [Rect.Inside]
    omega

/-- A transform of an image is followed by another one as on the whole area. -/
theorem mapRect_mapRect (a b : Transform) (inside : r.Inside width height)
    (filled : r.isEmpty = false) :
    b.mapRect Rat (a.mapRect Rat r width height) (a.size width height).1 (a.size width height).2 =
      (a.andThen b).mapRect Rat r width height := by
  have sides := Rect.sides_of_isEmpty_eq_false filled
  obtain ⟨⟨low, high⟩, size, inside'⟩ := a.mapRect_inside inside filled rfl rfl
  obtain ⟨wide, tall⟩ := Rect.sides_of_isEmpty_eq_false ((isEmpty_of_size size).trans filled)
  calc b.mapRect Rat (a.mapRect Rat r width height) (a.size width height).1 (a.size width height).2
      = Rect.between
          (b.corner (a.size width.toInt height.toInt) (a.mapRect Rat r width height).low)
          (b.corner (a.size width.toInt height.toInt) (a.mapRect Rat r width height).high) := by
        rw [b.mapRect_eq inside'.exact wide.le tall.le, a.size_map Int32.toInt]
    _ = Rect.between
          (b.corner (a.size width.toInt height.toInt) (a.corner (width.toInt, height.toInt) r.low))
          (b.corner (a.size width.toInt height.toInt)
            (a.corner (width.toInt, height.toInt) r.high)) := by
        rw [low, high]
        exact Rect.between_congr (b.corner_inf_corner ..) (b.corner_sup_corner ..)
    _ = (a.andThen b).mapRect Rat r width height := by
        rw [(a.andThen b).mapRect_eq inside.exact sides.1.le sides.2.le]
        simp only [← corner_andThen]

/-- On rectangles that cover something, transforms act as on the area around them. The image of such
a rectangle lies in the transformed area and has the transformed size; two transforms in a row do
what their composition does; and the inverse transform brings the rectangle back. Floats compute
what rationals do. -/
theorem mapRect_action (a b : Transform) {r : Rect} {width height : Coord}
    (inside : r.Inside width height) (filled : r.isEmpty = false) :
    let area := a.size width height
    let moved := a.mapRect Float r width height
    moved.Inside area.1 area.2 ∧
    (moved.width, moved.height) = a.size r.width r.height ∧
    b.mapRect Float moved area.1 area.2 = (a.andThen b).mapRect Float r width height ∧
    a.inverse.mapRect Float moved area.1 area.2 = r ∧
    moved = a.mapRect Rat r width height := by
  simp only [mapRect_float]
  obtain ⟨-, size, inside'⟩ := a.mapRect_inside inside filled rfl rfl
  refine ⟨inside', size, a.mapRect_mapRect b inside filled, ?_, trivial⟩
  rw [a.mapRect_mapRect a.inverse inside filled, andThen_inverse]
  rfl

/-- A rectangle of three columns and four rows near the left edge of an area of ten columns and
twenty rows, mirrored and turned once, and then turned three times more. -/
theorem mirrored_rectangle_turns_back :
    let r : Rect := ⟨1, 2, 3, 4⟩
    (r.Inside 10 20 ∧ r.isEmpty = false) ∧
    let moved := (⟨true, 1⟩ : Transform).mapRect Float r 10 20
    moved.Inside 20 10 ∧ (moved.width, moved.height) = (4, 3) ∧
    (⟨false, 3⟩ : Transform).mapRect Float moved 20 10 =
      (⟨true, 0⟩ : Transform).mapRect Float r 10 20 ∧
    (⟨true, 1⟩ : Transform).mapRect Float moved 20 10 = r ∧
    moved = (⟨true, 1⟩ : Transform).mapRect Rat r 10 20 :=
  have inside : (⟨1, 2, 3, 4⟩ : Rect).Inside 10 20 := by decide
  have filled : (⟨1, 2, 3, 4⟩ : Rect).isEmpty = false := by decide
  ⟨⟨inside, filled⟩, mapRect_action ⟨true, 1⟩ ⟨false, 3⟩ inside filled⟩

end Transform

end Compositor
