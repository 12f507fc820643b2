import Compositor.Proofs.Draw.Mapping
import Compositor.Proofs.Geometry.Orientation
import Mathlib.Tactic.Linarith

/-!
# Stretching

Seen from the unit square, a draw does nothing but orient it: the map from texels to pixels sends
the place of a point in the source to the place in the target that the transform sends the point to.
So the source goes onto the target, whatever their sizes, and what lies between the edges of the
target comes from between the edges of the source.
-/

namespace Compositor

open Scalar

/-- The positions between the edges of a rectangle and on them; no edge is cut off here. -/
def Rect.extent (r : Rect) : Set (Position Rat) :=
  {p | ((r.x.toInt : Rat) ≤ p.x ∧ p.x ≤ r.x.toInt + r.width.toInt) ∧
    ((r.y.toInt : Rat) ≤ p.y ∧ p.y ≤ r.y.toInt + r.height.toInt)}

/-- The positions between the edges. -/
def Rect.interior (r : Rect) : Set (Position Rat) :=
  {p | ((r.x.toInt : Rat) < p.x ∧ p.x < r.x.toInt + r.width.toInt) ∧
    ((r.y.toInt : Rat) < p.y ∧ p.y < r.y.toInt + r.height.toInt)}

/-- The place in a rectangle of a point of the unit square. -/
def Rect.place (r : Rect) (q : Position Rat) : Position Rat :=
  ⟨r.x.toInt + r.width.toInt * q.x, r.y.toInt + r.height.toInt * q.y⟩

/-- The unit square, with its edges. -/
def unitSquare : Set (Position Rat) := {q | (0 ≤ q.x ∧ q.x ≤ 1) ∧ (0 ≤ q.y ∧ q.y ≤ 1)}

/-- The unit square without its edges. -/
def openSquare : Set (Position Rat) := {q | (0 < q.x ∧ q.x < 1) ∧ (0 < q.y ∧ q.y < 1)}

namespace Transform

/-! ## The unit square -/

/-- Where a transform sends a point of the unit square. -/
def orient (t : Transform) (q : Position Rat) : Position Rat :=
  let x := if t.flipped then 1 - q.x else q.x
  match t.turns with
  | 0 => ⟨x, q.y⟩
  | 1 => ⟨1 - q.y, x⟩
  | 2 => ⟨1 - x, 1 - q.y⟩
  | 3 => ⟨q.y, 1 - x⟩

theorem orient_inverse (t : Transform) (q : Position Rat) : t.orient (t.inverse.orient q) = q := by
  have negated : (-0 : Fin 4) = 0 ∧ (-1 : Fin 4) = 3 ∧ (-2 : Fin 4) = 2 ∧ (-3 : Fin 4) = 1 := by
    decide
  obtain ⟨flipped, turns⟩ := t
  obtain rfl | rfl | rfl | rfl := turns_eq turns <;> cases flipped <;>
    simp [orient, inverse, negated]

theorem orient_mem_unitSquare (t : Transform) {q : Position Rat} (mem : q ∈ unitSquare) :
    t.orient q ∈ unitSquare := by
  obtain ⟨⟨left, right⟩, above, below⟩ := mem
  obtain ⟨flipped, turns⟩ := t
  obtain rfl | rfl | rfl | rfl := turns_eq turns <;> cases flipped <;>
    refine ⟨⟨?_, ?_⟩, ?_, ?_⟩ <;> simp [orient] <;> linarith

theorem orient_mem_openSquare (t : Transform) {q : Position Rat} (mem : q ∈ openSquare) :
    t.orient q ∈ openSquare := by
  obtain ⟨⟨left, right⟩, above, below⟩ := mem
  obtain ⟨flipped, turns⟩ := t
  obtain rfl | rfl | rfl | rfl := turns_eq turns <;> cases flipped <;>
    refine ⟨⟨?_, ?_⟩, ?_, ?_⟩ <;> simp [orient] <;> linarith

/-- The map of an image sends a place of the image to a place of the transformed image. -/
theorem toAffine_apply_orient (t : Transform) (width height : Rat) (q : Position Rat) :
    (t.toAffine width height).apply ⟨width * q.x, height * q.y⟩ =
      ⟨(t.size width height).1 * (t.orient q).x, (t.size width height).2 * (t.orient q).y⟩ := by
  have sizes (flipped : Bool) : size ⟨flipped, 0⟩ width height = (width, height) ∧
      size ⟨flipped, 1⟩ width height = (height, width) ∧
      size ⟨flipped, 2⟩ width height = (width, height) ∧
      size ⟨flipped, 3⟩ width height = (height, width) := by simp [size, sideways]
  obtain ⟨flipped, turns⟩ := t
  simp only [toAffine, rotation, Affine.apply_mul]
  obtain rfl | rfl | rfl | rfl := turns_eq turns <;> cases flipped
  all_goals
    simp only [↓reduceIte, Bool.false_eq_true, Affine.apply, Affine.identity, Affine.shift, one,
      zero, ofInt, Position.mk.injEq, orient, sizes]
    push_cast
    constructor <;> ring

end Transform

/-! ## From rectangle to rectangle -/

namespace Rect

variable {r : Rect} {p : Position Rat}

theorem sides_pos (filled : ¬ r.isEmpty) :
    (0 : Rat) < r.width.toInt ∧ (0 : Rat) < r.height.toInt := by
  rw [isEmpty_iff, not_or, not_le, not_le] at filled
  exact_mod_cast filled

/-- Every position is the place of a point, in a rectangle that is not empty. -/
theorem exists_place (filled : ¬ r.isEmpty) (p : Position Rat) : ∃ q, r.place q = p := by
  obtain ⟨wide, high⟩ := sides_pos filled
  refine ⟨⟨(p.x - r.x.toInt) / r.width.toInt, (p.y - r.y.toInt) / r.height.toInt⟩, ?_⟩
  rw [place, mul_div_cancel₀ _ wide.ne', mul_div_cancel₀ _ high.ne', add_sub_cancel, add_sub_cancel]

/-- The extent of a rectangle is the unit square, put in its place. -/
theorem place_mem_extent (filled : ¬ r.isEmpty) {q : Position Rat} :
    r.place q ∈ r.extent ↔ q ∈ unitSquare := by
  obtain ⟨wide, high⟩ := sides_pos filled
  simp only [extent, unitSquare, place, Set.mem_ofPred_eq, le_add_iff_nonneg_right,
    add_le_add_iff_left, mul_nonneg_iff_of_pos_left wide, mul_nonneg_iff_of_pos_left high,
    mul_le_iff_le_one_right wide, mul_le_iff_le_one_right high]

theorem place_mem_interior (filled : ¬ r.isEmpty) {q : Position Rat} :
    r.place q ∈ r.interior ↔ q ∈ openSquare := by
  obtain ⟨wide, high⟩ := sides_pos filled
  simp only [interior, openSquare, place, Set.mem_ofPred_eq, lt_add_iff_pos_right,
    add_lt_add_iff_left, mul_pos_iff_of_pos_left wide, mul_pos_iff_of_pos_left high,
    mul_lt_iff_lt_one_right wide, mul_lt_iff_lt_one_right high]

/-- The middle of a pixel of a rectangle lies between its edges. -/
theorem center_mem_interior {x : Point} (inside : r.contains x) :
    (x.center : Position Rat) ∈ r.interior := by
  obtain ⟨left, right, top, bottom⟩ := offset_of_contains inside
  have left : (r.x.toInt : Rat) ≤ x.x.toInt := by exact_mod_cast Int.sub_nonneg.1 left
  have top : (r.y.toInt : Rat) ≤ x.y.toInt := by exact_mod_cast Int.sub_nonneg.1 top
  have right : (x.x.toInt : Rat) + 1 ≤ r.x.toInt + r.width.toInt := by exact_mod_cast (by omega)
  have bottom : (x.y.toInt : Rat) + 1 ≤ r.y.toInt + r.height.toInt := by exact_mod_cast (by omega)
  simp only [interior, Set.mem_ofPred_eq, Point.center, ofCoord, ofInt, half]
  refine ⟨⟨?_, ?_⟩, ?_, ?_⟩ <;> linarith

end Rect

section

variable (t : Transform) {source target : Rect} {p : Position Rat}

/-- The sides of the transformed source are not zero. -/
theorem Transform.size_ne_zero (filled : ¬ source.isEmpty) :
    ((t.size source.width source.height).1.toInt : Rat) ≠ 0 ∧
      ((t.size source.width source.height).2.toInt : Rat) ≠ 0 := by
  obtain ⟨wide, high⟩ := Rect.sides_pos filled
  unfold size
  split
  · exact ⟨high.ne', wide.ne'⟩
  · exact ⟨wide.ne', high.ne'⟩

/-- The map of a draw sends a place in the source to the oriented place in the target. -/
theorem textureToTarget_apply_place (filled : ¬ source.isEmpty) (q : Position Rat) :
    (textureToTarget t source target : Affine Rat).apply (source.place q) =
      target.place (t.orient q) := by
  have cornered : (Affine.shift (-ofCoord source.x) (-ofCoord source.y) : Affine Rat).apply
      (source.place q) = ⟨source.width.toInt * q.x, source.height.toInt * q.y⟩ := by
    simp only [Affine.apply_shift, Rect.place, ofCoord, ofInt, Position.mk.injEq]
    constructor <;> ring
  have oriented := t.toAffine_apply_orient source.width.toInt source.height.toInt q
  rw [Transform.size_map (fun c : Coord => (c.toInt : Rat))] at oriented
  have stretched (whole part : Rat) {size : Rat} (some : size ≠ 0) :
      whole / size * (size * part) = whole * part := by
    rw [← mul_assoc, div_mul_cancel₀ _ some]
  obtain ⟨wide, high⟩ := t.size_ne_zero filled
  simp only [textureToTarget, Affine.apply_mul, ofCoord, ofInt] at cornered ⊢
  rw [cornered, oriented, Affine.apply_scale, Affine.apply_shift, stretched _ _ wide,
    stretched _ _ high, Rect.place, add_comm, add_comm (_ * _)]

/-- The map of a draw sends the source onto the target. -/
theorem textureToTarget_image_extent (filled : ¬ source.isEmpty) (filled' : ¬ target.isEmpty) :
    (textureToTarget t source target : Affine Rat).apply '' source.extent = target.extent := by
  refine Set.Subset.antisymm ?_ fun p mem => ?_
  · rintro _ ⟨p, mem, rfl⟩
    obtain ⟨q, rfl⟩ := Rect.exists_place filled p
    rw [textureToTarget_apply_place t filled, Rect.place_mem_extent filled']
    exact t.orient_mem_unitSquare ((Rect.place_mem_extent filled).1 mem)
  · obtain ⟨q, rfl⟩ := Rect.exists_place filled' p
    have square := t.inverse.orient_mem_unitSquare ((Rect.place_mem_extent filled').1 mem)
    refine ⟨source.place (t.inverse.orient q), (Rect.place_mem_extent filled).2 square, ?_⟩
    rw [textureToTarget_apply_place t filled, t.orient_inverse]

theorem det_textureToTarget (filled : ¬ source.isEmpty) (filled' : ¬ target.isEmpty) :
    (textureToTarget t source target : Affine Rat).det ≠ 0 := by
  obtain ⟨wide, high⟩ := t.size_ne_zero filled
  obtain ⟨wide', high'⟩ := Rect.sides_pos filled'
  have oriented : (t.toAffine (ofCoord source.width) (ofCoord source.height) : Affine Rat).det ≠
      0 := by
    rw [Transform.det_toAffine]
    split <;> norm_num
  simp only [textureToTarget, Affine.det_mul, Affine.det_shift, Affine.det_scale]
  exact mul_ne_zero (mul_ne_zero (mul_ne_zero one_ne_zero
    (mul_ne_zero (div_ne_zero wide'.ne' wide) (div_ne_zero high'.ne' high))) oriented) one_ne_zero

/-- Between the edges of the target lies what comes from between the edges of the source. -/
theorem inverse_textureToTarget_mem_interior (filled : ¬ source.isEmpty)
    (filled' : ¬ target.isEmpty) (mem : p ∈ target.interior) :
    (textureToTarget t source target : Affine Rat).inverse.apply p ∈ source.interior := by
  obtain ⟨q, rfl⟩ := Rect.exists_place filled' p
  have square := t.inverse.orient_mem_openSquare ((Rect.place_mem_interior filled').1 mem)
  have sent : target.place q =
      (textureToTarget t source target).apply (source.place (t.inverse.orient q)) := by
    rw [textureToTarget_apply_place t filled, t.orient_inverse]
  rw [sent, Affine.inverse_apply (det_textureToTarget t filled filled')]
  exact (Rect.place_mem_interior filled).2 square

end

end Compositor
