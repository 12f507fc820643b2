import Compositor.Draw.Mapping
import Compositor.Proofs.Draw.Shades
import Mathlib.Data.Fin.Basic
import Mathlib.Data.Rat.Floor
import Mathlib.Tactic.FieldSimp
import Mathlib.Tactic.Linarith
import Mathlib.Tactic.Ring

/-!
# Where texels go

Read on the rationals, a transform moves the cells of a grid: middles of cells go to middles of
cells, and the inverse transform moves them back. So a draw that does not scale pairs the texels of
its source with the pixels of its target, and the middle of a pixel finds its way back to the middle
of its texel.
-/

namespace Compositor

open Scalar

/-! ## Whole numbers, exactly -/

namespace Scalar

theorem floor_eq {x : Rat} {n : Int} (low : (n : Rat) ≤ x) (high : x < n + 1) : floor x = n :=
  Int.floor_eq_iff.2 ⟨low, high⟩

theorem floor_intCast (n : Int) : floor (n : Rat) = n := floor_eq le_rfl (by linarith)

theorem floor_add_half (n : Int) : floor ((n : Rat) + half) = n :=
  floor_eq (by simp [half]) (by simp only [half]; linarith)

theorem round_intCast (n : Int) : round (n : Rat) = n := by
  have nearest (n : Int) : ((n : Rat) + 1 / 2).floor = n := floor_add_half n
  change (if 0 ≤ (n : Rat) then ((n : Rat) + 1 / 2).floor else -(-(n : Rat) + 1 / 2).floor) = n
  rw [← Int.cast_neg, nearest, nearest, Int.neg_neg, ite_self]

end Scalar

/-! ## Maps of the plane, exactly -/

namespace Affine

theorem apply_mul (m n : Affine Rat) (p : Position Rat) :
    (m * n).apply p = m.apply (n.apply p) := by
  change (mul m n).apply p = _
  simp only [apply, mul, Position.mk.injEq]
  constructor <;> ring

@[simp] theorem apply_shift (x y : Rat) (p : Position Rat) :
    (shift x y).apply p = ⟨p.x + x, p.y + y⟩ := by
  simp [apply, shift, one, zero, ofInt]

@[simp] theorem apply_scale (x y : Rat) (p : Position Rat) :
    (scale x y).apply p = ⟨x * p.x, y * p.y⟩ := by
  simp [apply, scale, zero, ofInt]

/-- The factor by which a map scales areas, negative if it mirrors. -/
def det (m : Affine Rat) : Rat := m.a * m.d - m.b * m.c

theorem det_mul (m n : Affine Rat) : (m * n).det = m.det * n.det := by
  change (mul m n).det = _
  simp only [det, mul]
  ring

@[simp] theorem det_shift (x y : Rat) : (shift x y).det = 1 := by
  simp [det, shift, one, zero, ofInt]

@[simp] theorem det_scale (x y : Rat) : (scale x y).det = x * y := by
  simp [det, scale, zero, ofInt]

theorem inverse_apply {m : Affine Rat} (regular : m.det ≠ 0) (p : Position Rat) :
    m.inverse.apply (m.apply p) = p := by
  have nonzero : m.a * m.d - m.b * m.c ≠ 0 := regular
  obtain ⟨x, y⟩ := p
  simp only [apply, inverse, one, ofInt, Position.mk.injEq]
  constructor
  · field_simp
    ring
  · field_simp
    ring

end Affine

/-! ## Cells of a grid -/

namespace Transform

theorem turns_eq (turns : Fin 4) : turns = 0 ∨ turns = 1 ∨ turns = 2 ∨ turns = 3 := by
  revert turns
  decide

theorem inverse_inverse (t : Transform) : t.inverse.inverse = t := by
  obtain ⟨flipped, turns⟩ := t
  revert flipped turns
  decide

theorem size_map {β γ : Type} (f : β → γ) (t : Transform) (width height : β) :
    t.size (f width) (f height) = (f (t.size width height).1, f (t.size width height).2) := by
  unfold size
  split <;> rfl

theorem size_inverse {β : Type} (t : Transform) (width height : β) :
    t.inverse.size (t.size width height).1 (t.size width height).2 = (width, height) := by
  obtain ⟨flipped, turns⟩ := t
  obtain rfl | rfl | rfl | rfl := turns_eq turns <;> cases flipped <;> rfl

/-- Where the cell in a column and a row of a `width × height` grid goes. -/
def cell (t : Transform) (width height column row : Int) : Int × Int :=
  let column := if t.flipped then width - 1 - column else column
  match t.turns with
  | 0 => (column, row)
  | 1 => (height - 1 - row, column)
  | 2 => (width - 1 - column, height - 1 - row)
  | 3 => (row, width - 1 - column)

/-- The middle of a cell goes to the middle of a cell. -/
theorem toAffine_apply_cell (t : Transform) (width height column row : Int) :
    (t.toAffine (width : Rat) (height : Rat)).apply ⟨column + 1 / 2, row + 1 / 2⟩ =
      ⟨(t.cell width height column row).1 + 1 / 2, (t.cell width height column row).2 + 1 / 2⟩ := by
  obtain ⟨flipped, turns⟩ := t
  simp only [toAffine, rotation, cell, Affine.apply_mul]
  obtain rfl | rfl | rfl | rfl := turns_eq turns <;> cases flipped
  all_goals
    simp only [↓reduceIte, Bool.false_eq_true, Affine.apply, Affine.identity, Affine.shift, one,
      zero, ofInt, Position.mk.injEq]
    push_cast
    constructor <;> ring

/-- Areas keep their size, and are mirrored with the image. -/
theorem det_toAffine (t : Transform) (width height : Rat) :
    (t.toAffine width height).det = if t.flipped then -1 else 1 := by
  obtain ⟨flipped, turns⟩ := t
  simp only [toAffine, rotation, Affine.det_mul]
  obtain rfl | rfl | rfl | rfl := turns_eq turns <;> cases flipped
  all_goals
    simp [Affine.det, Affine.identity, Affine.shift, one, zero, ofInt]

variable {width height column row : Int}

/-- A cell of the grid goes to a cell of the transformed grid. -/
theorem cell_inside (t : Transform)
    (inside : 0 ≤ column ∧ column < width ∧ 0 ≤ row ∧ row < height) :
    0 ≤ (t.cell width height column row).1 ∧
      (t.cell width height column row).1 < (t.size width height).1 ∧
      0 ≤ (t.cell width height column row).2 ∧
      (t.cell width height column row).2 < (t.size width height).2 := by
  obtain ⟨flipped, turns⟩ := t
  obtain rfl | rfl | rfl | rfl := turns_eq turns <;> cases flipped
  all_goals
    simp [cell, size, sideways]
    omega

/-- The inverse transform brings a cell back. -/
theorem cell_inverse (t : Transform) (width height column row : Int) :
    t.inverse.cell (t.size width height).1 (t.size width height).2
      (t.cell width height column row).1 (t.cell width height column row).2 = (column, row) := by
  have negated : (-0 : Fin 4) = 0 ∧ (-1 : Fin 4) = 3 ∧ (-2 : Fin 4) = 2 ∧ (-3 : Fin 4) = 1 := by
    decide
  obtain ⟨flipped, turns⟩ := t
  obtain rfl | rfl | rfl | rfl := turns_eq turns <;> cases flipped
  all_goals
    simp [cell, size, sideways, inverse, negated]

end Transform

/-! ## Texels and pixels -/

/-- The middle of a pixel, seen from the corner of a rectangle. -/
def Point.centerIn {α : Type} [Scalar α] (p : Point) (r : Rect) : Position α :=
  ⟨ofCoord p.x - ofCoord r.x + half, ofCoord p.y - ofCoord r.y + half⟩

namespace Transform

variable {t : Transform} {source target : Rect} {p q : Point}

/-- A transform of the source sends the middle of a texel to the middle of a pixel of the target,
each seen from the corner of its rectangle. -/
def Sends (t : Transform) (source target : Rect) (q p : Point) : Prop :=
  (t.toAffine (ofCoord source.width) (ofCoord source.height)).apply (q.centerIn source) =
    (p.centerIn target : Position Rat)

/-- The sizes agree, so that nothing is scaled. -/
def Unscaled (t : Transform) (source target : Rect) : Prop :=
  (target.width, target.height) = t.size source.width source.height

theorem sends_iff_cell : t.Sends source target q p ↔
    t.cell source.width.toInt source.height.toInt (q.x.toInt - source.x.toInt)
      (q.y.toInt - source.y.toInt) =
        (p.x.toInt - target.x.toInt, p.y.toInt - target.y.toInt) := by
  have image := t.toAffine_apply_cell source.width.toInt source.height.toInt
    (q.x.toInt - source.x.toInt) (q.y.toInt - source.y.toInt)
  push_cast at image
  simp only [Sends, Point.centerIn, ofCoord, ofInt, half, image, Position.mk.injEq, Prod.ext_iff,
    add_left_inj]
  norm_cast

theorem Unscaled.toInt (unscaled : t.Unscaled source target) :
    (target.width.toInt, target.height.toInt) =
      t.size source.width.toInt source.height.toInt := by
  simp only [Unscaled, size] at unscaled ⊢
  split at unscaled <;> simp_all

theorem Unscaled.inverse (unscaled : t.Unscaled source target) :
    t.inverse.Unscaled target source := by
  have back := t.size_inverse source.width source.height
  rw [← unscaled] at back
  exact back.symm

/-- A texel that goes to a pixel is where the inverse transform sends the pixel. -/
theorem Sends.inverse (unscaled : t.Unscaled source target) (sends : t.Sends source target q p) :
    t.inverse.Sends target source p q := by
  rw [sends_iff_cell] at sends ⊢
  have back := t.cell_inverse source.width.toInt source.height.toInt (q.x.toInt - source.x.toInt)
    (q.y.toInt - source.y.toInt)
  rwa [sends, ← unscaled.toInt] at back

/-- Every texel goes to one pixel of the target. -/
theorem Unscaled.existsUnique_pixel (unscaled : t.Unscaled source target) (fits : target.Fits)
    (inside : source.contains q) : ∃! p, target.contains p ∧ t.Sends source target q p := by
  have cell := t.cell_inside (Rect.offset_of_contains inside)
  rw [← unscaled.toInt] at cell
  obtain ⟨p, covered, x, y⟩ := fits.exists_point cell
  refine ⟨p, ⟨covered, ?_⟩, ?_⟩
  · rw [sends_iff_cell, x, y]
  · rintro p' ⟨-, sends⟩
    rw [sends_iff_cell, Prod.ext_iff] at sends
    dsimp only at sends
    exact Point.ext_toInt (by omega) (by omega)

/-- Every pixel of the target comes from one texel. -/
theorem Unscaled.existsUnique_texel (unscaled : t.Unscaled source target) (fits : source.Fits)
    (inside : target.contains p) : ∃! q, source.contains q ∧ t.Sends source target q p := by
  have back (q : Point) : t.inverse.Sends target source p q ↔ t.Sends source target q p := by
    refine ⟨fun sends => ?_, fun sends => sends.inverse unscaled⟩
    have twice := sends.inverse unscaled.inverse
    rwa [inverse_inverse] at twice
  simpa only [back] using unscaled.inverse.existsUnique_pixel fits inside

/-- Without scaling, a draw moves the source to the origin, orients it and moves it to the
target. -/
theorem Unscaled.textureToTarget_eq (unscaled : t.Unscaled source target)
    (filled : ¬ target.isEmpty) : (textureToTarget t source target : Affine Rat) =
      Affine.shift (ofCoord target.x) (ofCoord target.y) * Affine.scale 1 1 *
        t.toAffine (ofCoord source.width) (ofCoord source.height) *
        Affine.shift (-ofCoord source.x) (-ofCoord source.y) := by
  rw [Rect.isEmpty_iff, not_or] at filled
  have wide : target.width.toInt ≠ 0 := by omega
  have high : target.height.toInt ≠ 0 := by omega
  have wide : (ofCoord target.width : Rat) ≠ 0 := Int.cast_ne_zero.2 wide
  have high : (ofCoord target.height : Rat) ≠ 0 := Int.cast_ne_zero.2 high
  rw [textureToTarget, ← unscaled]
  simp only [div_self wide, div_self high]

theorem Unscaled.det_textureToTarget (unscaled : t.Unscaled source target)
    (filled : ¬ target.isEmpty) : (textureToTarget t source target : Affine Rat).det ≠ 0 := by
  rw [unscaled.textureToTarget_eq filled]
  simp only [Affine.det_mul, Affine.det_shift, Affine.det_scale, det_toAffine]
  split <;> norm_num

/-- Then middles of texels go to middles of pixels. -/
theorem Sends.textureToTarget_apply (unscaled : t.Unscaled source target)
    (filled : ¬ target.isEmpty) (sends : t.Sends source target q p) :
    (textureToTarget t source target : Affine Rat).apply q.center = p.center := by
  have sent : (t.toAffine (ofCoord source.width) (ofCoord source.height)).apply
      ((Affine.shift (-ofCoord source.x) (-ofCoord source.y)).apply q.center) =
        (p.centerIn target : Position Rat) := by
    rw [← sends]
    simp only [Affine.apply_shift, Point.center, Point.centerIn]
    congr 2 <;> ring
  rw [unscaled.textureToTarget_eq filled]
  simp only [Affine.apply_mul, sent]
  simp only [Affine.apply_scale, Affine.apply_shift, Point.center, Point.centerIn]
  congr 1 <;> ring

/-- The middle of a pixel is looked up in the middle of its texel. -/
theorem Sends.inverse_apply (unscaled : t.Unscaled source target)
    (filled : ¬ target.isEmpty) (sends : t.Sends source target q p) :
    (textureToTarget t source target : Affine Rat).inverse.apply p.center = q.center := by
  rw [← sends.textureToTarget_apply unscaled filled]
  exact Affine.inverse_apply (unscaled.det_textureToTarget filled) _

end Transform

end Compositor
