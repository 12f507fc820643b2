import Compositor.Proofs.Draw.Shades
import Compositor.Proofs.Geometry.WholeNumbers

/-!
# Source boxes with whole-number edges

The edges of a rectangle are whole numbers of 32 bits, which floats have exactly. So a draw whose
source is a rectangle inside the texture reads the texels of that rectangle and no others.
-/

namespace Compositor

namespace Double

open Float.Model Float.Model.UnpackedFloat

variable {x : Float} {a : Int}

theorem whole_ofCoord (c : Coord) : Whole (unpacked (Scalar.ofCoord c)) c.toInt := by
  have low := c.le_toInt
  have high := c.toInt_lt
  exact whole_ofInt (by omega)

theorem not_le_zero (whole : Whole (unpacked x) a) (positive : 0 < a) : ¬ x ≤ 0 := by
  rw [le_iff_unpacked, unpacked_zero]
  generalize unpacked x = f at whole
  obtain s | ⟨s, _, _, _⟩ := whole
  · exact absurd positive (lt_irrefl 0)
  · cases s
    · simp only [Sign.apply] at positive
      omega
    · exact Bool.false_ne_true

/-- A step from one coordinate to a greater one is greater than zero. -/
theorem not_sub_le_zero {c c' : Coord} (less : c.toInt < c'.toInt) :
    ¬ (Scalar.ofCoord c' - Scalar.ofCoord c : Float) ≤ 0 := by
  have low := c.le_toInt
  have high := c'.toInt_lt
  have step := (whole_ofCoord c').sub (whole_ofCoord c) (by omega)
  have same : unpacked (Scalar.ofCoord c' - Scalar.ofCoord c) = UnpackedFloat.unpack .binary64
      (pack .binary64 (UnpackedFloat.sub .binary64 (unpacked (Scalar.ofCoord c'))
        (unpacked (Scalar.ofCoord c)))) := rfl
  rw [step.stored] at same
  exact not_le_zero (same ▸ step) (by omega)

/-- A coordinate between the limits is rounded and clamped to itself. -/
theorem clamp_round_ofCoord {c limit : Coord} (low : 0 ≤ c.toInt) (high : c.toInt ≤ limit.toInt) :
    Coord.clamp 0 limit (Scalar.round (Scalar.ofCoord c : Float)) = c := by
  have top := limit.toInt_lt
  have rounded := saturate_round (whole_ofCoord c) (by omega)
  rw [← Int32.toInt_inj, Coord.toInt_saturate, Coord.toInt_saturate] at rounded
  have zero : (0 : Coord).toInt = 0 := rfl
  rw [← Int32.toInt_inj, Coord.clamp, Coord.toInt_saturate, zero]
  omega

end Double

namespace Rect

variable {r s : Rect}

/-- A rectangle inside another is its overlap with the other. -/
theorem inter_of_includes (inside : s.includes r) (fits : r.Fits) : r.inter s = some r := by
  simp only [includes, Bool.and_eq_true, Bool.not_eq_true', decide_eq_true_eq,
    Int32.le_iff_toInt_le] at inside
  obtain ⟨⟨⟨⟨filled, left⟩, top⟩, right⟩, bottom⟩ := inside
  have sides := mt isEmpty_iff.2 (Bool.eq_false_iff.1 filled)
  have right' := r.toInt_right
  have bottom' := r.toInt_bottom
  have := r.x.le_toInt
  have := r.y.le_toInt
  have := r.width.toInt_lt
  have := r.height.toInt_lt
  have := fits.right
  have := fits.bottom
  have cut : ofEdges (max r.x s.x) (max r.y s.y) (min r.right s.right) (min r.bottom s.bottom) =
      r := by
    have x : max r.x s.x = r.x := Int32.toInt_inj.1 (by rw [Coord.toInt_max]; omega)
    have y : max r.y s.y = r.y := Int32.toInt_inj.1 (by rw [Coord.toInt_max]; omega)
    have width : Coord.sub (min r.right s.right) r.x = r.width := by
      rw [← Int32.toInt_inj, Coord.toInt_sub, Coord.toInt_min]
      omega
    have height : Coord.sub (min r.bottom s.bottom) r.y = r.height := by
      rw [← Int32.toInt_inj, Coord.toInt_sub, Coord.toInt_min]
      omega
    rw [ofEdges, x, y, width, height]
  rw [inter, cut, if_neg (by simpa using filled)]

theorem Fits.edges_lt (fits : r.Fits) (filled : ¬ r.isEmpty) :
    r.x.toInt < r.right.toInt ∧ r.y.toInt < r.bottom.toInt := by
  have sides := mt isEmpty_iff.2 filled
  have := r.x.le_toInt
  have := r.y.le_toInt
  have := fits.right
  have := fits.bottom
  rw [toInt_right, toInt_bottom]
  omega

/-- A rectangle that is cut off nowhere is the one between its edges. -/
theorem Fits.ofEdges_eq (fits : r.Fits) (filled : ¬ r.isEmpty) :
    ofEdges r.x r.y r.right r.bottom = r := by
  have sides := mt isEmpty_iff.2 filled
  have right := r.toInt_right
  have bottom := r.toInt_bottom
  have := r.x.le_toInt
  have := r.y.le_toInt
  have := r.width.le_toInt
  have := r.height.le_toInt
  have := r.width.toInt_lt
  have := r.height.toInt_lt
  have := fits.right
  have := fits.bottom
  have width : Coord.sub r.right r.x = r.width := by
    rw [← Int32.toInt_inj, Coord.toInt_sub]
    omega
  have height : Coord.sub r.bottom r.y = r.height := by
    rw [← Int32.toInt_inj, Coord.toInt_sub]
    omega
  rw [ofEdges, width, height]

end Rect

/-- A rectangle inside a buffer has its edges between those of the buffer. -/
theorem Buffer.edges_of_includes {b : Buffer} {r : Rect} (inside : b.bounds.includes r) :
    0 ≤ r.x.toInt ∧ 0 ≤ r.y.toInt ∧ r.right.toInt ≤ (Coord.ofSize b.width).toInt ∧
      r.bottom.toInt ≤ (Coord.ofSize b.height).toInt := by
  have zero : (0 : Coord).toInt = 0 := rfl
  have width := Coord.toInt_ofSize b.width
  have height := Coord.toInt_ofSize b.height
  simp only [Rect.includes, bounds, Rect.ofSize, Bool.and_eq_true, decide_eq_true_eq,
    Int32.le_iff_toInt_le, Rect.toInt_right, Rect.toInt_bottom, zero] at inside
  rw [Rect.toInt_right, Rect.toInt_bottom]
  omega

namespace TextureDraw

variable {d : TextureDraw} {b : Buffer} {source : Rect}

/-- A draw whose source is a rectangle inside the texture reads the texels of that rectangle. -/
theorem sourceTexels_toBox (whole : d.source = source.toBox) (inside : b.bounds.includes source)
    (fits : source.Fits) : sourceTexels d.effectiveSource b.width b.height = some source := by
  have part := Rect.inter_of_includes inside fits
  have filled : ¬ source.isEmpty := Rect.isEmpty_of_inter part ▸ Bool.false_ne_true
  obtain ⟨wide, high⟩ := fits.edges_lt filled
  obtain ⟨left, top, right, bottom⟩ := Buffer.edges_of_includes inside
  have effective : d.effectiveSource = source.toBox := by
    unfold effectiveSource
    rw [whole]
    exact if_neg (not_or.2 ⟨Double.not_sub_le_zero wide, Double.not_sub_le_zero high⟩)
  rw [effective, sourceTexels]
  simp only [Rect.toBox]
  rw [Double.clamp_round_ofCoord left (by omega), Double.clamp_round_ofCoord top (by omega),
    Double.clamp_round_ofCoord (by omega) right, Double.clamp_round_ofCoord (by omega) bottom,
    fits.ofEdges_eq filled]
  exact part

/-- So if the box of a draw is such a rectangle, no other can be found as its source. -/
theorem source_eq_of_toBox {r : Rect}
    (found : sourceTexels d.effectiveSource b.width b.height = some source)
    (whole : d.source = r.toBox) (inside : b.bounds.includes r) (fits : r.Fits) : source = r :=
  Option.some.inj (found.symm.trans (sourceTexels_toBox whole inside fits))

end TextureDraw

end Compositor
