import Compositor.Proofs.Draw.Pixels
import Mathlib.Data.Rat.Floor
import Mathlib.Tactic.Tauto

/-!
# Where samples are taken

The nearest texel is read where the position is, and the tests for the edges of the source keep it
inside the texture, even if the position is not a number; if it is one, the texel lies in the
source. The mean of four texels is taken around a position that may lie half a texel outside, so
their columns and rows are moved into the source, whatever numbers they are computed in.
-/

namespace Compositor

open Scalar

/-! ## Exact numbers -/

namespace Scalar

variable {x : Rat} {low high : Coord}

theorem isNumber_rat (x : Rat) : IsNumber x := decide_eq_true (le_refl x)

/-- In exact numbers the tests compare a value with the coordinates. -/
theorem inRange_iff : InRange low high x ↔ (low.toInt : Rat) ≤ x ∧ x < high.toInt :=
  and_congr (decide_eq_false_iff_not.trans not_lt) (decide_eq_false_iff_not.trans not_le)

/-- The floor of an exact number that passes the tests lies between the coordinates. -/
theorem floor_between (passed : InRange low high x) :
    low.toInt ≤ floor x ∧ floor x < high.toInt := by
  obtain ⟨le, lt⟩ := inRange_iff.1 passed
  exact ⟨Int.le_floor.2 le, Int.floor_lt.2 lt⟩

end Scalar

instance : LawfulScalar Rat where
  floor_inside nonneg _ passed :=
    ⟨nonneg.trans (Scalar.floor_between passed).1, (Scalar.floor_between passed).2⟩
  le_floor _ _ passed _ := (Scalar.floor_between passed).1

/-! ## Positions -/

/-- The tests for a position being left of, above, right of or below a rectangle. -/
def Rect.misses {α : Type} [Scalar α] (source : Rect) (p : Position α) : Bool :=
  less p.x (ofCoord source.x) || less p.y (ofCoord source.y) ||
    atMost (ofCoord source.right) p.x || atMost (ofCoord source.bottom) p.y

/-- Both coordinates of a position are numbers. -/
structure Position.IsNumber {α : Type} [Scalar α] (p : Position α) : Prop where
  x : Scalar.IsNumber p.x
  y : Scalar.IsNumber p.y

theorem Position.isNumber_rat (p : Position Rat) : p.IsNumber :=
  ⟨Scalar.isNumber_rat p.x, Scalar.isNumber_rat p.y⟩

/-- The texel under a position. -/
def Position.texel {α : Type} [Scalar α] (p : Position α) : Point :=
  ⟨Coord.saturate (floor p.x), Coord.saturate (floor p.y)⟩

namespace Rect

variable {α : Type} [Scalar α] {source : Rect}

theorem misses_eq_false {p : Position α} : source.misses p = false ↔
    InRange source.x source.right p.x ∧ InRange source.y source.bottom p.y := by
  simp only [misses, InRange, Bool.or_eq_false_iff]
  tauto

/-- In exact numbers the tests compare a position with the edges. -/
theorem misses_eq_false_iff {p : Position Rat} : source.misses p = false ↔
    ((source.x.toInt : Rat) ≤ p.x ∧ p.x < source.right.toInt) ∧
      (source.y.toInt : Rat) ≤ p.y ∧ p.y < source.bottom.toInt := by
  rw [misses_eq_false, inRange_iff, inRange_iff]

/-- In exact numbers the texel under a position of any rectangle lies in it. -/
theorem contains_texel {p : Position Rat} (found : source.misses p = false) :
    source.contains p.texel := by
  obtain ⟨columns, rows⟩ := misses_eq_false.1 found
  have column := floor_between columns
  have row := floor_between rows
  have := source.x.le_toInt
  have := source.y.le_toInt
  have := source.right.toInt_lt
  have := source.bottom.toInt_lt
  rw [contains_iff]
  simp only [Position.texel, Coord.toInt_saturate]
  omega

end Rect

namespace Image

/-! ## Both filters -/

section Filters

variable {α : Type} [Scalar α] {image : Image} {source : Rect} {p : Position α}

theorem sample_of_misses (away : source.misses p = true) (filter : Filter) :
    image.sample source filter p = .ok none := if_pos away

theorem sample_nearest (found : source.misses p = false) :
    image.sample source .nearest p = some <$> image.get p.texel :=
  if_neg (by simpa [Rect.misses] using found)

theorem sample_bilinear (found : source.misses p = false) :
    image.sample source .bilinear p = (do
      let x := p.x - half
      let y := p.y - half
      return some (mixColors (x - ofInt (floor x)) (y - ofInt (floor y))
        (← image.get ⟨column source (floor x), row source (floor y)⟩)
        (← image.get ⟨column source (floor x + 1), row source (floor y)⟩)
        (← image.get ⟨column source (floor x), row source (floor y + 1)⟩)
        (← image.get ⟨column source (floor x + 1), row source (floor y + 1)⟩))) :=
  if_neg (by simpa [Rect.misses] using found)

end Filters

/-! ## Texels of a part of a buffer -/

variable {α : Type} [Scalar α] {b : Buffer} {bytes : Array UInt8} {r source : Rect} {q : Point}

/-- The image of a whole buffer has a colour at every point of a part of it. -/
theorem get_ok (size : bytes.size = b.size) (inside : b.bounds.contains q) :
    ∃ c, (b.image bytes).get q = .ok c :=
  ⟨_, get_image size inside⟩

/-- The columns and rows that a mean is taken at lie in the source. -/
theorem contains_sampled (part : r.inter b.bounds = some source) (m n : Int) :
    source.contains ⟨column source m, row source n⟩ := by
  obtain ⟨-, -, -, -, wide, high⟩ := Rect.edges_of_inter part
  have := source.x.le_toInt
  have := source.y.le_toInt
  have := source.right.toInt_lt
  have := source.bottom.toInt_lt
  rw [Rect.contains_iff]
  simp only [column, row, Coord.clamp, Coord.toInt_saturate]
  omega

section Nearest

variable [LawfulScalar α] {p : Position α}

/-- The texel under a position that is not missed lies in the buffer. -/
theorem contains_nearest (part : r.inter b.bounds = some source)
    (found : source.misses p = false) : b.bounds.contains p.texel := by
  obtain ⟨columns, rows⟩ := Rect.misses_eq_false.1 found
  obtain ⟨x, y, right, bottom, wide, high⟩ := Rect.edges_of_inter part
  have origin : b.bounds.x.toInt = 0 ∧ b.bounds.y.toInt = 0 := ⟨rfl, rfl⟩
  have column := LawfulScalar.floor_inside (by omega) (by omega) columns
  have row := LawfulScalar.floor_inside (by omega) (by omega) rows
  have := b.bounds.right.toInt_lt
  have := b.bounds.bottom.toInt_lt
  rw [Rect.contains_iff]
  simp only [Position.texel, Coord.toInt_saturate]
  omega

/-- It lies in the source, if the position is a number. -/
theorem contains_nearest_of_isNumber (part : r.inter b.bounds = some source)
    (found : source.misses p = false) (number : p.IsNumber) : source.contains p.texel := by
  obtain ⟨columns, rows⟩ := Rect.misses_eq_false.1 found
  obtain ⟨x, y, right, bottom, wide, high⟩ := Rect.edges_of_inter part
  have origin : b.bounds.x.toInt = 0 ∧ b.bounds.y.toInt = 0 := ⟨rfl, rfl⟩
  have left := LawfulScalar.le_floor (by omega) (by omega) columns number.x
  have top := LawfulScalar.le_floor (by omega) (by omega) rows number.y
  have column := LawfulScalar.floor_inside (by omega) (by omega) columns
  have row := LawfulScalar.floor_inside (by omega) (by omega) rows
  have := source.right.toInt_lt
  have := source.bottom.toInt_lt
  rw [Rect.contains_iff]
  simp only [Position.texel, Coord.toInt_saturate]
  omega

end Nearest

/-- A sample never faults. -/
theorem sample_ok [LawfulScalar α] (size : bytes.size = b.size)
    (part : r.inter b.bounds = some source) (filter : Filter) (p : Position α) :
    ∃ c, (b.image bytes).sample source filter p = .ok c := by
  have texel (m n : Int) :=
    get_ok size ((Rect.contains_of_inter part).1 (contains_sampled part m n)).2
  cases missed : source.misses p with
  | true => exact ⟨none, sample_of_misses missed filter⟩
  | false =>
    cases filter with
    | nearest =>
      obtain ⟨c, here⟩ := get_ok size (contains_nearest part missed)
      exact ⟨some c, by rw [sample_nearest missed, here]; rfl⟩
    | bilinear =>
      obtain ⟨c₁, corner₁⟩ := texel (floor (p.x - half)) (floor (p.y - half))
      obtain ⟨c₂, corner₂⟩ := texel (floor (p.x - half) + 1) (floor (p.y - half))
      obtain ⟨c₃, corner₃⟩ := texel (floor (p.x - half)) (floor (p.y - half) + 1)
      obtain ⟨c₄, corner₄⟩ := texel (floor (p.x - half) + 1) (floor (p.y - half) + 1)
      rw [sample_bilinear missed]
      simp only [corner₁, corner₂, corner₃, corner₄]
      exact ⟨_, rfl⟩

end Image

end Compositor
