import Compositor.Geometry.Coord

/-!
# Integer rectangles

A rectangle is an origin and a size; it is empty if the width or the height is not positive. Its
right and bottom edges are exclusive and saturate, so a rectangle near the end of the plane covers
what is left of it. `contains` is the view: every operation is described by the points it covers.
-/

namespace Compositor

structure Point where
  x : Coord
  y : Coord
deriving DecidableEq, Repr

theorem Point.ext_toInt {p q : Point} (x : p.x.toInt = q.x.toInt) (y : p.y.toInt = q.y.toInt) :
    p = q := by
  obtain ⟨px, py⟩ := p
  obtain ⟨qx, qy⟩ := q
  cases Int32.toInt_inj.1 x
  cases Int32.toInt_inj.1 y
  rfl

structure Rect where
  x : Coord
  y : Coord
  width : Coord
  height : Coord
deriving DecidableEq, Repr, Inhabited

namespace Rect

/-- The empty rectangle at the origin. -/
def zero : Rect := ⟨0, 0, 0, 0⟩

/-- The rectangle that stands for the whole plane. Its edges do not saturate. -/
def everything : Rect := ⟨-1073741824, -1073741824, 2147483647, 2147483647⟩

def ofSize (width height : Coord) : Rect := ⟨0, 0, width, height⟩

/-- The rectangle between four edges; it is empty if they are inverted. -/
def ofEdges (x0 y0 x1 y1 : Coord) : Rect := ⟨x0, y0, Coord.sub x1 x0, Coord.sub y1 y0⟩

def isEmpty (r : Rect) : Bool := r.width ≤ 0 || r.height ≤ 0

def right (r : Rect) : Coord := Coord.add r.x r.width

def bottom (r : Rect) : Coord := Coord.add r.y r.height

theorem isEmpty_iff {r : Rect} : r.isEmpty ↔ r.width.toInt ≤ 0 ∨ r.height.toInt ≤ 0 := by
  simp [isEmpty, Int32.le_iff_toInt_le]

theorem toInt_right (r : Rect) :
    r.right.toInt = max (-2147483648) (min (r.x.toInt + r.width.toInt) 2147483647) :=
  Coord.toInt_add _ _

theorem toInt_bottom (r : Rect) :
    r.bottom.toInt = max (-2147483648) (min (r.y.toInt + r.height.toInt) 2147483647) :=
  Coord.toInt_add _ _

/-- The right edge is at most a coordinate's range away from the left one. -/
theorem toInt_right_sub_le (r : Rect) : r.right.toInt - r.x.toInt ≤ 2147483647 := by
  rw [toInt_right]
  have := r.x.le_toInt
  have := r.width.toInt_lt
  omega

theorem toInt_bottom_sub_le (r : Rect) : r.bottom.toInt - r.y.toInt ≤ 2147483647 := by
  rw [toInt_bottom]
  have := r.y.le_toInt
  have := r.height.toInt_lt
  omega

/-- The product of the sides, or zero if the rectangle is empty. -/
def area (r : Rect) : Nat :=
  if r.isEmpty then 0 else r.width.toInt.toNat * r.height.toInt.toNat

def contains (r : Rect) (p : Point) : Bool :=
  r.x ≤ p.x && p.x < r.right && r.y ≤ p.y && p.y < r.bottom

theorem contains_iff {r : Rect} {p : Point} :
    r.contains p ↔ r.x.toInt ≤ p.x.toInt ∧ p.x.toInt < r.right.toInt ∧
      r.y.toInt ≤ p.y.toInt ∧ p.y.toInt < r.bottom.toInt := by
  simp [contains, Int32.le_iff_toInt_le, Int32.lt_iff_toInt_lt, and_assoc]

/-- An empty rectangle covers no point. -/
theorem not_contains_of_isEmpty {r : Rect} (h : r.isEmpty) (p : Point) : ¬ r.contains p := by
  rw [isEmpty_iff] at h
  rw [contains_iff, toInt_right, toInt_bottom]
  have := r.x.le_toInt
  have := r.y.le_toInt
  omega

/-- Between four edges lie the points that each of them admits. -/
theorem contains_ofEdges {x0 y0 x1 y1 : Coord} {p : Point} (wide : x1.toInt - x0.toInt ≤ 2147483647)
    (high : y1.toInt - y0.toInt ≤ 2147483647) :
    (ofEdges x0 y0 x1 y1).contains p ↔ x0.toInt ≤ p.x.toInt ∧ p.x.toInt < x1.toInt ∧
      y0.toInt ≤ p.y.toInt ∧ p.y.toInt < y1.toInt := by
  rw [contains_iff, toInt_right, toInt_bottom]
  simp only [ofEdges, Coord.toInt_sub]
  have := x0.le_toInt
  have := y0.le_toInt
  have := x1.le_toInt
  have := y1.le_toInt
  have := x1.toInt_lt
  have := y1.toInt_lt
  omega

/-- The overlap of two rectangles, if there is one. -/
def inter (r s : Rect) : Option Rect :=
  let cut := ofEdges (max r.x s.x) (max r.y s.y) (min r.right s.right) (min r.bottom s.bottom)
  if cut.isEmpty then none else some cut

/-- The overlap covers the points that both rectangles cover. -/
theorem contains_inter {r s : Rect} {p : Point} :
    (r.inter s).any (·.contains p) ↔ r.contains p ∧ s.contains p := by
  have wide := r.toInt_right_sub_le
  have high := r.toInt_bottom_sub_le
  have covers : (ofEdges (max r.x s.x) (max r.y s.y) (min r.right s.right)
      (min r.bottom s.bottom)).contains p ↔ r.contains p ∧ s.contains p := by
    rw [contains_ofEdges, contains_iff, contains_iff] <;>
      simp only [Coord.toInt_max, Coord.toInt_min] <;> omega
  simp only [inter]
  split
  · rename_i empty
    simp only [Option.any_none, Bool.false_eq_true, false_iff]
    rw [← covers]
    exact not_contains_of_isEmpty empty p
  · simpa using covers

/-- Where the overlap lies. -/
theorem edges_of_inter {r s cut : Rect} (h : r.inter s = some cut) :
    cut.x.toInt = max r.x.toInt s.x.toInt ∧ cut.y.toInt = max r.y.toInt s.y.toInt ∧
      cut.right.toInt = min r.right.toInt s.right.toInt ∧
      cut.bottom.toInt = min r.bottom.toInt s.bottom.toInt ∧
      cut.x.toInt < cut.right.toInt ∧ cut.y.toInt < cut.bottom.toInt := by
  have wide := r.toInt_right_sub_le
  have high := r.toInt_bottom_sub_le
  simp only [inter] at h
  split at h
  · cases h
  · rename_i nonempty
    rw [isEmpty_iff] at nonempty
    obtain rfl := Option.some.inj h
    rw [toInt_right, toInt_bottom]
    simp only [ofEdges, Coord.toInt_sub, Coord.toInt_max, Coord.toInt_min, not_or] at nonempty ⊢
    have := r.x.le_toInt
    have := r.y.le_toInt
    have := s.x.le_toInt
    have := s.y.le_toInt
    have := r.right.toInt_lt
    have := r.bottom.toInt_lt
    exact ⟨trivial, trivial, by omega, by omega, by omega, by omega⟩

/-- Whether `s` is not empty and lies inside `r`. -/
def includes (r s : Rect) : Bool :=
  !s.isEmpty && r.x ≤ s.x && r.y ≤ s.y && s.right ≤ r.right && s.bottom ≤ r.bottom

/-- A rectangle covers the points of what it includes. -/
theorem contains_of_includes {r s : Rect} {p : Point} (h : r.includes s) (hp : s.contains p) :
    r.contains p := by
  simp only [includes, Bool.and_eq_true, decide_eq_true_eq, Int32.le_iff_toInt_le] at h
  rw [contains_iff] at hp ⊢
  omega

def shift (r : Rect) (dx dy : Coord) : Rect :=
  { r with x := Coord.add r.x dx, y := Coord.add r.y dy }

/-- The parts of `r` outside `hole`: the full-width bands above and below the overlap, then what is
left and right of it in its own rows. -/
def diff (r hole : Rect) : List Rect :=
  match r.inter hole with
  | none => [r]
  | some cut =>
    [ofEdges r.x r.y r.right cut.y,
     ofEdges r.x cut.bottom r.right r.bottom,
     ofEdges r.x cut.y cut.x cut.bottom,
     ofEdges cut.right cut.y r.right cut.bottom].filter (!·.isEmpty)

/-- The pieces cover the points of the rectangle outside the hole. -/
theorem contains_diff {r hole : Rect} {p : Point} :
    (r.diff hole).any (·.contains p) ↔ r.contains p ∧ ¬ hole.contains p := by
  have both := contains_inter (r := r) (s := hole) (p := p)
  unfold diff
  split
  · rename_i apart
    simp only [apart, Option.any_none, Bool.false_eq_true, false_iff] at both
    simp only [List.any_cons, List.any_nil, Bool.or_false]
    exact ⟨fun h => ⟨h, fun h' => both ⟨h, h'⟩⟩, And.left⟩
  · rename_i cut overlap
    have wide := r.toInt_right_sub_le
    have high := r.toInt_bottom_sub_le
    obtain ⟨left, top, right, bottom, wide', high'⟩ := edges_of_inter overlap
    have pieces (q : Rect) : (!q.isEmpty && q.contains p) = q.contains p := by
      cases empty : q.isEmpty
      · rfl
      · simpa using not_contains_of_isEmpty empty p
    rw [List.any_filter]
    simp only [pieces, List.any_cons, List.any_nil, Bool.or_false, Bool.or_eq_true]
    rw [contains_ofEdges, contains_ofEdges, contains_ofEdges, contains_ofEdges, contains_iff,
      contains_iff] <;> omega

/-- The covered points, row by row. -/
def points (r : Rect) : List Point :=
  (Coord.range r.y r.bottom).flatMap fun y => (Coord.range r.x r.right).map fun x => ⟨x, y⟩

theorem mem_points {r : Rect} {p : Point} : p ∈ r.points ↔ r.contains p := by
  obtain ⟨x, y⟩ := p
  simp [points, contains, Coord.mem_range]
  grind

def describe (r : Rect) : String := s!"Rect({r.x}, {r.y}, {r.width}x{r.height})"

end Rect

end Compositor
