import Compositor.Proofs.Region.Moving

/-!
# The bounding box

The bounding box is folded from the edges of the stored rectangles, and then it is given an origin
and a size. The size saturates: a box that would be wider than the greatest size ends before the
last points that it stands for. Main statement: of the points of a region the box covers exactly
those that are near enough to its left and its upper edge. Where no edge of a rectangle saturates,
those two edges touch the region, and the other two do so unless the size is too small for it.
-/

namespace Compositor

namespace Coord

instance : Std.LawfulOrderMax Coord where
  max_eq_or a b := by
    rw [show max a b = if a ≤ b then b else a from rfl]
    split
    · exact .inr rfl
    · exact .inl rfl
  max_le_iff a b c := by
    simp only [Int32.le_iff_toInt_le, toInt_max]
    omega

variable {low high c : Coord}

/-- The stretch between two ends covers what lies between them, up to the greatest size. -/
theorem lt_add_sub_iff (above : low.toInt ≤ c.toInt) (below : c.toInt < high.toInt) :
    c.toInt < (add low (sub high low)).toInt ↔ c.toInt - low.toInt < 2147483647 := by
  have := high.toInt_lt
  have := low.le_toInt
  rw [toInt_add, toInt_sub]
  omega

theorem toInt_add_sub (ordered : low.toInt ≤ high.toInt)
    (near : high.toInt - low.toInt ≤ 2147483647) : (add low (sub high low)).toInt = high.toInt := by
  have := high.toInt_lt
  have := low.le_toInt
  rw [toInt_add, toInt_sub]
  omega

end Coord

namespace Rect

variable {r : Rect}

/-- A rectangle that covers a point covers one of its last column, and one of its last row. -/
theorem Visible.exists_last_column (visible : r.Visible) :
    ∃ p, r.contains p ∧ p.x.toInt + 1 = r.right.toInt := by
  have corner := contains_iff.1 visible
  refine ⟨⟨Coord.saturate (r.right.toInt - 1), r.y⟩, ?_⟩
  rw [contains_iff, Coord.toInt_saturate]
  have := r.x.le_toInt
  have := r.right.toInt_lt
  dsimp only at corner ⊢
  omega

theorem Visible.exists_last_row (visible : r.Visible) :
    ∃ p, r.contains p ∧ p.y.toInt + 1 = r.bottom.toInt := by
  have corner := contains_iff.1 visible
  refine ⟨⟨r.x, Coord.saturate (r.bottom.toInt - 1)⟩, ?_⟩
  rw [contains_iff, Coord.toInt_saturate]
  have := r.y.le_toInt
  have := r.bottom.toInt_lt
  dsimp only at corner ⊢
  omega

/-- The least place at which rectangles have a side. -/
def First (side : Rect → Coord) (rects : List Rect) (edge : Coord) : Prop :=
  (∃ r ∈ rects, side r = edge) ∧ ∀ r ∈ rects, edge.toInt ≤ (side r).toInt

/-- The greatest place at which rectangles have a side. -/
def Last (side : Rect → Coord) (rects : List Rect) (edge : Coord) : Prop :=
  (∃ r ∈ rects, side r = edge) ∧ ∀ r ∈ rects, (side r).toInt ≤ edge.toInt

variable {side : Rect → Coord} {rects : List Rect} {edge : Coord}

theorem first_of_min? (h : (rects.map side).min? = some edge) : First side rects edge := by
  obtain ⟨mem, least⟩ := List.min?_eq_some_iff.1 h
  refine ⟨List.mem_map.1 mem, fun r listed => ?_⟩
  exact Int32.le_iff_toInt_le.1 (least _ (List.mem_map_of_mem listed))

theorem last_of_max? (h : (rects.map side).max? = some edge) : Last side rects edge := by
  obtain ⟨mem, greatest⟩ := List.max?_eq_some_iff.1 h
  refine ⟨List.mem_map.1 mem, fun r listed => ?_⟩
  exact Int32.le_iff_toInt_le.1 (greatest _ (List.mem_map_of_mem listed))

end Rect

namespace Region

/-- The outermost edges of the stored rectangles. -/
structure Framed (region : Region) (left top right bottom : Coord) : Prop where
  left : Rect.First Rect.x region.rects left
  top : Rect.First Rect.y region.rects top
  right : Rect.Last Rect.right region.rects right
  bottom : Rect.Last Rect.bottom region.rects bottom

variable {region : Region} {left top right bottom : Coord} {p : Point}

theorem exists_boundingBox_eq (stored : region.isEmpty = false) :
    ∃ left top right bottom, region.Framed left top right bottom ∧
      region.boundingBox = Rect.ofEdges left top right bottom := by
  obtain ⟨_ | ⟨first, rest⟩⟩ := region
  · cases stored
  · refine ⟨_, _, _, _, ⟨Rect.first_of_min? ?_, Rect.first_of_min? ?_, Rect.last_of_max? ?_,
      Rect.last_of_max? ?_⟩, rfl⟩ <;>
      simp only [List.map_cons, List.min?_cons', List.max?_cons', List.foldl_map]

theorem Framed.inside (framed : region.Framed left top right bottom) (there : region.contains p) :
    (left.toInt ≤ p.x.toInt ∧ p.x.toInt < right.toInt) ∧
      top.toInt ≤ p.y.toInt ∧ p.y.toInt < bottom.toInt := by
  obtain ⟨r, mem, covers⟩ := contains_iff.1 there
  rw [Rect.contains_iff] at covers
  have := framed.left.2 r mem
  have := framed.top.2 r mem
  have := framed.right.2 r mem
  have := framed.bottom.2 r mem
  omega

/-- The size of the box is all that can keep a point out of it. -/
theorem Framed.contains_iff (framed : region.Framed left top right bottom)
    (there : region.contains p) : (Rect.ofEdges left top right bottom).contains p ↔
      p.x.toInt - left.toInt < 2147483647 ∧ p.y.toInt - top.toInt < 2147483647 := by
  obtain ⟨⟨behind, before⟩, below, above⟩ := framed.inside there
  have column := Coord.lt_add_sub_iff behind before
  have row := Coord.lt_add_sub_iff below above
  rw [Rect.contains_iff]
  simp only [Rect.right, Rect.bottom, Rect.ofEdges]
  omega

variable {side : Rect → Coord} {low high : Coord} (place : Point → Coord)

/-- A first side is touched: by the corner of the rectangle that begins there. -/
theorem exists_at_first (first : Rect.First side region.rects low)
    (corner : ∀ r, place ⟨r.x, r.y⟩ = side r) (visible : region.Visible) :
    ∃ p, region.contains p ∧ place p = low := by
  obtain ⟨r, mem, rfl⟩ := first.1
  exact ⟨⟨r.x, r.y⟩, contains_iff.2 ⟨r, mem, visible r mem⟩, corner r⟩

/-- A last side is touched if the size reaches it, by the point with which a rectangle ends. -/
theorem exists_at_last (last : Rect.Last side region.rects high)
    (ends : ∀ r : Rect, r.Visible → ∃ p, r.contains p ∧ (place p).toInt + 1 = (side r).toInt)
    (behind : ∀ p, region.contains p → low.toInt ≤ (place p).toInt)
    (near : ∀ p, region.contains p → (place p).toInt - low.toInt < 2147483647)
    (visible : region.Visible) :
    ∃ p, region.contains p ∧ (place p).toInt + 1 = (Coord.add low (Coord.sub high low)).toInt := by
  obtain ⟨r, mem, rfl⟩ := last.1
  obtain ⟨p, covers, final⟩ := ends r (visible r mem)
  have there : region.contains p := contains_iff.2 ⟨r, mem, covers⟩
  have behind := behind p there
  have near := near p there
  have reached : (Coord.add low (Coord.sub (side r) low)).toInt = (side r).toInt :=
    Coord.toInt_add_sub (by omega) (by omega)
  exact ⟨p, there, final.trans reached.symm⟩

theorem Reachable.visible (reachable : region.Reachable) (exact : region.Exact) : region.Visible :=
  fun r mem => (exact r mem).visible (reachable.full r mem)

/-- Of the points of a region, its bounding box covers those that lie fewer columns and rows from
the left and the upper edge than the greatest size. If no edge of a rectangle saturates, some point
lies in the first column of the box and some in its first row; and one lies in the last column, and
one in the last row, if no point lies too far from the opposite edge for the size. -/
theorem boundingBox_bounds_points (reachable : region.Reachable) (stored : region.isEmpty = false) :
    let box := region.boundingBox
    (∀ p, region.contains p → (box.contains p ↔
        p.x.toInt - box.x.toInt < 2147483647 ∧ p.y.toInt - box.y.toInt < 2147483647)) ∧
      (region.Exact →
        ((∃ p, region.contains p ∧ p.x = box.x) ∧ ∃ p, region.contains p ∧ p.y = box.y) ∧
        ((∀ p, region.contains p → p.x.toInt - box.x.toInt < 2147483647) →
          ∃ p, region.contains p ∧ p.x.toInt + 1 = box.right.toInt) ∧
        ((∀ p, region.contains p → p.y.toInt - box.y.toInt < 2147483647) →
          ∃ p, region.contains p ∧ p.y.toInt + 1 = box.bottom.toInt)) := by
  obtain ⟨left, top, right, bottom, framed, made⟩ := exists_boundingBox_eq stored
  intro box
  rw [show box = Rect.ofEdges left top right bottom from made]
  refine ⟨fun p => framed.contains_iff, fun exact => ?_⟩
  have visible := reachable.visible exact
  have left_touches := exists_at_first Point.x framed.left (fun _ => rfl) visible
  have top_touches := exists_at_first Point.y framed.top (fun _ => rfl) visible
  refine ⟨⟨left_touches, top_touches⟩, fun near => ?_, fun near => ?_⟩
  · exact exists_at_last Point.x framed.right (fun _ => Rect.Visible.exists_last_column)
      (fun p there => (framed.inside there).1.1) near visible
  · exact exists_at_last Point.y framed.bottom (fun _ => Rect.Visible.exists_last_row)
      (fun p there => (framed.inside there).2.1) near visible

/-- Two points that are as far apart as the greatest size allows are both in the box, and lie on all
of its sides. -/
theorem widest_box_holds_both_corners :
    let region := ofRects [⟨-1073741824, 0, 1, 1⟩, ⟨1073741822, 7, 1, 1⟩]
    let box := region.boundingBox
    (region.Reachable ∧ region.isEmpty = false ∧ region.Exact) ∧
      (∀ p, region.contains p → box.contains p) ∧
      ((∃ p, region.contains p ∧ p.x = box.x) ∧ ∃ p, region.contains p ∧ p.y = box.y) ∧
      (∃ p, region.contains p ∧ p.x.toInt + 1 = box.right.toInt) ∧
      ∃ p, region.contains p ∧ p.y.toInt + 1 = box.bottom.toInt := by
  intro region box
  have reachable : region.Reachable := reachable_ofRects _
  have stored : region.isEmpty = false := by decide +kernel
  have exact : region.Exact := by decide +kernel
  have corner : box.x.toInt = -1073741824 ∧ box.y.toInt = 0 := by decide +kernel
  have ends : ∀ r ∈ region.rects, r.right.toInt ≤ 1073741823 ∧ r.bottom.toInt ≤ 8 := by
    decide +kernel
  have near (p : Point) (there : region.contains p) :
      p.x.toInt - box.x.toInt < 2147483647 ∧ p.y.toInt - box.y.toInt < 2147483647 := by
    obtain ⟨r, mem, covers⟩ := contains_iff.1 there
    have := ends r mem
    rw [Rect.contains_iff] at covers
    omega
  obtain ⟨holds, touches⟩ := boundingBox_bounds_points reachable stored
  obtain ⟨first, right_touches, bottom_touches⟩ := touches exact
  exact ⟨⟨reachable, stored, exact⟩, fun p there => (holds p there).2 (near p there), first,
    right_touches fun p there => (near p there).1, bottom_touches fun p there => (near p there).2⟩

/-- Two pixels in the first and the last column are too far apart: the box ends in the middle of the
plane. And a rectangle that covers nothing can widen the box until it loses a point. -/
theorem far_rectangles_leave_box :
    let far := ofRects [⟨-2147483648, 0, 1, 1⟩, ⟨2147483646, 0, 1, 1⟩]
    let beyond := ofRects [⟨-2147483648, 2147483647, 1, 1⟩, ⟨0, 0, 1, 1⟩]
    (far.Reachable ∧ far.contains ⟨2147483646, 0⟩ ∧ ¬ far.boundingBox.contains ⟨2147483646, 0⟩) ∧
      beyond.Reachable ∧ beyond.contains ⟨0, 0⟩ ∧ ¬ beyond.boundingBox.contains ⟨0, 0⟩ := by
  exact ⟨⟨reachable_ofRects _, by decide +kernel⟩, reachable_ofRects _, by decide +kernel⟩

end Region

end Compositor
