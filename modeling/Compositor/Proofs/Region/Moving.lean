import Compositor.Proofs.Region.Counting

/-!
# Moving regions

A region is moved rectangle by rectangle: the origin is moved as far as coordinates reach, and the
size stays. No point is lost that way. But a rectangle that is moved beyond the near end of the
plane stops there with its full size, and one whose far end was cut off shows more of itself when it
is moved back; such a rectangle covers points that none of its points was moved to, and it may cover
those of another rectangle. Main statement: if no rectangle of a region does so, moving the region
moves its points and keeps its rectangles apart, and otherwise one of both fails.
-/

namespace Compositor

/-! ## Columns and rows -/

namespace Coord

/-- The coordinates of a stretch. The last coordinate of the range belongs to none, since an end
saturates and is exclusive. -/
def Covers (start size c : Coord) : Prop :=
  start.toInt ≤ c.toInt ∧ c.toInt < (add start size).toInt

/-- The coordinates that those of a stretch are moved to, but for the last of the range. -/
def CoversMoved (start size offset c : Coord) : Prop :=
  start.toInt + offset.toInt ≤ c.toInt ∧ c.toInt < (add start size).toInt + offset.toInt ∧
    c.toInt < 2147483647

/-- A stretch is not moved beyond the near end of the range, and if it was cut off at the far end it
is not moved back. -/
def Carried (start size offset : Coord) : Prop :=
  -2147483648 ≤ start.toInt + offset.toInt ∧
    (start.toInt + size.toInt ≤ 2147483647 ∨ 0 ≤ offset.toInt)

instance (start size offset : Coord) : Decidable (Carried start size offset) :=
  inferInstanceAs (Decidable (_ ∧ _))

instance (start size offset c : Coord) : Decidable (CoversMoved start size offset c) :=
  inferInstanceAs (Decidable (_ ∧ _))

variable {start size offset c : Coord}

theorem CoversMoved.covers (h : CoversMoved start size offset c) :
    Covers (add start offset) size c := by
  unfold CoversMoved at h
  unfold Covers
  simp only [toInt_add] at h ⊢
  have := start.le_toInt
  have := c.le_toInt
  omega

theorem Carried.coversMoved (carried : Carried start size offset)
    (h : Covers (add start offset) size c) : CoversMoved start size offset c := by
  unfold Carried at carried
  unfold Covers at h
  unfold CoversMoved
  simp only [toInt_add] at h ⊢
  have := start.le_toInt
  omega

variable (positive : 0 < size.toInt) (near : start.toInt + offset.toInt < 2147483647)

include positive near

/-- What is not moved beyond the far end still covers its first coordinate. -/
theorem covers_first : Covers (add start offset) size (add start offset) := by
  unfold Covers
  simp only [toInt_add]
  omega

/-- A stretch that is not carried ends behind the last coordinate that was moved. -/
theorem exists_stray (stuck : ¬ Carried start size offset) :
    ∃ c, Covers (add start offset) size c ∧ ¬ CoversMoved start size offset c := by
  refine ⟨saturate ((add (add start offset) size).toInt - 1), ?_⟩
  unfold Carried at stuck
  unfold Covers CoversMoved
  simp only [toInt_add, toInt_saturate]
  have := start.le_toInt
  omega

end Coord

/-! ## Rectangles -/

/-- A point that a rectangle can cover, and to which a point of the set is moved. -/
def Point.Moved (p : Point) (points : Point → Bool) (dx dy : Coord) : Prop :=
  (p.x.toInt < 2147483647 ∧ p.y.toInt < 2147483647) ∧
    ∃ q, points q ∧ p.x.toInt = q.x.toInt + dx.toInt ∧ p.y.toInt = q.y.toInt + dy.toInt

namespace Rect

/-- The rectangle leaves the plane at a far end, or both its columns and its rows are carried. -/
def Movable (r : Rect) (dx dy : Coord) : Prop :=
  (2147483647 ≤ r.x.toInt + dx.toInt ∨ 2147483647 ≤ r.y.toInt + dy.toInt) ∨
    Coord.Carried r.x r.width dx ∧ Coord.Carried r.y r.height dy

instance (r : Rect) (dx dy : Coord) : Decidable (r.Movable dx dy) :=
  inferInstanceAs (Decidable (_ ∨ _))

variable {r : Rect} {dx dy : Coord} {p : Point}

theorem contains_iff_covers :
    r.contains p ↔ Coord.Covers r.x r.width p.x ∧ Coord.Covers r.y r.height p.y :=
  contains_iff.trans and_assoc.symm

theorem moved_iff : p.Moved r.contains dx dy ↔
    Coord.CoversMoved r.x r.width dx p.x ∧ Coord.CoversMoved r.y r.height dy p.y := by
  simp only [Point.Moved, contains_iff_covers, Coord.Covers, Coord.CoversMoved]
  constructor
  · rintro ⟨reached, q, covers, moved⟩
    omega
  · rintro ⟨column, row⟩
    refine ⟨⟨column.2.2, row.2.2⟩, ⟨Coord.saturate (p.x.toInt - dx.toInt),
      Coord.saturate (p.y.toInt - dy.toInt)⟩, ?_⟩
    have := r.x.le_toInt
    have := r.y.le_toInt
    have := (Coord.add r.x r.width).toInt_lt
    have := (Coord.add r.y r.height).toInt_lt
    simp only [Coord.toInt_saturate]
    omega

/-- No point is lost. -/
theorem contains_shift_of_moved (h : p.Moved r.contains dx dy) : (r.shift dx dy).contains p :=
  have ⟨column, row⟩ := moved_iff.1 h
  contains_iff_covers.2 ⟨column.covers, row.covers⟩

theorem Movable.moved (movable : r.Movable dx dy) (h : (r.shift dx dy).contains p) :
    p.Moved r.contains dx dy := by
  obtain ⟨column, row⟩ := contains_iff_covers.1 h
  obtain away | ⟨carried, carried'⟩ := movable
  · -- Beyond the far end, nothing is covered.
    simp only [shift, Coord.Covers, Coord.toInt_add] at column row
    omega
  · exact moved_iff.2 ⟨carried.coversMoved column, carried'.coversMoved row⟩

theorem exists_stray (full : r.isEmpty = false) (stuck : ¬ r.Movable dx dy) :
    ∃ p, (r.shift dx dy).contains p ∧ ¬ p.Moved r.contains dx dy := by
  obtain ⟨wide, high⟩ := sides_of_isEmpty_eq_false full
  obtain ⟨near, stuck⟩ := not_or.1 stuck
  obtain ⟨left, top⟩ := not_or.1 near
  have column : Coord.Covers (Coord.add r.x dx) r.width (Coord.add r.x dx) :=
    Coord.covers_first wide (not_le.1 left)
  have row : Coord.Covers (Coord.add r.y dy) r.height (Coord.add r.y dy) :=
    Coord.covers_first high (not_le.1 top)
  by_cases carried : Coord.Carried r.x r.width dx
  · obtain ⟨c, covers, stray⟩ := Coord.exists_stray high (not_le.1 top)
      fun carried' => stuck ⟨carried, carried'⟩
    exact ⟨⟨_, c⟩, contains_iff_covers.2 ⟨column, covers⟩, fun h => stray (moved_iff.1 h).2⟩
  · obtain ⟨c, covers, stray⟩ := Coord.exists_stray wide (not_le.1 left) carried
    exact ⟨⟨c, _⟩, contains_iff_covers.2 ⟨covers, row⟩, fun h => stray (moved_iff.1 h).1⟩

theorem hereditary_full : Hereditary fun r => r.isEmpty = false where
  piece full mem := isEmpty_of_mem_diff full mem
  overlap := isEmpty_of_inter

end Rect

/-! ## Regions -/

namespace Region

/-- The regions that the operations reach, moves included. A region of several rectangles is reached
by inserting them, a copy is the region itself, and a cleared region is the empty one. -/
inductive Reachable : Region → Prop
  | empty : Reachable empty
  | insert {region} (rect : Rect) : Reachable region → Reachable (region.insert rect)
  | union {region other} : Reachable region → Reachable other → Reachable (region.union other)
  | restrict {region} (rect : Rect) : Reachable region → Reachable (region.restrict rect)
  | inter {region other} : Reachable region → Reachable other → Reachable (region.inter other)
  | erase {region} (rect : Rect) : Reachable region → Reachable (region.erase rect)
  | diff {region other} : Reachable region → Reachable other → Reachable (region.diff other)
  | shift {region} (dx dy : Coord) : Reachable region → Reachable (region.shift dx dy)

theorem reachable_ofRects (rects : List Rect) : (ofRects rects).Reachable := by
  unfold ofRects
  generalize start : empty = region
  have reachable : region.Reachable := start ▸ .empty
  clear start
  induction rects generalizing region with
  | nil => exact reachable
  | cons rect rects ih => exact ih _ (reachable.insert rect)

/-- No operation stores an empty rectangle. -/
theorem Reachable.full {region : Region} (reachable : region.Reachable) :
    ∀ r ∈ region.rects, r.isEmpty = false := by
  induction reachable with
  | empty => exact normal_empty.1
  | insert rect _ ih => exact Rect.hereditary_full.insert ih id
  | union _ _ ih _ => exact Rect.hereditary_full.foldl_insert ih fun _ _ => id
  | restrict rect => exact Rect.hereditary_full.restrict _ rect
  | inter => exact Rect.hereditary_full.inter _ _
  | erase rect _ ih => exact Rect.hereditary_full.erase ih rect
  | diff _ _ ih _ => exact Rect.hereditary_full.diff ih _
  | shift dx dy _ ih =>
    intro r mem
    obtain ⟨s, listed, rfl⟩ := List.mem_map.1 mem
    exact ih s listed

variable {region : Region} {dx dy : Coord} {p : Point}

theorem moved_iff :
    p.Moved region.contains dx dy ↔ ∃ r ∈ region.rects, p.Moved r.contains dx dy := by
  simp only [Point.Moved, contains_iff]
  grind

theorem contains_shift_iff :
    (region.shift dx dy).contains p ↔ ∃ r ∈ region.rects, (r.shift dx dy).contains p := by
  simp [contains_iff, shift]

/-- Two points that are moved to one place were one point. -/
theorem pairwise_shift (apart : region.rects.Pairwise Rect.Apart)
    (movable : ∀ r ∈ region.rects, r.Movable dx dy) :
    (region.shift dx dy).rects.Pairwise Rect.Apart := by
  refine List.pairwise_map.2 (apart.imp_of_mem ?_)
  intro r s mem mem' apart p both
  obtain ⟨-, q, covers, x, y⟩ := (movable r mem).moved both.1
  obtain ⟨-, q', covers', x', y'⟩ := (movable s mem').moved both.2
  have same : q = q' := Point.ext_toInt (by omega) (by omega)
  exact apart q ⟨covers, same ▸ covers'⟩

/-- A stray point of a rectangle is a moved point of another one, which then covers it too, or it is
no moved point at all. -/
theorem movable_of_shift (reachable : region.Reachable)
    (apart : (region.shift dx dy).rects.Pairwise Rect.Apart)
    (moved : ∀ p, (region.shift dx dy).contains p → p.Moved region.contains dx dy) :
    ∀ r ∈ region.rects, r.Movable dx dy := by
  intro r mem
  by_contra stuck
  obtain ⟨p, covers, stray⟩ := Rect.exists_stray (reachable.full r mem) stuck
  obtain ⟨s, mem', other⟩ := moved_iff.1 (moved p (contains_shift_iff.2 ⟨r, mem, covers⟩))
  have differ : r ≠ s := fun same => stray (same ▸ other)
  have symm : Std.Symm fun r s : Rect => (r.shift dx dy).Apart (s.shift dx dy) :=
    ⟨fun _ _ => Rect.Apart.symm⟩
  have apart' := (List.pairwise_map.1 apart).forall mem mem' differ
  exact apart' p ⟨covers, Rect.contains_shift_of_moved other⟩

/-- Moving a region never loses a point. If its rectangles are movable, it covers exactly the points
that its own were moved to, and rectangles that were apart stay so; and this is the only way to have
both. -/
theorem shift_moves_points (reachable : region.Reachable) (dx dy : Coord) :
    (∀ p, p.Moved region.contains dx dy → (region.shift dx dy).contains p) ∧
      ((∀ r ∈ region.rects, r.Movable dx dy) →
        (∀ p, (region.shift dx dy).contains p ↔ p.Moved region.contains dx dy) ∧
          (region.rects.Pairwise Rect.Apart → (region.shift dx dy).rects.Pairwise Rect.Apart)) ∧
      ((region.shift dx dy).rects.Pairwise Rect.Apart →
        (∀ p, (region.shift dx dy).contains p → p.Moved region.contains dx dy) →
          ∀ r ∈ region.rects, r.Movable dx dy) := by
  have kept (p : Point) (h : p.Moved region.contains dx dy) :
      (region.shift dx dy).contains p := by
    obtain ⟨r, mem, moved⟩ := moved_iff.1 h
    exact contains_shift_iff.2 ⟨r, mem, Rect.contains_shift_of_moved moved⟩
  refine ⟨kept, fun movable => ⟨fun p => ⟨fun covers => ?_, kept p⟩, fun apart => ?_⟩,
    movable_of_shift reachable⟩
  · obtain ⟨r, mem, there⟩ := contains_shift_iff.1 covers
    exact moved_iff.2 ⟨r, mem, (movable r mem).moved there⟩
  · exact pairwise_shift apart movable

/-- Two rectangles in the first and the last columns are moved to the right: the one that ends
beyond the plane is cut off once more, and the other one moves as a whole. -/
theorem far_rectangle_is_cut_off_again :
    let region := ofRects [⟨-2147483648, 0, 2, 1⟩, ⟨2147483645, 0, 9, 1⟩]
    region.Reachable ∧ (∀ r ∈ region.rects, r.Movable 1 (-3)) ∧
      (∀ p, (region.shift 1 (-3)).contains p ↔ p.Moved region.contains 1 (-3)) ∧
      (region.shift 1 (-3)).rects.Pairwise Rect.Apart := by
  intro region
  have reachable : region.Reachable := reachable_ofRects _
  have movable : ∀ r ∈ region.rects, r.Movable 1 (-3) := by decide +kernel
  obtain ⟨moved, apart⟩ := (shift_moves_points reachable 1 (-3)).2.1 movable
  exact ⟨reachable, movable, moved, apart (normal_ofRects _).2⟩

/-- Two rectangles in the first columns are moved to the left. By two columns, both come to lie in
the first column; by three, that column is covered although no point was moved there. -/
theorem near_edge_stops_rectangles :
    let region := ofRects [⟨-2147483648, 0, 1, 1⟩, ⟨-2147483646, 0, 1, 1⟩]
    let corner : Point := ⟨-2147483648, 0⟩
    region.Reachable ∧ ¬ (region.shift (-2) 0).rects.Pairwise Rect.Apart ∧
      (region.shift (-3) 0).contains corner ∧ ¬ corner.Moved region.contains (-3) 0 := by
  intro region corner
  have stored : region.rects = [⟨-2147483648, 0, 1, 1⟩, ⟨-2147483646, 0, 1, 1⟩] := by
    decide +kernel
  refine ⟨reachable_ofRects _, fun apart => ?_, by decide +kernel, fun moved => ?_⟩
  · have apart := List.pairwise_map.1 apart
    rw [stored] at apart
    exact List.rel_of_pairwise_cons apart (List.mem_singleton_self _) corner (by decide)
  · obtain ⟨r, mem, moved⟩ := moved_iff.1 moved
    rw [stored] at mem
    revert r
    simp only [Rect.moved_iff]
    decide

end Region

end Compositor
