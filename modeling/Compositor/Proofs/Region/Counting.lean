import Compositor.Proofs.Region.Recipe
import Mathlib.Data.Int.Interval
import Mathlib.Data.Set.Card

/-!
# Areas and contents

Where no edge saturates, the sides of a rectangle are the distances between its edges, so its area
is the number of its points. The operations on regions keep the edges exact. A normal region with
exact edges has as many points as the sum of its areas says, and that sum always fits 64 bits, since
no point lies on the last row or column of the plane. Nothing but a rectangle without points, at the
far end of the plane, can be left over when all points are taken away. Main statement: for normal
regions with exact edges the test of inclusion decides inclusion, and the test of equality, which
compares areas and tests one inclusion, decides equality, however the regions are cut up.
-/

namespace Compositor

namespace Word

/-- A sum that fits is computed, since no partial sum is greater. -/
theorem sum_eq_ok {ns : List Nat} (fits : ns.sum < limit) : sum ns = .ok ns.sum := by
  have run (start : Nat) (ns : List Nat) (fits : start + ns.sum < limit) :
      ns.foldlM add start = .ok (start + ns.sum) := by
    induction ns generalizing start with
    | nil => rfl
    | cons n ns ih =>
      rw [List.sum_cons, ← Nat.add_assoc] at fits ⊢
      have step : add start n = .ok (start + n) := if_pos (by omega)
      rw [List.foldlM_cons, step]
      exact ih (start + n) fits
  simpa [sum] using run 0 ns (by simpa using fits)

end Word

theorem Coord.length_range (a b : Coord) : (range a b).length = (b.toInt - a.toInt).toNat := by
  simp [range]

/-- There are as many points as the square has that they lie in. -/
theorem Point.card_le {points : Finset Point} {low high : Int}
    (inside : ∀ p ∈ points, low ≤ p.x.toInt ∧ p.x.toInt < high ∧
      low ≤ p.y.toInt ∧ p.y.toInt < high) :
    points.card ≤ (high - low).toNat * (high - low).toNat := by
  have placed (p : Point) (mem : p ∈ points) :
      (p.x.toInt, p.y.toInt) ∈ Finset.Ico low high ×ˢ Finset.Ico low high := by
    simp only [Finset.mem_product, Finset.mem_Ico]
    exact and_assoc.2 (inside p mem)
  have bound := Finset.card_le_card_of_injOn _ placed fun p _ q _ same =>
    Point.ext_toInt (Prod.mk.inj same).1 (Prod.mk.inj same).2
  rwa [Finset.card_product, Int.card_Ico] at bound

namespace Rect

/-- The right and the bottom edge do not saturate. -/
def Exact (r : Rect) : Prop :=
  r.x.toInt + r.width.toInt ≤ 2147483647 ∧ r.y.toInt + r.height.toInt ≤ 2147483647

instance (r : Rect) : Decidable r.Exact := inferInstanceAs (Decidable (_ ∧ _))

theorem length_points {r : Rect} (exact : r.Exact) : r.points.length = r.area := by
  have rows : r.points.length =
      (r.bottom.toInt - r.y.toInt).toNat * (r.right.toInt - r.x.toInt).toNat := by
    simp [points, List.length_flatMap, Coord.length_range]
  obtain ⟨wide, high⟩ := exact
  have := r.x.le_toInt
  have := r.y.le_toInt
  rw [rows, toInt_right, toInt_bottom, area]
  split
  case isTrue empty =>
    have := isEmpty_iff.1 empty
    rw [Nat.mul_eq_zero]
    omega
  case isFalse full =>
    have := mt isEmpty_iff.2 full
    rw [Nat.mul_comm]
    congr 2 <;> omega

theorem encard_points {r : Rect} (exact : r.Exact) : {p | r.contains p}.encard = r.area := by
  rw [← length_points exact, ← List.toFinset_card_of_nodup r.nodup_points,
    ← Set.encard_coe_eq_coe_finsetCard]
  congr 1
  ext p
  simp [mem_points]

/-- A rectangle between edges that are not too far apart ends where it should. -/
theorem exact_ofEdges {x0 y0 x1 y1 : Coord} : (ofEdges x0 y0 x1 y1).Exact := by
  have := x0.toInt_lt
  have := y0.toInt_lt
  have := x1.toInt_lt
  have := y1.toInt_lt
  simp only [Exact, ofEdges, Coord.toInt_sub]
  omega

theorem exact_of_inter {r s cut : Rect} (h : r.inter s = some cut) : cut.Exact := by
  simp only [inter] at h
  split at h
  · cases h
  · cases h
    exact exact_ofEdges

/-- What is cut off lies between edges of the rectangle and of the hole. -/
theorem eq_or_exact_of_mem_diff {r hole piece : Rect} (mem : piece ∈ r.diff hole) :
    piece = r ∨ piece.isEmpty = false ∧ piece.Exact := by
  unfold diff at mem
  split at mem
  · exact .inl (List.mem_singleton.1 mem)
  · obtain ⟨band, full⟩ := List.mem_filter.1 mem
    have edges : ∃ x0 y0 x1 y1, piece = ofEdges x0 y0 x1 y1 := by grind
    obtain ⟨x0, y0, x1, y1, rfl⟩ := edges
    exact .inr ⟨by simpa using full, exact_ofEdges⟩

theorem hereditary_exact : Hereditary Exact where
  piece exact mem := by
    obtain rfl | ⟨-, exact'⟩ := eq_or_exact_of_mem_diff mem
    · exact exact
    · exact exact'
  overlap h := exact_of_inter h

/-- The rectangle covers a point, and so its corner. One with positive sides does not if it begins
at the far end of the plane, where every edge saturates. -/
def Visible (r : Rect) : Prop := r.contains ⟨r.x, r.y⟩

theorem visible_of_contains {r : Rect} {p : Point} (h : r.contains p) : r.Visible := by
  rw [contains_iff] at h
  rw [Visible, contains_iff]
  grind

/-- A rectangle with positive sides and exact edges covers its corner. -/
theorem Exact.visible {r : Rect} (exact : r.Exact) (full : r.isEmpty = false) : r.Visible := by
  obtain ⟨wide, high⟩ := exact
  have positive := sides_of_isEmpty_eq_false full
  have := r.x.le_toInt
  have := r.y.le_toInt
  rw [Visible, contains_iff, toInt_right, toInt_bottom]
  dsimp only
  omega

theorem visible_of_inter {r s cut : Rect} (h : r.inter s = some cut) : cut.Visible :=
  (exact_of_inter h).visible (isEmpty_of_inter h)

theorem hereditary_visible : Hereditary Visible where
  piece visible mem := by
    obtain rfl | ⟨full, exact⟩ := eq_or_exact_of_mem_diff mem
    · exact visible
    · exact exact.visible full
  overlap h := visible_of_inter h

/-- Nothing can be cut off a rectangle without points, so all of it is left. -/
theorem diff_of_not_visible {r : Rect} (h : ¬ r.Visible) (hole : Rect) : r.diff hole = [r] := by
  unfold diff
  split
  · rfl
  · next cut overlap =>
    have corner : cut.contains ⟨cut.x, cut.y⟩ := visible_of_inter overlap
    exact absurd (visible_of_contains ((contains_of_inter overlap).1 corner).1) h

end Rect

namespace Region

/-- No edge of a stored rectangle saturates. -/
def Exact (region : Region) : Prop := ∀ r ∈ region.rects, r.Exact

instance (region : Region) : Decidable region.Exact := inferInstanceAs (Decidable (∀ _ ∈ _, _))

theorem exact_empty : empty.Exact := fun _ mem => absurd mem List.not_mem_nil

theorem Exact.insert {region : Region} (h : region.Exact) {rect : Rect} (exact : rect.Exact) :
    (region.insert rect).Exact :=
  Rect.hereditary_exact.insert h fun _ => exact

theorem Exact.union {region other : Region} (h : region.Exact) (h' : other.Exact) :
    (region.union other).Exact :=
  Rect.hereditary_exact.foldl_insert h fun r mem _ => h' r mem

theorem exact_restrict (region : Region) (rect : Rect) : (region.restrict rect).Exact :=
  Rect.hereditary_exact.restrict region rect

/-! ## Counting -/

theorem Exact.length_points {region : Region} (h : region.Exact) :
    region.points.length = (region.rects.map Rect.area).sum := by
  rw [points, List.length_flatMap]
  congr 1
  exact List.map_congr_left fun r mem => Rect.length_points (h r mem)

/-- No rectangle reaches the last row or column, so the points are fewer than 64-bit words. -/
theorem Normal.length_points_lt {region : Region} (h : region.Normal) :
    region.points.length < Word.limit := by
  have inside (p : Point) (mem : p ∈ region.points.toFinset) :
      -2147483648 ≤ p.x.toInt ∧ p.x.toInt < 2147483647 ∧
        -2147483648 ≤ p.y.toInt ∧ p.y.toInt < 2147483647 := by
    obtain ⟨r, -, covers⟩ := contains_iff.1 (mem_points.1 (List.mem_toFinset.1 mem))
    rw [Rect.contains_iff] at covers
    have := p.x.le_toInt
    have := p.y.le_toInt
    have := r.right.toInt_lt
    have := r.bottom.toInt_lt
    omega
  have bound := Point.card_le inside
  rw [List.toFinset_card_of_nodup h.nodup_points] at bound
  exact Nat.lt_of_le_of_lt bound (by decide)

/-- The area is computed without overflow, and it is the number of points. -/
theorem Normal.area_eq {region : Region} (h : region.Normal) (exact : region.Exact) :
    region.area = .ok region.points.length := by
  rw [exact.length_points]
  exact Word.sum_eq_ok (exact.length_points ▸ h.length_points_lt)

theorem Normal.encard_points {region : Region} (h : region.Normal) :
    {p | region.contains p}.encard = region.points.length := by
  rw [← List.toFinset_card_of_nodup h.nodup_points, ← Set.encard_coe_eq_coe_finsetCard]
  congr 1
  ext p
  simp [mem_points]

/-- All stored rectangles cover points. -/
def Visible (region : Region) : Prop := ∀ r ∈ region.rects, r.Visible

/-- Nothing is stored exactly if nothing is covered. -/
theorem Visible.isEmpty_iff {region : Region} (visible : region.Visible) :
    region.isEmpty ↔ ∀ p, ¬ region.contains p := by
  rw [isEmpty, List.isEmpty_iff]
  constructor
  · intro none p
    simp [contains, none]
  · intro none
    refine List.eq_nil_iff_forall_not_mem.2 fun r mem => none ⟨r.x, r.y⟩ ?_
    exact contains_iff.2 ⟨r, mem, visible r mem⟩

theorem mem_diff_of_not_visible {region : Region} {r : Rect} (mem : r ∈ region.rects)
    (h : ¬ r.Visible) (other : Region) : r ∈ (region.diff other).rects := by
  obtain ⟨rects⟩ := other
  unfold diff
  induction rects generalizing region with
  | nil => exact mem
  | cons rect rects ih =>
    refine ih ?_
    unfold erase
    split
    · exact mem
    · refine List.mem_flatMap.2 ⟨r, mem, ?_⟩
      rw [Rect.diff_of_not_visible h]
      exact List.mem_singleton_self r

/-- The test of inclusion decides inclusion, but for rectangles without points: these are always
left over. -/
theorem subset_iff {region other : Region} :
    region.subset other ↔ region.Visible ∧ ∀ p, region.contains p → other.contains p := by
  by_cases visible : region.Visible
  · have left : (region.diff other).Visible := Rect.hereditary_visible.diff visible other
    rw [subset, left.isEmpty_iff]
    simp only [contains_diff, not_and, Classical.not_not, visible, true_and]
  · have hidden : ∃ r ∈ region.rects, ¬ r.Visible := by
      simpa [Visible] using visible
    obtain ⟨r, mem, h⟩ := hidden
    have left := mem_diff_of_not_visible mem h other
    simp only [visible, false_and, iff_false, subset, isEmpty, List.isEmpty_iff]
    exact List.ne_nil_of_mem left

theorem Normal.visible {region : Region} (h : region.Normal) (exact : region.Exact) :
    region.Visible :=
  fun r mem => (exact r mem).visible (h.1 r mem)

theorem Normal.subset_iff {region : Region} (h : region.Normal) (exact : region.Exact)
    (other : Region) :
    region.subset other ↔ ∀ p, region.contains p → other.contains p := by
  simp only [Region.subset_iff, h.visible exact, true_and]

/-- If no region has more points than the other, one inclusion is enough. -/
theorem Normal.sameAs_eq {region other : Region} (h : region.Normal) (exact : region.Exact)
    (h' : other.Normal) (exact' : other.Exact) :
    ∃ same, region.sameAs other = .ok same ∧
      (same = true ↔ ∀ p, region.contains p = other.contains p) := by
  refine ⟨_, by rw [sameAs, h.area_eq exact, h'.area_eq exact']; rfl, ?_⟩
  rw [Bool.and_eq_true, beq_iff_eq, h.subset_iff exact]
  constructor
  · rintro ⟨count, inside⟩ p
    have all : region.points.toFinset = other.points.toFinset := by
      refine Finset.eq_of_subset_of_card_le (fun p mem => ?_) ?_
      · simp only [List.mem_toFinset, mem_points] at mem ⊢
        exact inside p mem
      · rw [List.toFinset_card_of_nodup h.nodup_points,
          List.toFinset_card_of_nodup h'.nodup_points, count]
    have listed : p ∈ region.points.toFinset ↔ p ∈ other.points.toFinset := by rw [all]
    simp only [List.mem_toFinset, mem_points] at listed
    exact Bool.eq_iff_iff.2 listed
  · intro same
    refine ⟨?_, fun p there => same p ▸ there⟩
    have sets : {p | region.contains p} = {p | other.contains p} :=
      Set.ext fun p => by rw [Set.mem_ofPred_eq, Set.mem_ofPred_eq, same p]
    have count := h.encard_points
    rw [sets, h'.encard_points] at count
    exact_mod_cast count.symm

/-- The area of the region is the number of its points. -/
structure Measurable (region : Region) : Prop where
  normal : region.Normal
  exact : region.Exact

theorem measurable_empty : empty.Measurable := ⟨normal_empty, exact_empty⟩

theorem measurable_ofRect {rect : Rect} (exact : rect.Exact) : (ofRect rect).Measurable :=
  ⟨normal_ofRect rect, exact_empty.insert exact⟩

theorem Measurable.union {region other : Region} (h : region.Measurable) (exact : other.Exact) :
    (region.union other).Measurable :=
  ⟨h.normal.union other, h.exact.union exact⟩

end Region

namespace Recipe

/-- The rectangles that go into a recipe. -/
def rects : Recipe → List Rect
  | empty => []
  | ofRect rect => [rect]
  | ofRects rects => rects
  | insert recipe rect | restrict recipe rect | erase recipe rect => rect :: recipe.rects
  | union recipe other | inter recipe other | diff recipe other | copy recipe other =>
    recipe.rects ++ other.rects
  | clear recipe => recipe.rects

/-- What the rectangles that go into a recipe have in common, those of its region have too. -/
theorem forall_rects_region {P : Rect → Prop} (hereditary : Rect.Hereditary P) {recipe : Recipe}
    (new : ∀ r ∈ recipe.rects, r.isEmpty = false → P r) : ∀ r ∈ recipe.region.rects, P r := by
  have none : ∀ r ∈ Region.empty.rects, P r := fun r mem => absurd mem List.not_mem_nil
  induction recipe with
  | empty | clear => exact none
  | ofRect rect => exact hereditary.insert none (new rect (List.mem_singleton_self rect))
  | ofRects rects => exact hereditary.foldl_insert none new
  | insert recipe rect ih =>
    obtain ⟨added, before⟩ := List.forall_mem_cons.1 new
    exact hereditary.insert (ih before) added
  | union recipe other ih ih' =>
    obtain ⟨first, second⟩ := List.forall_mem_append.1 new
    exact hereditary.foldl_insert (ih first) fun r mem _ => ih' second r mem
  | restrict recipe rect => exact hereditary.restrict _ rect
  | inter recipe other => exact hereditary.inter _ _
  | erase recipe rect ih =>
    obtain ⟨-, before⟩ := List.forall_mem_cons.1 new
    exact hereditary.erase (ih before) rect
  | diff recipe other ih =>
    obtain ⟨first, -⟩ := List.forall_mem_append.1 new
    exact hereditary.diff (ih first) _
  | copy recipe other _ ih' =>
    obtain ⟨-, second⟩ := List.forall_mem_append.1 new
    exact ih' second

theorem exact_region {recipe : Recipe} (exact : ∀ r ∈ recipe.rects, r.Exact) :
    recipe.region.Exact :=
  forall_rects_region Rect.hereditary_exact fun r mem _ => exact r mem

/-- For regions made of rectangles whose edges do not saturate, the area is the number of covered
points and never overflows, the test of inclusion tells whether every point of the one is in the
other, and the test of equality whether both cover the same points. -/
theorem area_and_tests_decide_content (a b : Recipe) (exact : ∀ r ∈ a.rects, r.Exact)
    (exact' : ∀ r ∈ b.rects, r.Exact) :
    (∃ n, a.region.area = .ok n ∧ {p | a.region.contains p}.encard = n) ∧
      (a.region.subset b.region ↔ ∀ p, a.region.contains p → b.region.contains p) ∧
      ∃ same, a.region.sameAs b.region = .ok same ∧
        (same = true ↔ ∀ p, a.region.contains p = b.region.contains p) := by
  have normal := a.normal_region
  have edges := exact_region exact
  refine ⟨⟨_, normal.area_eq edges, normal.encard_points⟩, normal.subset_iff edges b.region, ?_⟩
  exact normal.sameAs_eq edges b.normal_region (exact_region exact')

/-- A square in the far corner of the plane, cut up into rows and into columns. -/
def cornerRows : Recipe :=
  .ofRects [⟨2147483645, 2147483645, 2, 1⟩, ⟨2147483645, 2147483646, 2, 1⟩]

def cornerColumns : Recipe :=
  .union (.ofRect ⟨2147483646, 2147483645, 1, 2⟩) (.ofRect ⟨2147483645, 2147483645, 1, 2⟩)

/-- Rows and columns are stored differently, and yet they cover the same four points. -/
theorem rows_and_columns_are_equal :
    (∀ r ∈ cornerRows.rects, r.Exact) ∧ (∀ r ∈ cornerColumns.rects, r.Exact) ∧
      cornerRows.region.rects ≠ cornerColumns.region.rects ∧
      {p | cornerRows.region.contains p}.encard = 4 ∧
      (∀ p, cornerRows.region.contains p = cornerColumns.region.contains p) := by
  have exact : ∀ r ∈ cornerRows.rects, r.Exact := by decide
  have exact' : ∀ r ∈ cornerColumns.rects, r.Exact := by decide
  obtain ⟨⟨n, area, count⟩, -, same, test, equal⟩ :=
    area_and_tests_decide_content cornerRows cornerColumns exact exact'
  have four : cornerRows.region.area = .ok 4 := by decide +kernel
  have passes : cornerRows.region.sameAs cornerColumns.region = .ok true := by decide +kernel
  cases four.symm.trans area
  cases passes.symm.trans test
  exact ⟨exact, exact', by decide +kernel, count, equal.1 rfl⟩

end Recipe

end Compositor
