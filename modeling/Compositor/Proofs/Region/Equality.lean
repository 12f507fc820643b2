import Compositor.Proofs.Region.Counting

/-!
# Equality of regions as a relation

Two regions are tested for equality by their nominal areas and one inclusion. The test is read here
for all regions, also those near the far end of the plane, where edges saturate: a rectangle may
then cover fewer points than its area says, or none. Main statement: the test is always transitive.
A region passes it against itself exactly if its area fits a word and each of its rectangles covers
a point; and from one direction the other follows exactly if each rectangle of the second region
covers a point and the first region covers them all. So on regions whose area is the number of their
points the test is an equivalence relation.
-/

namespace Compositor

namespace Region

/-- The test of equality is passed. -/
def Equal (region other : Region) : Prop := region.sameAs other = .ok true

instance (region other : Region) : Decidable (region.Equal other) :=
  inferInstanceAs (Decidable (_ = _))

/-- The test compares what is stored on the left with what is covered on the right. -/
theorem equal_iff {region other : Region} :
    region.Equal other ↔ (∃ n, region.area = .ok n ∧ other.area = .ok n) ∧
      region.Visible ∧ ∀ p, region.contains p → other.contains p := by
  rw [← subset_iff, Equal, sameAs]
  cases area : region.area with
  | error fault => simp [bind, Except.bind]
  | ok n =>
    cases area' : other.area with
    | error fault => simp [bind, Except.bind]
    | ok m =>
      change Except.ok (n == m && region.subset other) = Except.ok true ↔ _
      rw [Except.ok.injEq, Bool.and_eq_true, beq_iff_eq]
      refine and_congr_left fun _ => ⟨?_, ?_⟩
      · rintro rfl
        exact ⟨n, rfl, rfl⟩
      · rintro ⟨k, ⟨⟩, ⟨⟩⟩
        rfl

variable {a b c : Region}

theorem Equal.trans (h : a.Equal b) (h' : b.Equal c) : a.Equal c := by
  obtain ⟨⟨n, area, area'⟩, visible, inside⟩ := equal_iff.1 h
  obtain ⟨⟨m, area'', area'''⟩, -, inside'⟩ := equal_iff.1 h'
  cases area'.symm.trans area''
  exact equal_iff.2 ⟨⟨n, area, area'''⟩, visible, fun p there => inside' p (inside p there)⟩

theorem equal_self_iff : a.Equal a ↔ a.Visible ∧ ∃ n, a.area = .ok n := by
  rw [equal_iff]
  constructor
  · rintro ⟨⟨n, area, -⟩, visible, -⟩
    exact ⟨visible, n, area⟩
  · rintro ⟨visible, n, area⟩
    exact ⟨⟨n, area, area⟩, visible, fun _ there => there⟩

theorem Equal.symm_iff (h : a.Equal b) :
    b.Equal a ↔ b.Visible ∧ ∀ p, b.contains p → a.contains p := by
  obtain ⟨⟨n, area, area'⟩, -⟩ := equal_iff.1 h
  rw [equal_iff]
  exact and_iff_right ⟨n, area', area⟩

/-! ## Where areas count points -/

theorem Measurable.equal_iff (h : a.Measurable) (h' : b.Measurable) :
    a.Equal b ↔ ∀ p, a.contains p = b.contains p := by
  obtain ⟨same, test, decides⟩ := h.normal.sameAs_eq h.exact h'.normal h'.exact
  rw [Equal, test, Except.ok.injEq, decides]

theorem equivalence_equal :
    Equivalence fun a b : {region : Region // region.Measurable} => a.val.Equal b.val where
  refl a := (a.2.equal_iff a.2).2 fun _ => rfl
  symm {a b} h := (b.2.equal_iff a.2).2 fun p => ((a.2.equal_iff b.2).1 h p).symm
  trans h h' := h.trans h'

/-- On all regions, the test is transitive. It is reflexive exactly where the area is computed and
no rectangle lies beyond the plane, and what it says of two regions it says of them the other way
round exactly if they cover the same points and no rectangle of the second lies beyond the plane. On
regions whose area counts their points it is an equivalence relation. -/
theorem equality_laws (a b c : Region) :
    (a.Equal a ↔ a.Visible ∧ ∃ n, a.area = .ok n) ∧
      (a.Equal b → (b.Equal a ↔ b.Visible ∧ ∀ p, b.contains p → a.contains p)) ∧
      (a.Equal b → b.Equal c → a.Equal c) ∧
      Equivalence fun a b : {region : Region // region.Measurable} => a.val.Equal b.val :=
  ⟨equal_self_iff, Equal.symm_iff, Equal.trans, equivalence_equal⟩

end Region

namespace Recipe

/-- Regions made of rectangles whose edges do not saturate, in whatever way. -/
theorem measurable_region {recipe : Recipe} (exact : ∀ r ∈ recipe.rects, r.Exact) :
    recipe.region.Measurable :=
  ⟨recipe.normal_region, exact_region exact⟩

/-- The square in the far corner, in one piece. -/
def cornerSquare : Recipe := .ofRect ⟨2147483645, 2147483645, 2, 2⟩

/-- The square in the far corner is one region in the eyes of the test, however it was cut up. -/
theorem corner_squares_are_equal :
    cornerRows.region.Equal cornerColumns.region ∧ cornerColumns.region.Equal cornerSquare.region ∧
      cornerColumns.region.Equal cornerRows.region ∧
      cornerRows.region.Equal cornerSquare.region := by
  obtain ⟨-, -, trans, equivalence⟩ :=
    Region.equality_laws cornerRows.region cornerColumns.region cornerSquare.region
  have rows : cornerRows.region.Measurable := measurable_region (by decide)
  have columns : cornerColumns.region.Measurable := measurable_region (by decide)
  have first : cornerRows.region.Equal cornerColumns.region := by decide +kernel
  have second : cornerColumns.region.Equal cornerSquare.region := by decide +kernel
  have back := equivalence.symm (x := ⟨_, rows⟩) (y := ⟨_, columns⟩) first
  exact ⟨first, second, back, trans first second⟩

end Recipe

namespace Region

/-- Near the far end of the plane the test is no equivalence relation. A rectangle in the last
column differs from itself; a rectangle of two columns that ends beyond the plane equals the last
two columns that can be covered, but not the other way round; and the areas of rectangles without
points can add up to more than a word holds. -/
theorem far_edge_breaks_equality :
    let edge := ofRect ⟨2147483647, 0, 1, 1⟩
    let cut := ofRect ⟨2147483646, 0, 2, 1⟩
    let pair := ofRect ⟨2147483645, 0, 2, 1⟩
    let tall (y : Coord) : Rect := ⟨2147483647, y, 2147483647, 2147483647⟩
    let stack := ofRects [tall (-1), tall (-2), tall (-3), tall (-4), tall (-5)]
    ¬ edge.Equal edge ∧ cut.Equal pair ∧ ¬ pair.Equal cut ∧
      stack.sameAs stack = .error (.overflow .add) := by
  decide +kernel

end Region

end Compositor
