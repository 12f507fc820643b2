import Compositor.Proofs.Region.Normal

/-!
# How regions are made

A recipe is any sequence of operations, nested to any depth, on rectangles of any kind. It is read
twice: as the region that the operations build, and as the set of points that the Boolean operations
give. Both agree, and the region is normal, so walking its rectangles meets each covered point
once.
-/

namespace Compositor

namespace Rect

theorem nodup_points (r : Rect) : r.points.Nodup := by
  refine List.pairwise_flatMap.2 ⟨fun y _ => ?_, (Coord.nodup_range _ _).imp ?_⟩
  · refine List.pairwise_map.2 ((Coord.nodup_range _ _).imp ?_)
    intro x x' differ equal
    exact differ (Point.mk.inj equal).1
  · intro y y' differ p mem q mem' equal
    obtain ⟨x, _, rfl⟩ := List.mem_map.1 mem
    obtain ⟨x', _, rfl⟩ := List.mem_map.1 mem'
    exact differ (Point.mk.inj equal).2

end Rect

namespace Region

theorem Normal.nodup_points {region : Region} (h : region.Normal) : region.points.Nodup := by
  refine List.pairwise_flatMap.2 ⟨fun r _ => r.nodup_points, h.2.imp ?_⟩
  intro r s apart p mem q mem' equal
  subst equal
  exact apart p ⟨Rect.mem_points.1 mem, Rect.mem_points.1 mem'⟩

theorem Normal.count_points {region : Region} (h : region.Normal) (p : Point) :
    region.points.count p = if region.contains p then 1 else 0 := by
  rw [h.nodup_points.count]
  simp only [mem_points]

/-- Each operation covers the points that its Boolean reading gives, for all regions, rectangles and
points. -/
theorem boolean_operations (a b : Region) (rect : Rect) (p : Point) :
    (a.union b).contains p = (a.contains p || b.contains p) ∧
      (a.inter b).contains p = (a.contains p && b.contains p) ∧
      (a.diff b).contains p = (a.contains p && !b.contains p) ∧
      (a.insert rect).contains p = (a.contains p || rect.contains p) ∧
      (a.restrict rect).contains p = (a.contains p && rect.contains p) ∧
      (a.erase rect).contains p = (a.contains p && !rect.contains p) := by
  refine ⟨?_, ?_, ?_, ?_, ?_, ?_⟩ <;> rw [Bool.eq_iff_iff]
  · simpa using contains_union
  · simpa using contains_inter
  · simpa using contains_diff
  · simpa using contains_insert
  · simpa using contains_restrict
  · simpa using contains_erase

end Region

/-- A way to make a region. `clear` and `copy` forget what the first region was. -/
inductive Recipe where
  | empty
  | ofRect (rect : Rect)
  | ofRects (rects : List Rect)
  | insert (recipe : Recipe) (rect : Rect)
  | union (recipe other : Recipe)
  | restrict (recipe : Recipe) (rect : Rect)
  | inter (recipe other : Recipe)
  | erase (recipe : Recipe) (rect : Rect)
  | diff (recipe other : Recipe)
  | copy (recipe other : Recipe)
  | clear (recipe : Recipe)

namespace Recipe

/-- The region that a recipe makes. -/
def region : Recipe → Region
  | empty => Region.empty
  | ofRect rect => Region.ofRect rect
  | ofRects rects => Region.ofRects rects
  | insert recipe rect => recipe.region.insert rect
  | union recipe other => recipe.region.union other.region
  | restrict recipe rect => recipe.region.restrict rect
  | inter recipe other => recipe.region.inter other.region
  | erase recipe rect => recipe.region.erase rect
  | diff recipe other => recipe.region.diff other.region
  | copy _ other => other.region
  | clear _ => Region.empty

/-- The points that a recipe describes, read as a set. -/
def covers : Recipe → Point → Bool
  | empty, _ => false
  | ofRect rect, p => rect.contains p
  | ofRects rects, p => rects.any (·.contains p)
  | insert recipe rect, p => recipe.covers p || rect.contains p
  | union recipe other, p => recipe.covers p || other.covers p
  | restrict recipe rect, p => recipe.covers p && rect.contains p
  | inter recipe other, p => recipe.covers p && other.covers p
  | erase recipe rect, p => recipe.covers p && !rect.contains p
  | diff recipe other, p => recipe.covers p && !other.covers p
  | copy _ other, p => other.covers p
  | clear _, _ => false

theorem normal_region (recipe : Recipe) : recipe.region.Normal := by
  induction recipe with
  | empty => exact Region.normal_empty
  | ofRect rect => exact Region.normal_ofRect rect
  | ofRects rects => exact Region.normal_ofRects rects
  | insert _ rect ih => exact ih.insert rect
  | union _ other ih _ => exact ih.union other.region
  | restrict _ rect ih => exact ih.restrict rect
  | inter _ _ ih ih' => exact ih.inter ih'
  | erase _ rect ih => exact ih.erase rect
  | diff _ other ih _ => exact ih.diff other.region
  | copy _ _ _ ih => exact ih
  | clear _ _ => exact Region.normal_empty

/-- The region of a recipe covers the points that the recipe describes. -/
theorem contains_region (recipe : Recipe) (p : Point) :
    recipe.region.contains p = recipe.covers p := by
  rw [Bool.eq_iff_iff]
  induction recipe with
  | empty => rfl
  | ofRect rect => exact Region.contains_ofRect
  | ofRects rects => simpa [region, covers] using Region.contains_ofRects
  | insert _ rect ih => simp [region, covers, Region.contains_insert, ih]
  | union _ _ ih ih' => simp [region, covers, Region.contains_union, ih, ih']
  | restrict _ rect ih => simp [region, covers, Region.contains_restrict, ih]
  | inter _ _ ih ih' => simp [region, covers, Region.contains_inter, ih, ih']
  | erase _ rect ih => simp [region, covers, Region.contains_erase, ih]
  | diff _ _ ih ih' => simp [region, covers, Region.contains_diff, ih, ih']
  | copy _ _ _ ih => exact ih
  | clear _ _ => rfl

/-- The rectangles of a made region have positive sides and lie apart, so a walk over them visits
each covered point once and no other point. -/
theorem walk_visits_once (recipe : Recipe) :
    (∀ r ∈ recipe.region.rects, 0 < r.width ∧ 0 < r.height) ∧
      recipe.region.rects.Pairwise (fun r s => ∀ p, ¬(r.contains p ∧ s.contains p)) ∧
      ∀ p, recipe.region.points.count p = if recipe.region.contains p then 1 else 0 := by
  have normal := recipe.normal_region
  refine ⟨fun r mem => ?_, normal.2, normal.count_points⟩
  have nonempty := normal.1 r mem
  simpa [Rect.isEmpty] using nonempty

end Recipe

end Compositor
