import Compositor.Geometry.Region

/-!
# Regions stay normal

Every operation on regions keeps the stored rectangles non-empty and disjoint, whatever rectangles
it is given. Cutting is the heart of it: the pieces that are left of a rectangle are disjoint from
each other and from the hole, and pieces of disjoint rectangles are disjoint. Whatever else the
stored rectangles have in common stays so if cutting hands it down and every overlap has it.
-/

namespace Compositor

namespace Rect

/-- Two rectangles share no point. -/
def Apart (r s : Rect) : Prop := ∀ p, ¬(r.contains p ∧ s.contains p)

theorem Apart.symm {r s : Rect} (h : r.Apart s) : s.Apart r := fun p both => h p both.symm

theorem Apart.mono {r r' s s' : Rect} (h : r.Apart s) (inside : ∀ p, r'.contains p → r.contains p)
    (inside' : ∀ p, s'.contains p → s.contains p) : r'.Apart s' :=
  fun p both => h p ⟨inside p both.1, inside' p both.2⟩

theorem sides_of_isEmpty_eq_false {r : Rect} (full : r.isEmpty = false) :
    0 < r.width.toInt ∧ 0 < r.height.toInt := by
  have positive := mt isEmpty_iff.2 (Bool.eq_false_iff.1 full)
  omega

theorem isEmpty_of_inter {r s cut : Rect} (h : r.inter s = some cut) : cut.isEmpty = false := by
  simp only [inter] at h
  split at h
  · cases h
  · rename_i nonempty
    obtain rfl := Option.some.inj h
    simpa using nonempty

theorem contains_of_inter {r s cut : Rect} {p : Point} (h : r.inter s = some cut) :
    cut.contains p ↔ r.contains p ∧ s.contains p := by
  simpa [h] using contains_inter (r := r) (s := s) (p := p)

theorem isEmpty_of_mem_diff {r hole piece : Rect} (h : r.isEmpty = false)
    (mem : piece ∈ r.diff hole) : piece.isEmpty = false := by
  unfold diff at mem
  split at mem
  · rw [List.mem_singleton] at mem
    exact mem ▸ h
  · simpa using (List.mem_filter.1 mem).2

theorem contains_of_mem_diff {r hole piece : Rect} {p : Point} (mem : piece ∈ r.diff hole)
    (hp : piece.contains p) : r.contains p ∧ ¬ hole.contains p :=
  contains_diff.1 (List.any_eq_true.2 ⟨piece, mem, hp⟩)

/-- The bands around the overlap lie apart: they differ in their rows, and those in the rows of the
overlap differ in their columns. -/
theorem pairwise_diff (r hole : Rect) : (r.diff hole).Pairwise Apart := by
  unfold diff
  split
  · exact List.pairwise_singleton _ _
  · rename_i cut overlap
    have wide := r.toInt_right_sub_le
    have high := r.toInt_bottom_sub_le
    obtain ⟨left, top, right, bottom, wide', high'⟩ := edges_of_inter overlap
    apply List.Pairwise.filter
    simp only [List.pairwise_cons, List.mem_cons, List.not_mem_nil, or_false, forall_eq_or_imp,
      forall_eq, Apart, false_implies, implies_true, List.Pairwise.nil, and_true]
    refine ⟨⟨?_, ?_, ?_⟩, ⟨?_, ?_⟩, ?_⟩ <;> intro p <;>
      rw [contains_ofEdges, contains_ofEdges] <;> omega

end Rect

namespace Region

theorem normal_empty : empty.Normal := ⟨fun _ mem => (List.not_mem_nil mem).elim, .nil⟩

theorem Normal.cut {pieces : List Rect} (h : (⟨pieces⟩ : Region).Normal) (hole : Rect) :
    (⟨Region.cut pieces hole⟩ : Region).Normal := by
  obtain ⟨nonempty, apart⟩ := h
  constructor
  · intro piece mem
    obtain ⟨r, memr, mem⟩ := List.mem_flatMap.1 mem
    exact Rect.isEmpty_of_mem_diff (nonempty r memr) mem
  · refine List.pairwise_flatMap.2 ⟨fun r _ => r.pairwise_diff hole, apart.imp ?_⟩
    intro r s disjoint piece mem piece' mem'
    exact Rect.Apart.mono disjoint (fun p hp => (Rect.contains_of_mem_diff mem hp).1)
      fun p hp => (Rect.contains_of_mem_diff mem' hp).1

theorem Normal.foldl_cut {pieces : List Rect} (h : (⟨pieces⟩ : Region).Normal)
    (holes : List Rect) : (⟨holes.foldl Region.cut pieces⟩ : Region).Normal := by
  induction holes generalizing pieces with
  | nil => exact h
  | cons hole holes ih => exact ih (h.cut hole)

/-- Two families that cover no common point can be put together. -/
theorem Normal.append {rs ss : List Rect} (h : (⟨rs⟩ : Region).Normal)
    (h' : (⟨ss⟩ : Region).Normal)
    (apart : ∀ p, ¬((⟨rs⟩ : Region).contains p ∧ (⟨ss⟩ : Region).contains p)) :
    (⟨rs ++ ss⟩ : Region).Normal := by
  constructor
  · intro r mem
    rcases List.mem_append.1 mem with mem | mem
    · exact h.1 r mem
    · exact h'.1 r mem
  · refine List.pairwise_append.2 ⟨h.2, h'.2, ?_⟩
    intro r mem s mem' p both
    exact apart p ⟨contains_iff.2 ⟨r, mem, both.1⟩, contains_iff.2 ⟨s, mem', both.2⟩⟩

theorem normal_singleton {rect : Rect} (h : rect.isEmpty = false) :
    (⟨[rect]⟩ : Region).Normal :=
  ⟨fun _ mem => List.mem_singleton.1 mem ▸ h, List.pairwise_singleton _ _⟩

theorem Normal.filter {region : Region} (h : region.Normal) (keep : Rect → Bool) :
    (⟨region.rects.filter keep⟩ : Region).Normal :=
  ⟨fun r mem => h.1 r (List.mem_filter.1 mem).1, h.2.filter keep⟩

/-- What is added was cut by every stored rectangle, so it shares no point with any of them. -/
theorem Normal.insert {region : Region} (h : region.Normal) (rect : Rect) :
    (region.insert rect).Normal := by
  unfold Region.insert
  split
  · exact h
  · rename_i fresh
    have nonempty : rect.isEmpty = false := by
      cases empty : rect.isEmpty
      · rfl
      · simp [empty] at fresh
    apply Normal.append (h.filter _) ((normal_singleton nonempty).foldl_cut _)
    intro p both
    exact (contains_foldl_cut.1 both.2).2 both.1

theorem normal_foldl_insert {region : Region} (h : region.Normal) (rects : List Rect) :
    (rects.foldl Region.insert region).Normal := by
  induction rects generalizing region with
  | nil => exact h
  | cons rect rects ih => exact ih (h.insert rect)

theorem normal_ofRect (rect : Rect) : (ofRect rect).Normal := normal_empty.insert rect

theorem normal_ofRects (rects : List Rect) : (ofRects rects).Normal :=
  normal_foldl_insert normal_empty rects

theorem Normal.union {region : Region} (h : region.Normal) (other : Region) :
    (region.union other).Normal :=
  normal_foldl_insert h other.rects

theorem Normal.restrict {region : Region} (h : region.Normal) (rect : Rect) :
    (region.restrict rect).Normal := by
  constructor
  · intro cut mem
    obtain ⟨r, _, overlap⟩ := List.mem_filterMap.1 mem
    exact Rect.isEmpty_of_inter overlap
  · refine h.2.filterMap (·.inter rect) ?_
    intro r s apart cut overlap cut' overlap'
    exact Rect.Apart.mono apart (fun p hp => ((Rect.contains_of_inter overlap).1 hp).1)
      fun p hp => ((Rect.contains_of_inter overlap').1 hp).1

/-- Two overlaps differ in the rectangle of one family or in that of the other. -/
theorem Normal.inter {region other : Region} (h : region.Normal) (h' : other.Normal) :
    (region.inter other).Normal := by
  constructor
  · intro cut mem
    obtain ⟨r, _, mem⟩ := List.mem_flatMap.1 mem
    obtain ⟨s, _, overlap⟩ := List.mem_filterMap.1 mem
    exact Rect.isEmpty_of_inter overlap
  · refine List.pairwise_flatMap.2 ⟨fun r _ => ?_, h.2.imp ?_⟩
    · refine h'.2.filterMap r.inter ?_
      intro s s' apart cut overlap cut' overlap'
      exact Rect.Apart.mono apart (fun p hp => ((Rect.contains_of_inter overlap).1 hp).2)
        fun p hp => ((Rect.contains_of_inter overlap').1 hp).2
    · intro r r' apart cut mem cut' mem'
      obtain ⟨s, _, overlap⟩ := List.mem_filterMap.1 mem
      obtain ⟨s', _, overlap'⟩ := List.mem_filterMap.1 mem'
      exact Rect.Apart.mono apart (fun p hp => ((Rect.contains_of_inter overlap).1 hp).1)
        fun p hp => ((Rect.contains_of_inter overlap').1 hp).1

theorem Normal.erase {region : Region} (h : region.Normal) (rect : Rect) :
    (region.erase rect).Normal := by
  unfold Region.erase
  split
  · exact h
  · exact h.cut rect

theorem Normal.diff {region : Region} (h : region.Normal) (other : Region) :
    (region.diff other).Normal := by
  obtain ⟨rects⟩ := other
  unfold Region.diff
  induction rects generalizing region with
  | nil => exact h
  | cons rect rects ih => exact ih (h.erase rect)

end Region

/-! ## What stored rectangles have in common -/

/-- A property that the pieces of a rectangle have if it has it, and that every overlap has. -/
structure Rect.Hereditary (P : Rect → Prop) : Prop where
  piece : ∀ {r hole q : Rect}, P r → q ∈ r.diff hole → P q
  overlap : ∀ {r s cut : Rect}, r.inter s = some cut → P cut

namespace Rect.Hereditary

variable {P : Rect → Prop} (hereditary : Hereditary P)

include hereditary

theorem cut {pieces : List Rect} (all : ∀ r ∈ pieces, P r) (hole : Rect) :
    ∀ r ∈ Region.cut pieces hole, P r := by
  intro q mem
  obtain ⟨r, listed, mem⟩ := List.mem_flatMap.1 mem
  exact hereditary.piece (all r listed) mem

theorem foldl_cut {pieces : List Rect} (all : ∀ r ∈ pieces, P r) (holes : List Rect) :
    ∀ r ∈ holes.foldl Region.cut pieces, P r := by
  induction holes generalizing pieces with
  | nil => exact all
  | cons hole holes ih => exact ih (hereditary.cut all hole)

variable {region : Region} (all : ∀ r ∈ region.rects, P r)

include all

/-- An empty rectangle is not stored. -/
theorem insert {rect : Rect} (new : rect.isEmpty = false → P rect) :
    ∀ r ∈ (region.insert rect).rects, P r := by
  unfold Region.insert
  split
  · exact all
  · intro r mem
    rcases List.mem_append.1 mem with kept | added
    · exact all r (List.mem_filter.1 kept).1
    · have nonempty : rect.isEmpty = false := by grind
      exact hereditary.foldl_cut (List.forall_mem_singleton.2 (new nonempty)) _ r added

theorem foldl_insert {rects : List Rect} (new : ∀ r ∈ rects, r.isEmpty = false → P r) :
    ∀ r ∈ (rects.foldl Region.insert region).rects, P r := by
  induction rects generalizing region with
  | nil => exact all
  | cons rect rects ih =>
    obtain ⟨first, others⟩ := List.forall_mem_cons.1 new
    exact ih (hereditary.insert all first) others

theorem erase (rect : Rect) : ∀ r ∈ (region.erase rect).rects, P r := by
  unfold Region.erase
  split
  · exact all
  · exact hereditary.cut all rect

theorem diff (other : Region) : ∀ r ∈ (region.diff other).rects, P r := by
  obtain ⟨rects⟩ := other
  unfold Region.diff
  induction rects generalizing region with
  | nil => exact all
  | cons rect rects ih => exact ih (hereditary.erase all rect)

omit all

theorem restrict (region : Region) (rect : Rect) : ∀ r ∈ (region.restrict rect).rects, P r := by
  intro cut mem
  obtain ⟨r, -, overlap⟩ := List.mem_filterMap.1 mem
  exact hereditary.overlap overlap

theorem inter (region other : Region) : ∀ r ∈ (region.inter other).rects, P r := by
  intro cut mem
  obtain ⟨r, -, mem⟩ := List.mem_flatMap.1 mem
  obtain ⟨s, -, overlap⟩ := List.mem_filterMap.1 mem
  exact hereditary.overlap overlap

end Rect.Hereditary

end Compositor
