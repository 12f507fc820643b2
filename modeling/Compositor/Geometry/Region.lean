import Compositor.Word
import Compositor.Geometry.Rect

/-!
# Regions

A region is a set of points, held as a list of rectangles. The operations keep the rectangles
non-empty and disjoint, so `points` visits each covered point once; `Normal` says so. The list is
part of a region's value: two regions may cover the same points and be cut up differently.
-/

namespace Compositor

structure Region where
  rects : List Rect
deriving DecidableEq, Repr, Inhabited

namespace Region

def empty : Region := ⟨[]⟩

def isEmpty (region : Region) : Bool := region.rects.isEmpty

def contains (region : Region) (p : Point) : Bool := region.rects.any (·.contains p)

theorem contains_iff {region : Region} {p : Point} :
    region.contains p ↔ ∃ r ∈ region.rects, r.contains p := by
  simp [contains]

/-- The stored rectangles are not empty, and no two of them share a point. -/
def Normal (region : Region) : Prop :=
  (∀ r ∈ region.rects, r.isEmpty = false) ∧
    region.rects.Pairwise fun r s => ∀ p, ¬(r.contains p ∧ s.contains p)

/-- The covered points, rectangle by rectangle. -/
def points (region : Region) : List Point := region.rects.flatMap Rect.points

theorem mem_points {region : Region} {p : Point} : p ∈ region.points ↔ region.contains p := by
  simp [points, contains, Rect.mem_points]

/-- The sum of the rectangles' areas, as a 64-bit word. -/
def area (region : Region) : Except Fault Nat := Word.sum (region.rects.map Rect.area)

/-- The bounding box; the empty region has the empty rectangle. -/
def boundingBox (region : Region) : Rect :=
  match region.rects with
  | [] => Rect.zero
  | first :: rest =>
    Rect.ofEdges
      (rest.foldl (fun edge r => min edge r.x) first.x)
      (rest.foldl (fun edge r => min edge r.y) first.y)
      (rest.foldl (fun edge r => max edge r.right) first.right)
      (rest.foldl (fun edge r => max edge r.bottom) first.bottom)

/-- Cut every rectangle of `pieces` by `hole`. -/
def cut (pieces : List Rect) (hole : Rect) : List Rect := pieces.flatMap (·.diff hole)

theorem contains_cut {pieces : List Rect} {hole : Rect} {p : Point} :
    (⟨cut pieces hole⟩ : Region).contains p ↔
      (⟨pieces⟩ : Region).contains p ∧ ¬ hole.contains p := by
  simp only [contains, cut, List.any_flatMap, List.any_eq_true (l := pieces),
    Rect.contains_diff]
  exact ⟨fun ⟨r, mem, h, h'⟩ => ⟨⟨r, mem, h⟩, h'⟩, fun ⟨⟨r, mem, h⟩, h'⟩ => ⟨r, mem, h, h'⟩⟩

theorem contains_foldl_cut {holes pieces : List Rect} {p : Point} :
    (⟨holes.foldl cut pieces⟩ : Region).contains p ↔
      (⟨pieces⟩ : Region).contains p ∧ ¬ (⟨holes⟩ : Region).contains p := by
  induction holes generalizing pieces with
  | nil => simp [contains]
  | cons hole holes ih =>
    rw [List.foldl_cons, ih, contains_cut]
    simp only [contains, List.any_cons, Bool.or_eq_true, not_or, and_assoc]

/-- Add a rectangle. One that a stored rectangle contains changes nothing; stored rectangles inside
the new one go, and of the new one only what the others leave uncovered is added at the end. -/
def insert (region : Region) (rect : Rect) : Region :=
  if rect.isEmpty || region.rects.any (·.includes rect) then region
  else
    let kept := region.rects.filter (!rect.includes ·)
    ⟨kept ++ kept.foldl cut [rect]⟩

theorem contains_insert {region : Region} {rect : Rect} {p : Point} :
    (region.insert rect).contains p ↔ region.contains p ∨ rect.contains p := by
  unfold insert
  split
  · rename_i known
    rw [Bool.or_eq_true] at known
    rcases known with empty | known
    · simp [Rect.not_contains_of_isEmpty empty p]
    · obtain ⟨r, mem, h⟩ := List.any_eq_true.1 known
      exact ⟨Or.inl, Or.rec id fun hp => contains_iff.2 ⟨r, mem, Rect.contains_of_includes h hp⟩⟩
  · simp only
    generalize filtered : region.rects.filter (!rect.includes ·) = kept
    have append (rs ss : List Rect) : (⟨rs ++ ss⟩ : Region).contains p ↔
        (⟨rs⟩ : Region).contains p ∨ (⟨ss⟩ : Region).contains p := by simp [contains]
    rw [append, contains_foldl_cut]
    have lost : region.contains p → (⟨kept⟩ : Region).contains p ∨ rect.contains p := by
      intro h
      obtain ⟨r, mem, hr⟩ := contains_iff.1 h
      by_cases inside : rect.includes r
      · exact .inr (Rect.contains_of_includes inside hr)
      · have kept_r : r ∈ kept := filtered ▸ List.mem_filter.2 ⟨mem, by simpa using inside⟩
        exact .inl (contains_iff.2 ⟨r, kept_r, hr⟩)
    have stored : (⟨kept⟩ : Region).contains p → region.contains p := by
      intro h
      obtain ⟨r, mem, hr⟩ := contains_iff.1 h
      exact contains_iff.2 ⟨r, (List.mem_filter.1 (filtered ▸ mem)).1, hr⟩
    have single : (⟨[rect]⟩ : Region).contains p ↔ rect.contains p := by simp [contains]
    rw [single]
    by_cases held : (⟨kept⟩ : Region).contains p
    · simp [held, stored held]
    · simp only [held]
      grind

def union (region other : Region) : Region := other.rects.foldl insert region

theorem contains_union {region other : Region} {p : Point} :
    (region.union other).contains p ↔ region.contains p ∨ other.contains p := by
  obtain ⟨rects⟩ := other
  unfold union
  induction rects generalizing region with
  | nil => simp [contains]
  | cons r rects ih =>
    rw [List.foldl_cons, ih, contains_insert]
    simp only [contains, List.any_cons, Bool.or_eq_true, or_assoc]

/-- Keep the points inside a rectangle. -/
def restrict (region : Region) (rect : Rect) : Region :=
  ⟨region.rects.filterMap (·.inter rect)⟩

theorem contains_restrict {region : Region} {rect : Rect} {p : Point} :
    (region.restrict rect).contains p ↔ region.contains p ∧ rect.contains p := by
  simp only [contains_iff, restrict, List.mem_filterMap]
  constructor
  · rintro ⟨cut, ⟨r, mem, overlap⟩, h⟩
    have := Rect.contains_inter.1 ((Option.any_eq_true _ _).2 ⟨cut, overlap, h⟩)
    exact ⟨⟨r, mem, this.1⟩, this.2⟩
  · rintro ⟨⟨r, mem, h⟩, h'⟩
    obtain ⟨cut, overlap, hc⟩ := (Option.any_eq_true _ _).1 (Rect.contains_inter.2 ⟨h, h'⟩)
    exact ⟨cut, ⟨r, mem, overlap⟩, hc⟩

/-- Keep the points that `other` covers too. Overlaps of two disjoint families are disjoint. -/
def inter (region other : Region) : Region :=
  ⟨region.rects.flatMap fun r => other.rects.filterMap r.inter⟩

theorem contains_inter {region other : Region} {p : Point} :
    (region.inter other).contains p ↔ region.contains p ∧ other.contains p := by
  simp only [contains_iff, inter, List.mem_flatMap, List.mem_filterMap]
  constructor
  · rintro ⟨cut, ⟨r, mem, s, mem', overlap⟩, h⟩
    have := Rect.contains_inter.1 ((Option.any_eq_true _ _).2 ⟨cut, overlap, h⟩)
    exact ⟨⟨r, mem, this.1⟩, s, mem', this.2⟩
  · rintro ⟨⟨r, mem, h⟩, s, mem', h'⟩
    obtain ⟨cut, overlap, hc⟩ := (Option.any_eq_true _ _).1 (Rect.contains_inter.2 ⟨h, h'⟩)
    exact ⟨cut, ⟨r, mem, s, mem', overlap⟩, hc⟩

/-- Remove the points inside a rectangle. -/
def erase (region : Region) (rect : Rect) : Region :=
  if rect.isEmpty then region else ⟨cut region.rects rect⟩

theorem contains_erase {region : Region} {rect : Rect} {p : Point} :
    (region.erase rect).contains p ↔ region.contains p ∧ ¬ rect.contains p := by
  unfold erase
  split
  · rename_i empty
    simp [Rect.not_contains_of_isEmpty empty p]
  · exact contains_cut

def diff (region other : Region) : Region := other.rects.foldl erase region

theorem contains_diff {region other : Region} {p : Point} :
    (region.diff other).contains p ↔ region.contains p ∧ ¬ other.contains p := by
  obtain ⟨rects⟩ := other
  unfold diff
  induction rects generalizing region with
  | nil => simp [contains]
  | cons r rects ih =>
    rw [List.foldl_cons, ih, contains_erase]
    simp only [contains, List.any_cons, Bool.or_eq_true, not_or, and_assoc]

def shift (region : Region) (dx dy : Coord) : Region :=
  ⟨region.rects.map (·.shift dx dy)⟩

def ofRect (rect : Rect) : Region := empty.insert rect

def ofRects (rects : List Rect) : Region := rects.foldl insert empty

theorem contains_empty (p : Point) : empty.contains p = false := rfl

theorem contains_ofRect {rect : Rect} {p : Point} :
    (ofRect rect).contains p ↔ rect.contains p := by
  rw [ofRect, contains_insert, contains_empty]
  simp

theorem contains_ofRects {rects : List Rect} {p : Point} :
    (ofRects rects).contains p ↔ ∃ r ∈ rects, r.contains p := by
  have built : ofRects rects = empty.union ⟨rects⟩ := rfl
  rw [built, contains_union, contains_empty, contains_iff]
  simp

/-- Whether nothing is left of `region` outside `other`. -/
def subset (region other : Region) : Bool := (region.diff other).isEmpty

/-- Equality of the covered points, decided by area and inclusion. -/
def sameAs (region other : Region) : Except Fault Bool := do
  let a ← region.area
  let b ← other.area
  return a == b && region.subset other

/-- The rectangles in stored order, between braces. -/
def describe (region : Region) : String :=
  "\x7b" ++ ", ".intercalate (region.rects.map Rect.describe) ++ "\x7d"

end Region

end Compositor
