import Compositor.Proofs.Geometry.Images

/-!
# What the image of a rectangle covers

The image of a rectangle should cover the images of its pixels. It does if the rectangle covers
something or has a side of zero. But an image is put between the images of two corners, whichever
is lower, so a negative side becomes a positive one: only the identity keeps a rectangle with
inverted edges empty.
-/

namespace Compositor

/-- A cell lies between two opposite corners. -/
def Between (p q cell : Int × Int) : Prop :=
  ((p ⊓ q).1 ≤ cell.1 ∧ cell.1 < (p ⊔ q).1) ∧ ((p ⊓ q).2 ≤ cell.2 ∧ cell.2 < (p ⊔ q).2)

def Point.cell (p : Point) : Int × Int := (p.x.toInt, p.y.toInt)

theorem Point.exists_cell {c : Int × Int} (inPlane : Rect.InPlane c) : ∃ p : Point, p.cell = c := by
  obtain ⟨⟨left, right⟩, top, bottom⟩ := inPlane
  refine ⟨⟨Coord.saturate c.1, Coord.saturate c.2⟩, ?_⟩
  simp only [cell, Coord.toInt_saturate, Prod.ext_iff]
  omega

theorem Between.inPlane {p q c : Int × Int} (between : Between p q c) (inPlane : Rect.InPlane p)
    (inPlane' : Rect.InPlane q) : Rect.InPlane c := by
  simp only [Between, Rect.InPlane, Prod.fst_inf, Prod.fst_sup, Prod.snd_inf, Prod.snd_sup] at *
  omega

namespace Rect

variable {r : Rect} {p q : Int × Int}

/-- The four corners, read without saturation. -/
def corners (r : Rect) : List (Int × Int) :=
  [(r.x.toInt, r.y.toInt), (r.x.toInt + r.width.toInt, r.y.toInt),
    (r.x.toInt, r.y.toInt + r.height.toInt),
    (r.x.toInt + r.width.toInt, r.y.toInt + r.height.toInt)]

/-- Empty, though no side is zero. -/
def Inverted (r : Rect) : Prop := r.isEmpty ∧ r.width ≠ 0 ∧ r.height ≠ 0

instance (r : Rect) : Decidable r.Inverted := inferInstanceAs (Decidable (_ ∧ _))

/-- The pixel lies between the edges, whichever comes first. -/
def Spans (r : Rect) (q : Point) : Prop := Between r.low r.high q.cell

theorem contains_iff_spans (wide : 0 ≤ r.width.toInt) (tall : 0 ≤ r.height.toInt) {q : Point} :
    r.contains q ↔ r.Spans q := by
  have := r.x.le_toInt
  have := r.y.le_toInt
  have := r.x.toInt_lt
  have := r.y.toInt_lt
  simp only [contains_iff, Spans, Between, low, high, Point.cell, Prod.fst_inf, Prod.fst_sup,
    Prod.snd_inf, Prod.snd_sup, toInt_right, toInt_bottom]
  omega

theorem contains_between (inPlane : InPlane p) (inPlane' : InPlane q)
    (wide : (p ⊔ q).1 - (p ⊓ q).1 ≤ 2147483647) (tall : (p ⊔ q).2 - (p ⊓ q).2 ≤ 2147483647)
    {point : Point} : (between p q).contains point ↔ Between p q point.cell := by
  obtain ⟨⟨low', high'⟩, -⟩ := corners_between inPlane inPlane' wide tall
  simp only [low, high, Prod.ext_iff] at low' high'
  rw [contains_iff, low'.1, low'.2, high'.1, high'.2, and_assoc.symm]
  rfl

theorem isEmpty_between (inPlane : InPlane p) (inPlane' : InPlane q) :
    (between p q).isEmpty ↔ (p ⊔ q).1 - (p ⊓ q).1 = 0 ∨ (p ⊔ q).2 - (p ⊓ q).2 = 0 := by
  simp only [InPlane] at inPlane inPlane'
  simp only [isEmpty_iff, between, ofEdges, Coord.toInt_sub, Coord.toInt_saturate, Prod.fst_inf,
    Prod.fst_sup, Prod.snd_inf, Prod.snd_sup]
  omega

end Rect

namespace Transform

variable {t : Transform} {r : Rect} {width height : Coord} {p q : Point}

/-- All corners of the rectangle and their images have coordinates. -/
def KeepsInPlane (t : Transform) (r : Rect) (width height : Coord) : Prop :=
  ∀ p ∈ r.corners, Rect.InPlane p ∧ Rect.InPlane (t.corner (width.toInt, height.toInt) p)

instance (t : Transform) (r : Rect) (width height : Coord) :
    Decidable (t.KeepsInPlane r width height) :=
  inferInstanceAs (Decidable (∀ _ ∈ _, _))

/-- The transform of a `width × height` area moves the middle of one pixel to that of another. -/
def Moves (t : Transform) (width height : Coord) (q p : Point) : Prop :=
  t.Sends (.ofSize width height)
    (.ofSize (t.size width height).1 (t.size width height).2) q p

theorem moves_iff : t.Moves width height q p ↔
    t.cell width.toInt height.toInt q.cell.1 q.cell.2 = p.cell := by
  simp [Moves, sends_iff_cell, Rect.ofSize, Point.cell]

theorem moves_normal : normal.Moves width height q p ↔ q = p := by
  rw [moves_iff]
  exact ⟨fun same => Point.ext_toInt (congrArg Prod.fst same) (congrArg Prod.snd same),
    congrArg Point.cell⟩

/-- Every cell is the image of a cell. -/
theorem exists_cell (t : Transform) (area c : Int × Int) :
    ∃ c' : Int × Int, t.cell area.1 area.2 c'.1 c'.2 = c := by
  have back := t.inverse.cell_inverse (t.size area.1 area.2).1 (t.size area.1 area.2).2 c.1 c.2
  rw [inverse_inverse, size_inverse] at back
  exact ⟨_, back⟩

/-- A cell goes between the images of two corners if it lies between the corners. -/
theorem between_corner_iff (t : Transform) (area low high cell : Int × Int) :
    Between (t.corner area low) (t.corner area high) (t.cell area.1 area.2 cell.1 cell.2) ↔
      Between low high cell := by
  obtain ⟨flipped, turns⟩ := t
  obtain rfl | rfl | rfl | rfl := turns_eq turns <;> cases flipped
  all_goals
    simp [Between, corner, Transform.cell] <;> omega

namespace KeepsInPlane

theorem low (keeps : t.KeepsInPlane r width height) :
    Rect.InPlane r.low ∧ Rect.InPlane (t.corner (width.toInt, height.toInt) r.low) :=
  keeps _ (by simp [Rect.corners, Rect.low])

theorem high_eq (keeps : t.KeepsInPlane r width height) :
    r.high = (r.x.toInt + r.width.toInt, r.y.toInt + r.height.toInt) := by
  have last := (keeps (r.x.toInt + r.width.toInt, r.y.toInt + r.height.toInt)
    (by simp [Rect.corners])).1
  simp only [Rect.InPlane] at last
  simp only [Rect.high, Rect.toInt_right, Rect.toInt_bottom, Prod.mk.injEq]
  omega

theorem high (keeps : t.KeepsInPlane r width height) :
    Rect.InPlane r.high ∧ Rect.InPlane (t.corner (width.toInt, height.toInt) r.high) :=
  keeps _ (by simp [Rect.corners, keeps.high_eq])

/-- The sides of the image, each with the magnitude that it has in the rectangle. -/
theorem sides (keeps : t.KeepsInPlane r width height) :
    let low := t.corner (width.toInt, height.toInt) r.low
    let high := t.corner (width.toInt, height.toInt) r.high
    ((low ⊔ high).1 - (low ⊓ high).1, (low ⊔ high).2 - (low ⊓ high).2) =
      t.size (r.width.toInt.natAbs : Int) (r.height.toInt.natAbs : Int) := by
  intro low high
  have across : (r.low ⊔ r.high).1 - (r.low ⊓ r.high).1 = r.width.toInt.natAbs := by
    simp only [keeps.high_eq, Rect.low, Prod.fst_sup, Prod.fst_inf]
    omega
  have down : (r.low ⊔ r.high).2 - (r.low ⊓ r.high).2 = r.height.toInt.natAbs := by
    simp only [keeps.high_eq, Rect.low, Prod.snd_sup, Prod.snd_inf]
    omega
  rw [← across, ← down]
  exact t.sides_between_corners ..

/-- Under every transform but the identity, an image is empty if a side of the rectangle is zero,
and only then. -/
theorem isEmpty_mapRect (keeps : t.KeepsInPlane r width height) (moving : t ≠ normal) :
    (t.mapRect Rat r width height).isEmpty ↔ r.width = 0 ∨ r.height = 0 := by
  have sides := keeps.sides
  rw [mapRect_of_ne_normal moving, Rect.isEmpty_between keeps.low.2 keeps.high.2]
  rw [← Int32.toInt_inj, ← Int32.toInt_inj]
  dsimp only at sides
  cases sideways : t.sideways <;>
    simp only [size, sideways, Bool.false_eq_true, ↓reduceIte, Prod.mk.injEq] at sides <;>
    rw [sides.1, sides.2] <;> simp [or_comm]

/-- It covers the images of the pixels between the edges, unless these are too far apart. -/
theorem contains_mapRect (keeps : t.KeepsInPlane r width height) (moving : t ≠ normal)
    (wide : -2147483647 ≤ r.width.toInt) (tall : -2147483647 ≤ r.height.toInt) :
    (t.mapRect Rat r width height).contains p ↔ ∃ q, r.Spans q ∧ t.Moves width height q p := by
  have := r.width.toInt_lt
  have := r.height.toInt_lt
  have sides := keeps.sides
  have extent : ((t.size (r.width.toInt.natAbs : Int) (r.height.toInt.natAbs : Int)).1 ≤
      2147483647) ∧
      (t.size (r.width.toInt.natAbs : Int) (r.height.toInt.natAbs : Int)).2 ≤ 2147483647 := by
    cases sideways : t.sideways <;>
      simp only [size, sideways, Bool.false_eq_true, ↓reduceIte] <;> omega
  dsimp only at sides
  rw [← sides] at extent
  rw [mapRect_of_ne_normal moving, Rect.contains_between keeps.low.2 keeps.high.2 extent.1 extent.2]
  simp only [moves_iff]
  constructor
  · intro inside
    obtain ⟨cell, goes⟩ := t.exists_cell (width.toInt, height.toInt) p.cell
    rw [← goes, between_corner_iff] at inside
    obtain ⟨q, rfl⟩ := Point.exists_cell (inside.inPlane keeps.low.1 keeps.high.1)
    exact ⟨q, inside, goes⟩
  · rintro ⟨q, spans, goes⟩
    rw [← goes]
    exact (t.between_corner_iff (width.toInt, height.toInt) ..).2 spans

end KeepsInPlane

/-- What the images of rectangles cover. Under the identity, or if the rectangle covers something or
has a side of zero, the image covers the images of its pixels and is empty only if the rectangle is.
If the edges are inverted, all other transforms make an image that is not empty, though there are no
pixels to cover. In either case what they cover are the images of the pixels between the edges. -/
theorem mapRect_covers (t : Transform) {r : Rect} {width height : Coord}
    (keeps : t.KeepsInPlane r width height) :
    let moved := t.mapRect Float r width height
    (t = normal ∨ ¬ r.Inverted →
      (∀ p, moved.contains p ↔ ∃ q, r.contains q ∧ t.Moves width height q p) ∧
      moved.isEmpty = r.isEmpty) ∧
    (t ≠ normal → r.Inverted →
      moved.isEmpty = false ∧ (∃ p, moved.contains p) ∧ ∀ q, ¬ r.contains q) ∧
    (t ≠ normal → -2147483647 ≤ r.width.toInt → -2147483647 ≤ r.height.toInt →
      ∀ p, moved.contains p ↔ ∃ q, r.Spans q ∧ t.Moves width height q p) := by
  simp only [mapRect_float]
  refine ⟨fun proper => ?proper, fun moving inverted => ?inverted,
    fun moving wide tall p => keeps.contains_mapRect moving wide tall⟩
  case proper =>
    by_cases same : t = normal
    · subst same
      simp [moves_normal, mapRect]
    · have zero : r.isEmpty → r.width = 0 ∨ r.height = 0 := by
        intro empty
        by_contra sides
        exact proper.resolve_left same ⟨empty, not_or.1 sides⟩
      cases empty : r.isEmpty
      · obtain ⟨wide, tall⟩ := Rect.sides_of_isEmpty_eq_false empty
        refine ⟨fun p => ?_, ?_⟩
        · simp only [keeps.contains_mapRect same (by omega) (by omega),
            Rect.contains_iff_spans wide.le tall.le]
        · rw [← Bool.not_eq_true, keeps.isEmpty_mapRect same, ← Int32.toInt_inj, ← Int32.toInt_inj,
            Int32.toInt_zero]
          omega
      · have nothing := (keeps.isEmpty_mapRect same).2 (zero empty)
        refine ⟨fun p => iff_of_false (Rect.not_contains_of_isEmpty nothing p) ?_, nothing⟩
        rintro ⟨q, inside, -⟩
        exact Rect.not_contains_of_isEmpty empty q inside
  case inverted =>
    obtain ⟨empty, wide, tall⟩ := inverted
    have something : (t.mapRect Rat r width height).isEmpty = false := by
      rw [← Bool.not_eq_true, keeps.isEmpty_mapRect moving]
      exact not_or.2 ⟨wide, tall⟩
    have exact_ : (t.mapRect Rat r width height).Exact := by
      rw [mapRect_of_ne_normal moving]
      exact Rect.exact_ofEdges
    exact ⟨something, ⟨_, exact_.visible something⟩, fun q => Rect.not_contains_of_isEmpty empty q⟩

/-- A rectangle from the third column back to the second. -/
def backwards : Rect := ⟨2, 0, -1, 1⟩

/-- The mirror of an area of four columns, for two columns in it and for a step back over one. -/
theorem mirror_covers_steps :
    (mirror.KeepsInPlane ⟨1, 0, 2, 1⟩ 4 1 ∧
      (∀ p, (mirror.mapRect Float ⟨1, 0, 2, 1⟩ 4 1).contains p ↔
        ∃ q, (⟨1, 0, 2, 1⟩ : Rect).contains q ∧ mirror.Moves 4 1 q p) ∧
      (mirror.mapRect Float ⟨1, 0, 2, 1⟩ 4 1).isEmpty = false) ∧
    mirror.KeepsInPlane backwards 4 1 ∧ (mirror.mapRect Float backwards 4 1).isEmpty = false ∧
      ∀ p, (mirror.mapRect Float backwards 4 1).contains p ↔
        ∃ q, backwards.Spans q ∧ mirror.Moves 4 1 q p := by
  have keeps : mirror.KeepsInPlane ⟨1, 0, 2, 1⟩ 4 1 := by decide
  have keeps' : mirror.KeepsInPlane backwards 4 1 := by decide
  have forwards := (mapRect_covers mirror keeps).1 (.inr (by decide))
  have back := (mapRect_covers mirror keeps').2
  exact ⟨⟨keeps, forwards⟩, keeps', (back.1 (by decide) (by decide)).1,
    back.2 (by decide) (by decide) (by decide)⟩

/-- The image of a step back is a pixel, though nothing is covered that could go there. -/
theorem mirror_fills_empty_rectangle :
    mirror.KeepsInPlane backwards 4 1 ∧ backwards.isEmpty ∧
      (normal.mapRect Float backwards 4 1).isEmpty ∧
      mirror.mapRect Float backwards 4 1 = ⟨2, 0, 1, 1⟩ ∧
      ¬ ∀ p, (mirror.mapRect Float backwards 4 1).contains p ↔
        ∃ q, backwards.contains q ∧ mirror.Moves 4 1 q p := by
  have image : mirror.mapRect Float backwards 4 1 = ⟨2, 0, 1, 1⟩ := by
    rw [mapRect_float]
    decide +kernel
  have empty : backwards.isEmpty := by decide
  refine ⟨by decide, empty, by decide, image, fun covers => ?_⟩
  obtain ⟨q, inside, -⟩ := (covers ⟨2, 0⟩).1 (by rw [image]; decide)
  exact Rect.not_contains_of_isEmpty empty q inside

end Transform

end Compositor
