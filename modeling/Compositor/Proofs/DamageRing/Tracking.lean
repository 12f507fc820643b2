import Compositor.DamageRing

/-!
# The entries of a damage ring

What the operations do to the entry of each buffer. The list of entries is read through `missed?`
only, so neither its order nor the number of entries for one buffer matters.
-/

namespace Compositor.DamageRing

variable (ring : DamageRing) (alive : BufferId → Bool) (id other : BufferId)

/-! ## Bounds -/

theorem contains_clip (region : Region) (p : Point) :
    (ring.clip region).contains p ↔ region.contains p ∧ ∀ r ∈ ring.bounds, r.contains p := by
  unfold clip
  cases ring.bounds with
  | none => simp
  | some bounds => simp [Region.contains_restrict]

theorem contains_clipRect (rect : Rect) (p : Point) :
    (ring.clipRect rect).any (·.contains p) ↔
      rect.contains p ∧ ∀ r ∈ ring.bounds, r.contains p := by
  unfold clipRect
  cases ring.bounds with
  | none =>
    by_cases empty : rect.isEmpty
    · simp [empty, Rect.not_contains_of_isEmpty empty p]
    · simp [empty]
  | some bounds => simpa using Rect.contains_inter

theorem contains_current_add (region : Region) (p : Point) :
    (ring.add region).current.contains p ↔
      ring.current.contains p ∨ region.contains p ∧ ∀ r ∈ ring.bounds, r.contains p := by
  rw [← contains_clip]
  exact Region.contains_union

theorem contains_current_addRect (rect : Rect) (p : Point) :
    (ring.addRect rect).current.contains p ↔
      ring.current.contains p ∨ rect.contains p ∧ ∀ r ∈ ring.bounds, r.contains p := by
  rw [← contains_clipRect]
  unfold addRect
  cases ring.clipRect rect with
  | none => simp
  | some r => simpa using Region.contains_insert

theorem bounds_eq_some (width : 0 < ring.width) (height : 0 < ring.height) :
    ring.bounds = some (Rect.ofSize ring.width ring.height) :=
  if_pos ⟨width, height⟩

theorem normalSides_of_pos {width height : Coord} (hw : 0 < width) (hh : 0 < height) :
    normalSides width height = (width, height) := by
  rw [Int32.lt_iff_toInt_lt] at hw hh
  have positive : ¬ (width ≤ 0 ∨ height ≤ 0) := by
    rw [Int32.le_iff_toInt_le, Int32.le_iff_toInt_le]
    omega
  exact if_neg positive

theorem sides_add (region : Region) :
    (ring.add region).width = ring.width ∧ (ring.add region).height = ring.height := ⟨rfl, rfl⟩

theorem sides_addRect (rect : Rect) :
    (ring.addRect rect).width = ring.width ∧ (ring.addRect rect).height = ring.height := by
  unfold addRect
  split <;> exact ⟨rfl, rfl⟩

/-- New sides damage everything inside them. -/
theorem resize_of_ne {width height : Coord} (hw : 0 < width) (hh : 0 < height)
    (apart : (ring.width, ring.height) ≠ (width, height)) :
    ring.resize width height = { ring with width, height }.addEverything := by
  have changes : ring.changesSides width height = true := by
    rw [changesSides, normalSides_of_pos hw hh]
    exact decide_eq_true apart
  unfold resize
  rw [if_pos changes, normalSides_of_pos hw hh]

/-! ## Entries -/

@[simp] theorem missed?_rotate : ring.rotate.missed? id = ring.missed? id := rfl

@[simp] theorem missed?_addEverything : ring.addEverything.missed? id = ring.missed? id := by
  unfold addEverything missed?
  rfl

@[simp] theorem missed?_add (region : Region) :
    (ring.add region).missed? id = ring.missed? id := rfl

@[simp] theorem missed?_addRect (rect : Rect) :
    (ring.addRect rect).missed? id = ring.missed? id := by
  unfold addRect
  split <;> rfl

@[simp] theorem missed?_resize (width height : Coord) :
    (ring.resize width height).missed? id = ring.missed? id := by
  unfold resize
  split <;> rfl

theorem missed?_prune :
    (ring.prune alive).missed? id = if alive id then ring.missed? id else none := by
  have same : (fun entry : Tracked => decide (alive entry.id = true ∧ (entry.id == id) = true)) =
      fun entry => alive id && entry.id == id := by
    funext entry
    by_cases equal : entry.id = id <;> simp [equal]
  unfold prune missed?
  rw [List.find?_filter, same]
  cases alive id <;> simp

theorem missed?_credit :
    (ring.credit id).missed? other =
      (ring.missed? other).map fun missed =>
        if other = id then Region.empty else missed.union ring.current := by
  have keeps (entry : Tracked) : (if entry.id = id then { entry with missed := Region.empty }
      else { entry with missed := entry.missed.union ring.current }).id = entry.id := by
    split <;> rfl
  unfold credit missed?
  simp only [List.find?_map, Function.comp_def, keeps, Option.map_map]
  cases found : ring.tracked.find? (·.id == other) with
  | none => rfl
  | some entry =>
    have key : entry.id = other := by simpa using List.find?_some found
    simp only [Option.map_some, key]
    split <;> rfl

/-- A new entry counts only where there was none. -/
theorem missed?_append (entry : Tracked) :
    ({ ring with tracked := ring.tracked ++ [entry] } : DamageRing).missed? other =
      (ring.missed? other).or (if entry.id = other then some entry.missed else none) := by
  unfold missed?
  rw [List.find?_append]
  by_cases key : entry.id = other
  · simp [key]
  · simp [key]

/-! ## Rotating for a buffer -/

theorem damage_rotateFor :
    (ring.rotateFor alive id).2 =
      match (ring.prune alive).missed? id with
      | some missed => missed.union ring.current
      | none => Region.ofRect ring.everything := by
  unfold rotateFor
  cases found : (ring.prune alive).missed? id with
  | none => simp only [found]; rfl
  | some missed => simp only [found]; rfl

theorem current_rotateFor : (ring.rotateFor alive id).1.current = Region.empty := by
  unfold rotateFor
  simp only
  split <;> rfl

theorem history_rotateFor : (ring.rotateFor alive id).1.history =
    (ring.current :: ring.history).take historyLength := by
  unfold rotateFor
  simp only
  split <;> rfl

theorem sides_rotateFor : (ring.rotateFor alive id).1.width = ring.width ∧
    (ring.rotateFor alive id).1.height = ring.height := by
  unfold rotateFor
  simp only
  split <;> exact ⟨rfl, rfl⟩

theorem missed?_rotateFor :
    (ring.rotateFor alive id).1.missed? other =
      if other = id then some Region.empty
      else ((ring.prune alive).missed? other).map (·.union ring.current) := by
  by_cases same : other = id
  · subst same
    unfold rotateFor
    cases found : (ring.prune alive).missed? other <;>
      simp [found, missed?_credit, missed?_append]
  · unfold rotateFor
    cases found : (ring.prune alive).missed? id with
    | none =>
      simp only [found, missed?_rotate, missed?_credit, missed?_append, same, Ne.symm same,
        ↓reduceIte, Option.or_none]
      rfl
    | some missed =>
      simp only [found, missed?_rotate, missed?_credit, same, ↓reduceIte]
      rfl

end Compositor.DamageRing
