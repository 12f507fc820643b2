import Compositor.Proofs.Draw.Sampling

/-!
# Shades of textures

A texture has a colour wherever a draw asks for one. A plain copy asks for the texel as far from the
corner of the source as the pixel is from the corner of the target, and neither leaves the source
nor the range of coordinates; and samples are taken inside the texture. So no pixel that a draw
covers is a fault.
-/

namespace Compositor

/-- The sides of an overlap reach from edge to edge. -/
theorem Rect.sides_of_inter {r s cut : Rect} (h : r.inter s = some cut) :
    cut.x.toInt + cut.width.toInt = cut.right.toInt ∧
      cut.y.toInt + cut.height.toInt = cut.bottom.toInt := by
  have wide := r.toInt_right_sub_le
  have high := r.toInt_bottom_sub_le
  obtain ⟨left, top, right, bottom, wide', high'⟩ := edges_of_inter h
  rw [left, right] at wide'
  rw [top, bottom] at high'
  have sides : cut.width = Coord.sub (min r.right s.right) (max r.x s.x) ∧
      cut.height = Coord.sub (min r.bottom s.bottom) (max r.y s.y) := by
    simp only [inter] at h
    split at h
    · cases h
    · obtain rfl := Option.some.inj h
      exact ⟨rfl, rfl⟩
  rw [left, top, right, bottom, sides.1, sides.2]
  simp only [Coord.toInt_sub, Coord.toInt_max, Coord.toInt_min]
  omega

/-- The right and the bottom edge are coordinates, so nothing of the rectangle is cut off. -/
structure Rect.Fits (r : Rect) : Prop where
  right : r.x.toInt + r.width.toInt ≤ 2147483647
  bottom : r.y.toInt + r.height.toInt ≤ 2147483647

namespace Rect

variable {r s : Rect} {p : Point}

theorem fits_of_inter {cut : Rect} (h : r.inter s = some cut) : cut.Fits := by
  obtain ⟨wide, high⟩ := sides_of_inter h
  have := cut.right.toInt_lt
  have := cut.bottom.toInt_lt
  exact ⟨by omega, by omega⟩

theorem offset_of_contains (inside : r.contains p) :
    0 ≤ p.x.toInt - r.x.toInt ∧ p.x.toInt - r.x.toInt < r.width.toInt ∧
      0 ≤ p.y.toInt - r.y.toInt ∧ p.y.toInt - r.y.toInt < r.height.toInt := by
  rw [contains_iff, toInt_right, toInt_bottom] at inside
  have := p.x.le_toInt
  have := p.y.le_toInt
  omega

/-- Every offset inside the sides is that of a point. -/
theorem Fits.exists_point (fits : r.Fits) {column row : Int}
    (inside : 0 ≤ column ∧ column < r.width.toInt ∧ 0 ≤ row ∧ row < r.height.toInt) :
    ∃ p, r.contains p ∧ p.x.toInt - r.x.toInt = column ∧ p.y.toInt - r.y.toInt = row := by
  obtain ⟨right, bottom⟩ := fits
  have := r.x.le_toInt
  have := r.y.le_toInt
  have x := Int32.toInt_ofInt_of_le (n := r.x.toInt + column) (by omega) (by omega)
  have y := Int32.toInt_ofInt_of_le (n := r.y.toInt + row) (by omega) (by omega)
  refine ⟨⟨Int32.ofInt (r.x.toInt + column), Int32.ofInt (r.y.toInt + row)⟩, ?_, ?_, ?_⟩
  · rw [contains_iff, toInt_right, toInt_bottom]
    simp only [x, y]
    omega
  · simp only [x]
    omega
  · simp only [y]
    omega

end Rect

/-- A coordinate is exactly the integer that it stands for. -/
theorem Coord.exact_toInt (operation : Arithmetic) (c : Coord) :
    Coord.exact operation c.toInt = .ok c := by
  have low := c.le_toInt
  have high := c.toInt_lt
  rw [exact, if_pos ⟨by omega, by omega⟩, Int32.ofInt_toInt]

theorem Coord.exact_eq (operation : Arithmetic) {n : Int} (low : -2147483648 ≤ n)
    (high : n ≤ 2147483647) :
    Coord.exact operation n = .ok (Int32.ofInt n) ∧ (Int32.ofInt n).toInt = n :=
  ⟨if_pos ⟨low, high⟩, Int32.toInt_ofInt_of_le (by omega) (by omega)⟩

theorem TextureDraw.inter_of_sourceTexels {box : Box Float} {b : Buffer} {source : Rect}
    (h : sourceTexels box b.width b.height = some source) :
    ∃ r : Rect, r.inter b.bounds = some source := by
  unfold sourceTexels at h
  exact ⟨_, h⟩

namespace Image

variable {α : Type} [Scalar α] {b : Buffer} {bytes : Array UInt8} {r source target : Rect}
  {p q : Point} {mask : UInt8}

/-- The place as far from the corner of a source as a point is from the corner of a target; what a
plain copy computes. -/
def copied (source target : Rect) (p : Point) : Except Fault Point := do
  let dx ← Coord.exact .subtract (source.x.toInt - target.x.toInt)
  let dy ← Coord.exact .subtract (source.y.toInt - target.y.toInt)
  let x ← Coord.exact .add (p.x.toInt + dx.toInt)
  let y ← Coord.exact .add (p.y.toInt + dy.toInt)
  return ⟨x, y⟩

/-- A plain copy gives a point the texel in that place. -/
theorem copyShade_of_copied (here : copied source target p = .ok q) (image : Image) :
    image.copyShade source target mask p = (fun c => some (c.mask mask)) <$> image.get q := by
  have first : image.copyShade source target mask p = (do
      let q ← copied source target p
      return some ((← image.get q).mask mask)) := by
    simp only [copyShade, copied, bind_assoc, pure_bind]
  rw [first, here]
  rfl

/-- The way there stays in the range of coordinates. -/
theorem copied_eq (part : r.inter b.bounds = some source) (column : 0 ≤ p.x.toInt)
    (row : 0 ≤ p.y.toInt) (inside : source.contains q)
    (x : q.x.toInt - source.x.toInt = p.x.toInt - target.x.toInt)
    (y : q.y.toInt - source.y.toInt = p.y.toInt - target.y.toInt) :
    copied source target p = .ok q := by
  obtain ⟨left, -, top, -⟩ := Buffer.edges_of_contains ((Rect.contains_of_inter part).1 inside).2
  have := q.x.toInt_lt
  have := q.y.toInt_lt
  have := p.x.toInt_lt
  have := p.y.toInt_lt
  obtain ⟨dx, dx'⟩ := Coord.exact_eq .subtract
    (n := source.x.toInt - target.x.toInt) (by omega) (by omega)
  obtain ⟨dy, dy'⟩ := Coord.exact_eq .subtract
    (n := source.y.toInt - target.y.toInt) (by omega) (by omega)
  have right : p.x.toInt + (source.x.toInt - target.x.toInt) = q.x.toInt := by omega
  have down : p.y.toInt + (source.y.toInt - target.y.toInt) = q.y.toInt := by omega
  rw [copied, dx, dy]
  change (do
    let x ← Coord.exact .add (p.x.toInt + _)
    let y ← Coord.exact .add (p.y.toInt + _)
    return (⟨x, y⟩ : Point)) = _
  rw [dx', dy', right, down, Coord.exact_toInt, Coord.exact_toInt]
  rfl

/-- A plain copy takes the texel as far from the corner of the source as the pixel is from the
corner of the target. -/
theorem copyShade_eq (part : r.inter b.bounds = some source) (column : 0 ≤ p.x.toInt)
    (row : 0 ≤ p.y.toInt) (inside : source.contains q)
    (x : q.x.toInt - source.x.toInt = p.x.toInt - target.x.toInt)
    (y : q.y.toInt - source.y.toInt = p.y.toInt - target.y.toInt) (image : Image) :
    image.copyShade source target mask p = (fun c => some (c.mask mask)) <$> image.get q :=
  copyShade_of_copied (copied_eq part column row inside x y) image

/-- The texel that a plain copy puts on a pixel of the target lies in the source. -/
theorem exists_copied (part : r.inter b.bounds = some source)
    (width : source.width = target.width) (height : source.height = target.height)
    (column : 0 ≤ p.x.toInt) (row : 0 ≤ p.y.toInt) (inside : target.contains p) :
    ∃ q, source.contains q ∧ copied source target p = .ok q := by
  have offset := Rect.offset_of_contains inside
  rw [← width, ← height] at offset
  obtain ⟨q, texel, x, y⟩ := (Rect.fits_of_inter part).exists_point offset
  exact ⟨q, texel, copied_eq part column row texel x y⟩

theorem copyShade_ok (size : bytes.size = b.size) (part : r.inter b.bounds = some source)
    (width : source.width = target.width) (height : source.height = target.height)
    (column : 0 ≤ p.x.toInt) (row : 0 ≤ p.y.toInt) (inside : target.contains p) :
    ∃ c, (b.image bytes).copyShade source target mask p = .ok c := by
  obtain ⟨q, texel, copied⟩ := exists_copied part width height column row inside
  obtain ⟨c, here⟩ := get_ok size ((Rect.contains_of_inter part).1 texel).2
  exact ⟨_, (copyShade_of_copied copied _).trans (congrArg (Functor.map _) here)⟩

theorem textureShade_ok [LawfulScalar α] (size : bytes.size = b.size)
    (part : r.inter b.bounds = some source) (column : 0 ≤ p.x.toInt) (row : 0 ≤ p.y.toInt)
    (inside : target.contains p) (t : Transform) (filter : Filter) :
    ∃ c, (b.image bytes).textureShade α t source target filter mask p = .ok c := by
  unfold textureShade
  split
  · rename_i plain
    simp only [isPlainCopy, Bool.and_eq_true, decide_eq_true_eq] at plain
    exact copyShade_ok size part plain.1.2 plain.2 column row inside
  · obtain ⟨c, sampled⟩ := sample_ok size part filter
      ((textureToTarget t source target).inverse.apply (p.center (α := α)))
    refine ⟨c.map (·.mask mask), ?_⟩
    rw [mappedShade]
    simp only [sampled]
    rfl

end Image

end Compositor
