import Compositor.Proofs.Draw.Strokes

/-!
# The inks of a stroke

If the clip of a stroke is normal and its texture can be read, the stroke puts one ink at most on
each pixel: the one that its shade has there, if the pixel is covered.
-/

namespace Compositor

theorem normal_covered (target bounds : Rect) {clip : Option Region}
    (normal : ∀ region ∈ clip, region.Normal) : (covered target bounds clip).Normal := by
  unfold covered
  split
  · exact Region.normal_empty
  · split
    · exact Region.normal_ofRect _
    · exact (Region.normal_ofRect _).inter (normal _ rfl)

def RectFill.inks (fill : RectFill) (bounds : Rect) (p : Point) : List Ink :=
  if (covered fill.target bounds fill.clip).contains p then
    [(fill.effectiveBlend, fill.color.quantize)]
  else []

theorem RectFill.laid_eq_inks (fill : RectFill) (normal : ∀ region ∈ fill.clip, region.Normal)
    (bounds : Rect) (p : Point) : fill.laid bounds p = fill.inks bounds p := by
  rw [laid, inks, Shade.laid_of_normal _ _ (normal_covered fill.target bounds normal), Shade.ink,
    Shade.constant]

def TextureDraw.inks (α : Type) [Scalar α] (d : TextureDraw) (b : Buffer) (bytes : Array UInt8)
    (bounds : Rect) (p : Point) : List Ink :=
  match sourceTexels d.effectiveSource b.width b.height with
  | none => []
  | some source =>
    if (covered d.effectiveTarget bounds d.clip).contains p then
      (d.shade α b bytes source).ink d.blend p
    else []

theorem TextureDraw.laid_eq_inks (α : Type) [Scalar α] (d : TextureDraw)
    (normal : ∀ region ∈ d.clip, region.Normal) (b : Buffer) (bytes : Array UInt8) (bounds : Rect)
    (p : Point) : d.laid α b bytes bounds p = d.inks α b bytes bounds p := by
  unfold laid inks
  cases sourceTexels d.effectiveSource b.width b.height with
  | none => simp only
  | some source =>
    simp only [Shade.laid_of_normal _ _ (normal_covered d.effectiveTarget bounds normal)]

/-- The inks of a stroke for a pixel of a destination with the given bounds. -/
def Stroke.inks (α : Type) [Scalar α] (s : Store) (bounds : Rect) (p : Point) : Stroke → List Ink
  | .texture d =>
    match d.texture with
    | .stored b => d.inks α b (s.pixels b.id) bounds p
    | .remote _ _ => []
  | .fill d => d.inks bounds p
  | .pause _ => []

def Stroke.clip : Stroke → Option Region
  | .texture d => d.clip
  | .fill d => d.clip
  | .pause _ => none

/-- The texture can be read and is not the destination, and the clip is normal. -/
structure Stroke.Fits (stroke : Stroke) (s : Store) (target : BufferId) : Prop where
  normal : ∀ region ∈ stroke.clip, region.Normal
  texture : ∀ d b, stroke = .texture d → d.texture = .stored b → b.id ≠ target ∧ s.Readable b

namespace Stroke.Fits

variable {stroke : Stroke} {s s' : Store} {target : BufferId}

theorem fill {fill : RectFill} (normal : ∀ region ∈ fill.clip, region.Normal) :
    (Stroke.fill fill).Fits s target :=
  ⟨normal, fun _ _ same => nomatch same⟩

theorem stored {d : TextureDraw} {b : Buffer} (normal : ∀ region ∈ d.clip, region.Normal)
    (texture : d.texture = .stored b) (apart : b.id ≠ target) (readable : s.Readable b) :
    (Stroke.texture d).Fits s target := by
  refine ⟨normal, fun d' b' same stored => ?_⟩
  cases same
  cases texture.symm.trans stored
  exact ⟨apart, readable⟩

theorem congr (fits : stroke.Fits s target)
    (same : ∀ id, id ≠ target → s'.entry? id = s.entry? id) : stroke.Fits s' target := by
  refine ⟨fits.normal, fun d b texture stored => ?_⟩
  obtain ⟨apart, readable⟩ := fits.texture d b texture stored
  exact ⟨apart, readable.congr (same b.id apart)⟩

/-- What a stroke draws does not depend on the destination. -/
theorem inks_congr (α : Type) [Scalar α] (fits : stroke.Fits s target)
    (same : ∀ id, id ≠ target → s'.entry? id = s.entry? id) (bounds : Rect) (p : Point) :
    stroke.inks α s' bounds p = stroke.inks α s bounds p := by
  cases stroke with
  | texture d =>
    simp only [inks]
    split
    · rename_i b stored
      rw [Store.pixels, same b.id (fits.texture d b rfl stored).1, Store.pixels]
    · rfl
  | fill d => simp only [inks]
  | pause span => simp only [inks]

theorem safe (fits : stroke.Fits s target) : stroke.Safe s target :=
  fun d b texture stored _ => fits.texture d b texture stored

theorem laid_eq_inks (α : Type) [Scalar α] (fits : stroke.Fits s target) (bounds : Rect)
    (p : Point) : stroke.laid α s bounds p = stroke.inks α s bounds p := by
  cases stroke with
  | texture d =>
    simp only [laid, inks]
    cases source : d.texture with
    | stored b =>
      simp only [(fits.texture d b rfl source).2.canRead, ↓reduceIte, d.laid_eq_inks α fits.normal]
    | remote width height => rfl
  | fill d => simp only [laid, inks, d.laid_eq_inks fits.normal]
  | pause span => simp only [laid, inks]

end Stroke.Fits

open Compositor.Action

/-- The pixels take the inks of all strokes, in order. -/
theorem Pass.strokes_inked {α : Type} [Scalar α] [LawfulScalar α] {p : Pass} {σ : Session}
    (ready : p.Ready σ.store) {strokes : List Stroke}
    (fits : ∀ stroke ∈ strokes, stroke.Fits σ.store p.target.buffer.id) :
    ∃ p' stats σ', p.strokes α strokes σ = .ok (p', stats) σ' ∧ p'.target = p.target ∧
      p.Inked (fun q => strokes.flatMap (·.inks α σ.store p.bounds q)) σ.store σ'.store := by
  have same (q : Point) : strokes.flatMap (·.laid α σ.store p.bounds q) =
      strokes.flatMap (·.inks α σ.store p.bounds q) :=
    List.flatMap_congr fun s mem => (fits s mem).laid_eq_inks α p.bounds q
  simpa only [same] using strokes_laid (α := α) ready fun s mem => (fits s mem).safe

end Compositor
