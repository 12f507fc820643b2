import Compositor.Proofs.Draw.Whole

/-!
# Draws see their source only

A draw of a texture reads the colours of its source rectangle and nothing else of the texture: a
copied texel lies in the source, and so do the columns and rows that a mean is taken at and the
texel under a position that is a number. So two textures that hold the same colours there leave the
same bytes, whatever else they hold.
-/

namespace Compositor

open Scalar

/-- Two images have the same colours in a rectangle. -/
def Image.Agree (source : Rect) (image image' : Image) : Prop :=
  ∀ q, source.contains q → image'.get q = image.get q

namespace Image

variable {α : Type} [Scalar α] {b : Buffer} {image image' : Image} {r source target : Rect}
  {p : Point}

theorem Agree.sample [LawfulScalar α] (agree : Agree source image image')
    (part : r.inter b.bounds = some source) (filter : Filter) (position : Position α)
    (number : filter = .nearest → position.IsNumber) :
    image'.sample source filter position = image.sample source filter position := by
  cases missed : source.misses position with
  | true => rw [sample_of_misses missed, sample_of_misses missed]
  | false =>
    cases filter with
    | nearest =>
      rw [sample_nearest missed, sample_nearest missed,
        agree _ (contains_nearest_of_isNumber part missed (number rfl))]
    | bilinear =>
      have texel (m n : Int) : image'.get ⟨column source m, row source n⟩ =
          image.get ⟨column source m, row source n⟩ := agree _ (contains_sampled part m n)
      rw [sample_bilinear missed, sample_bilinear missed]
      simp only [texel]

theorem Agree.copyShade (agree : Agree source image image') (part : r.inter b.bounds = some source)
    (width : source.width = target.width) (height : source.height = target.height)
    (column : 0 ≤ p.x.toInt) (row : 0 ≤ p.y.toInt) (inside : target.contains p) (mask : UInt8) :
    image'.copyShade source target mask p = image.copyShade source target mask p := by
  obtain ⟨q, texel, copied⟩ := exists_copied part width height column row inside
  rw [copyShade_of_copied copied, copyShade_of_copied copied, agree q texel]

/-- Images that agree on the source are shaded alike wherever the target can be drawn. -/
theorem Agree.textureShade [LawfulScalar α] (agree : Agree source image image')
    (part : r.inter b.bounds = some source) (column : 0 ≤ p.x.toInt) (row : 0 ≤ p.y.toInt)
    (inside : target.contains p) (t : Transform) (filter : Filter) (mask : UInt8)
    (number : filter = .nearest →
      ((textureToTarget t source target).inverse.apply (p.center (α := α))).IsNumber) :
    image'.textureShade α t source target filter mask p =
      image.textureShade α t source target filter mask p := by
  unfold Image.textureShade
  split
  · rename_i plain
    simp only [isPlainCopy, Bool.and_eq_true, decide_eq_true_eq] at plain
    exact agree.copyShade part plain.1.2 plain.2 column row inside mask
  · rw [mappedShade, mappedShade]
    simp only [agree.sample part filter _ number]

end Image

/-! ## Two textures -/

/-- Two textures hold the same colours in a rectangle; their other texels, and the bytes that are no
part of a colour, may differ. -/
def Buffer.SameColors (b b' : Buffer) (source : Rect) (bytes bytes' : Array UInt8) : Prop :=
  ∀ q, source.contains q → b'.format.decode (bytesAt bytes' (b'.offset q)) =
    b.format.decode (bytesAt bytes (b.offset q))

instance (b b' : Buffer) (source : Rect) (bytes bytes' : Array UInt8) :
    Decidable (b.SameColors b' source bytes bytes') :=
  decidable_of_iff (∀ q ∈ source.points, b'.format.decode (bytesAt bytes' (b'.offset q)) =
    b.format.decode (bytesAt bytes (b.offset q)))
    (forall_congr' fun _ => imp_congr_left Rect.mem_points)

theorem Shade.laid_congr {shade shade' : Shade} {mode : Blend} {region : Region}
    (same : ∀ p, region.contains p → shade' p = shade p) (p : Point) :
    shade'.laid mode region p = shade.laid mode region p := by
  by_cases mem : region.contains p
  · rw [laid, laid, ink, ink, same p mem]
  · have unmet : region.points.count p = 0 :=
      List.count_eq_zero.2 fun met => mem (Region.mem_points.1 met)
    rw [laid, laid, unmet]
    rfl

/-- Textures that hold the same colours in a rectangle are images that agree there. -/
theorem Buffer.SameColors.agree {b b' : Buffer} {r source : Rect} {bytes bytes' : Array UInt8}
    (same : b.SameColors b' source bytes bytes') (part : r.inter b.bounds = some source)
    (width : b'.width = b.width) (height : b'.height = b.height) (size : bytes.size = b.size)
    (size' : bytes'.size = b'.size) : (b.image bytes).Agree source (b'.image bytes') := by
  intro q inside
  have here := ((Rect.contains_of_inter part).1 inside).2
  have bounds : b'.bounds = b.bounds := by
    rw [Buffer.bounds, width, height, Buffer.bounds]
  rw [Image.get_image size here, Image.get_image size' (bounds ▸ here), same q inside]

namespace TextureDraw

variable {d : TextureDraw} {b b' target : Buffer} {bytes bytes' : Array UInt8}

/-- The positions in a texture that pixels are looked up at are numbers. -/
def AtNumbers (α : Type) [Scalar α] (d : TextureDraw) (b : Buffer) : Prop :=
  ∀ source, sourceTexels d.effectiveSource b.width b.height = some source → ∀ x : Point,
    ((textureToTarget d.transform source d.effectiveTarget).inverse.apply
      (x.center (α := α))).IsNumber

/-- Exact positions always are. -/
theorem atNumbers_rat (d : TextureDraw) (b : Buffer) : d.AtNumbers Rat b :=
  fun _ _ _ => Position.isNumber_rat _

/-- The boxes of a draw depend on the size of its texture only. -/
theorem boxes_withTexture (texture : d.texture = .stored b) (width : b'.width = b.width)
    (height : b'.height = b.height) :
    { d with texture := .stored b' }.effectiveSource = d.effectiveSource ∧
      { d with texture := .stored b' }.effectiveTarget = d.effectiveTarget := by
  have wide : (Texture.stored b').width = d.texture.width := by
    rw [texture]
    exact width
  have high : (Texture.stored b').height = d.texture.height := by
    rw [texture]
    exact height
  unfold effectiveSource effectiveTarget
  rw [wide, high]
  exact ⟨rfl, rfl⟩

/-- Two textures that hold the same colours in the source lay the same inks. -/
theorem laid_withTexture (α : Type) [Scalar α] [LawfulScalar α]
    (texture : d.texture = .stored b) (width : b'.width = b.width) (height : b'.height = b.height)
    (numbers : d.filter = .nearest → d.AtNumbers α b) (size : bytes.size = b.size)
    (size' : bytes'.size = b'.size)
    (same : ∀ source, sourceTexels d.effectiveSource b.width b.height = some source →
      b.SameColors b' source bytes bytes') (x : Point) :
    { d with texture := .stored b' }.laid α b' bytes' target.bounds x =
      d.laid α b bytes target.bounds x := by
  obtain ⟨sources, targets⟩ := boxes_withTexture texture width height
  unfold laid
  rw [sources, targets, width, height]
  cases found : sourceTexels d.effectiveSource b.width b.height with
  | none => rfl
  | some source =>
    obtain ⟨r, part⟩ := inter_of_sourceTexels found
    have agree := (same source found).agree part width height size size'
    refine Shade.laid_congr (fun p mem => ?_) x
    obtain ⟨inside, visible, -⟩ := contains_covered.1 mem
    obtain ⟨column, -, row, -⟩ := Buffer.edges_of_contains visible
    have shaded := agree.textureShade (α := α) part column row inside d.transform d.filter d.mask
      fun nearest => numbers nearest source found p
    rw [shade, shade, targets]
    exact shaded

end TextureDraw

/-! ## Drawing -/

namespace Pass

open Compositor.Action

variable {α : Type} [Scalar α] {p : Pass} {σ σ' : Session} {d : TextureDraw} {b b' : Buffer}

/-- Of its texture a draw sees the colours in its source rectangle only. Two textures of one size
that hold the same colours there, and can both be read or can both not, leave the same bytes in the
destination, whatever they hold elsewhere. For the nearest filter the positions have to be numbers,
as all exact ones are: the texel is read under the position, and lies in the source by itself. -/
theorem draw_sees_only_source [LawfulScalar α] (holds : p.Holds σ.store) (whole : σ.store.Whole)
    (holds' : p.Holds σ'.store) (whole' : σ'.store.Whole)
    (below : σ'.store.pixels p.target.buffer.id = σ.store.pixels p.target.buffer.id)
    (texture : d.texture = .stored b) (has : σ.store.Has b) (has' : σ'.store.Has b')
    (granted : σ'.store.canRead b' = σ.store.canRead b)
    (width : b'.width = b.width) (height : b'.height = b.height)
    (numbers : d.filter = .nearest → d.AtNumbers α b)
    (same : ∀ source, TextureDraw.sourceTexels d.effectiveSource b.width b.height = some source →
      b.SameColors b' source (σ.store.pixels b.id) (σ'.store.pixels b'.id)) :
    (∃ p₁ σ₁ p₂ σ₂, p.drawTexture α d σ = .ok p₁ σ₁ ∧
      p.drawTexture α { d with texture := .stored b' } σ' = .ok p₂ σ₂ ∧
      σ₂.store.pixels p.target.buffer.id = σ₁.store.pixels p.target.buffer.id) ∧
    d.AtNumbers Rat b ∧
    ∀ (source : Rect) (x : Position Rat), source.misses x = false →
      let image := b.image (σ.store.pixels b.id)
      image.sample source .nearest x = some <$> image.get x.texel ∧ source.contains x.texel := by
  refine ⟨?_, d.atNumbers_rat b,
    fun source x found => ⟨Image.sample_nearest found, Rect.contains_texel found⟩⟩
  have known : (Stroke.texture d).Known σ.store := by
    rintro _ _ ⟨⟩ stored
    cases texture.symm.trans stored
    exact has
  have known' : (Stroke.texture { d with texture := .stored b' }).Known σ'.store := by
    rintro _ _ ⟨⟩ ⟨⟩
    exact has'
  obtain ⟨p₁, σ₁, drawn, -, bytes, written, takes⟩ := drawTexture_laid (α := α)
    (holds.ready whole) (known.safe whole holds)
  obtain ⟨p₂, σ₂, drawn', -, bytes', written', takes'⟩ := drawTexture_laid (α := α)
    (holds'.ready whole') (known'.safe whole' holds')
  refine ⟨p₁, σ₁, p₂, σ₂, drawn, drawn', ?_⟩
  have inks : (Stroke.texture { d with texture := .stored b' }).laid α σ'.store p.bounds =
      (Stroke.texture d).laid α σ.store p.bounds := by
    funext x
    simp only [Stroke.laid, texture, granted]
    split
    · rename_i readable
      have texels := (whole.readable has readable).stored.size
      have texels' := (whole'.readable has' (granted.trans readable)).stored.size
      exact d.laid_withTexture α texture width height numbers texels texels' same x
    · rfl
  rw [inks, below] at takes'
  obtain ⟨e, found, -⟩ := (holds.ready whole).stored
  obtain ⟨e', found', -⟩ := (holds'.ready whole').stored
  rw [written, written', Store.pixels_withPixels found, Store.pixels_withPixels found']
  exact takes.unique takes'

/-- Two of three texels are stretched and mirrored; the first one, and the padding of all of them,
are not seen. -/
theorem hidden_texels_leave_no_trace :
    let b : Buffer := ⟨⟨0⟩, 5, 1, .argb8888, true⟩
    let shown : Buffer := ⟨⟨1⟩, 3, 1, .xrgb8888, true⟩
    let other : Buffer := ⟨⟨2⟩, 3, 1, .xrgb8888, true⟩
    let d : TextureDraw := { texture := .stored shown, source := ⟨1, 0, 3, 1⟩, target := b.bounds,
                             transform := Transform.mirror, alpha := some 0.5 }
    let σ : Session := ⟨⟨[⟨b, 2, .writing, Array.replicate 20 9, []⟩,
      ⟨shown, 1, .idle, #[1, 2, 3, 4, 5, 6, 7, 8, 9, 10, 11, 12], []⟩,
      ⟨other, 1, .idle, #[0, 0, 0, 0, 5, 6, 7, 0, 9, 10, 11, 0], []⟩], [], []⟩, default, [], []⟩
    let p : Pass := ⟨⟨b, .readWrite⟩, none, {}⟩
    ∃ p₁ σ₁ p₂ σ₂, p.drawTexture Rat d σ = .ok p₁ σ₁ ∧
      p.drawTexture Rat { d with texture := .stored other } σ = .ok p₂ σ₂ ∧
      σ₂.store.pixels b.id = σ₁.store.pixels b.id := by
  intro b shown other d σ p
  have whole : σ.store.Whole := by
    rintro ⟨_ | _ | _ | i⟩ e found <;> cases found <;> exact ⟨rfl, fun _ _ => rfl, nofun⟩
  have holds : p.Holds σ.store := ⟨rfl, rfl, by decide, rfl⟩
  have found : TextureDraw.sourceTexels d.effectiveSource shown.width shown.height =
      some ⟨1, 0, 2, 1⟩ := by decide +kernel
  have has : σ.store.Has shown ∧ σ.store.Has other := by decide
  have same (source : Rect) (found' : TextureDraw.sourceTexels d.effectiveSource shown.width
      shown.height = some source) : shown.SameColors other source (σ.store.pixels shown.id)
        (σ.store.pixels other.id) := by
    cases found.symm.trans found'
    decide
  exact (draw_sees_only_source holds whole holds whole rfl rfl has.1 has.2 rfl rfl rfl
    (fun _ => d.atNumbers_rat shown) same).1

end Pass

end Compositor
