import Compositor.Proofs.Draw.Stretch
import Compositor.Proofs.Draw.Unscaled
import Compositor.Proofs.Pixel.Premultiplied

/-!
# Scaled draws

In exact numbers every pixel of a target finds a sample, since the middle of a pixel lies between
the edges of the target and so comes from between the edges of the source. A sample is a texel of
the source or a mean of four, and the mean of equal bytes is the byte; so no channel of a sample
leaves the range that it has over the source, and a source of one colour fills what the draw covers.
-/

namespace Compositor

open Scalar

/-! ## Colours between colours -/

def Rgba8.channels : List (Rgba8 → UInt8) := [r, g, b, a]

/-- Each channel lies between the least and the greatest that the channel is in some colours. -/
def Rgba8.Within (c : Rgba8) (colors : Set Rgba8) : Prop :=
  ∀ channel ∈ channels, (∃ low ∈ colors, channel low ≤ channel c) ∧
    ∃ high ∈ colors, channel c ≤ channel high

namespace Rgba8

variable {c other : Rgba8} {colors more : Set Rgba8}

theorem within_of_mem (mem : c ∈ colors) : c.Within colors :=
  fun _ _ => ⟨⟨c, mem, UInt8.le_refl _⟩, c, mem, UInt8.le_refl _⟩

theorem Within.mono (within : c.Within colors) (subset : colors ⊆ more) : c.Within more := by
  intro channel mem
  obtain ⟨⟨low, least, below⟩, high, greatest, above⟩ := within channel mem
  exact ⟨⟨low, subset least, below⟩, high, subset greatest, above⟩

/-- Between a colour and itself there is no other. -/
theorem Within.eq (within : c.Within {other}) : c = other := by
  have same (channel) (mem : channel ∈ channels) : channel c = channel other := by
    obtain ⟨⟨_, rfl, below⟩, _, rfl, above⟩ := within channel mem
    exact UInt8.le_antisymm above below
  have red := same r (by simp [channels])
  have green := same g (by simp [channels])
  have blue := same b (by simp [channels])
  have alpha := same a (by simp [channels])
  cases c
  cases other
  rw [Rgba8.mk.injEq]
  exact ⟨red, green, blue, alpha⟩

end Rgba8

namespace Image

variable {right down : Rat}

/-- The mean of equal values is their value. -/
theorem mix_same (right down : Rat) (p : UInt8) : mix right down p p p p = p := by
  have weighted : mix right down p p p p = toByte (p.toNat : Rat) := by
    rw [mix]
    congr 1
    simp only [one, ofInt]
    push_cast
    ring
  rw [weighted, toByte_natCast]

/-- A mean with weights that are not negative lies between the colours that it is taken of. -/
theorem mixColors_within (unit : 0 ≤ right ∧ right ≤ 1) (unit' : 0 ≤ down ∧ down ≤ 1)
    (p q s t : Rgba8) : (mixColors right down p q s t).Within {p, q, s, t} := by
  intro channel mem
  have mixed : channel (mixColors right down p q s t) =
      mix right down (channel p) (channel q) (channel s) (channel t) := by
    simp only [Rgba8.channels, List.mem_cons, List.not_mem_nil, or_false] at mem
    obtain rfl | rfl | rfl | rfl := mem <;> rfl
  let colors : Set Rgba8 := {p, q, s, t}
  have finite : colors.Finite := Set.toFinite _
  obtain ⟨low, least, below⟩ := colors.exists_min_image (fun c => (channel c).toNat) finite
    ⟨p, by simp [colors]⟩
  obtain ⟨high, greatest, above⟩ := colors.exists_max_image (fun c => (channel c).toNat) finite
    ⟨p, by simp [colors]⟩
  simp only [← UInt8.le_iff_toNat_le] at below above
  rw [mixed]
  refine ⟨⟨low, least, ?_⟩, high, greatest, ?_⟩
  · rw [← mix_same right down (channel low)]
    exact mix_mono unit unit' (below p (by simp [colors])) (below q (by simp [colors]))
      (below s (by simp [colors])) (below t (by simp [colors]))
  · rw [← mix_same right down (channel high)]
    exact mix_mono unit unit' (above p (by simp [colors])) (above q (by simp [colors]))
      (above s (by simp [colors])) (above t (by simp [colors]))

end Image

/-! ## Samples -/

/-- The colours of the texels in a rectangle. -/
def Buffer.colors (b : Buffer) (bytes : Array UInt8) (source : Rect) : Set Rgba8 :=
  {c | ∃ q, source.contains q ∧ b.format.decode (bytesAt bytes (b.offset q)) = c}

namespace Image

variable {b : Buffer} {bytes : Array UInt8} {r source : Rect} {p : Position Rat}

theorem misses_of_mem_interior (part : r.inter b.bounds = some source)
    (inside : p ∈ source.interior) : source.misses p = false := by
  obtain ⟨wide, high⟩ := Rect.sides_of_inter part
  obtain ⟨⟨left, right⟩, above, below⟩ := inside
  rw [Rect.misses_eq_false_iff, ← wide, ← high]
  push_cast
  exact ⟨⟨left.le, right⟩, above.le, below⟩

/-- Between the edges of a source both filters find a colour, and it lies between the colours of
the source. -/
theorem sample_within (size : bytes.size = b.size) (part : r.inter b.bounds = some source)
    (inside : p ∈ source.interior) (filter : Filter) :
    ∃ c, (b.image bytes).sample source filter p = .ok (some c) ∧
      c.Within (b.colors bytes source) := by
  have found := misses_of_mem_interior part inside
  have texel {q : Point} (mem : source.contains q) :
      ∃ c ∈ b.colors bytes source, (b.image bytes).get q = .ok c :=
    ⟨_, ⟨q, mem, rfl⟩, get_image size ((Rect.contains_of_inter part).1 mem).2⟩
  have corner (m n : Int) := texel (contains_sampled part m n)
  cases filter with
  | nearest =>
    obtain ⟨c, mem, here⟩ := texel (Rect.contains_texel found)
    exact ⟨c, by rw [sample_nearest found, here]; rfl, Rgba8.within_of_mem mem⟩
  | bilinear =>
    obtain ⟨c₁, mem₁, corner₁⟩ := corner (floor (p.x - half)) (floor (p.y - half))
    obtain ⟨c₂, mem₂, corner₂⟩ := corner (floor (p.x - half) + 1) (floor (p.y - half))
    obtain ⟨c₃, mem₃, corner₃⟩ := corner (floor (p.x - half)) (floor (p.y - half) + 1)
    obtain ⟨c₄, mem₄, corner₄⟩ := corner (floor (p.x - half) + 1) (floor (p.y - half) + 1)
    have unit (x : Rat) : 0 ≤ x - ofInt (floor x) ∧ x - ofInt (floor x) ≤ 1 :=
      ⟨Int.fract_nonneg x, (Int.fract_lt_one x).le⟩
    refine ⟨_, ?_, (mixColors_within (unit (p.x - half)) (unit (p.y - half)) c₁ c₂ c₃ c₄).mono ?_⟩
    · rw [sample_bilinear found]
      simp only [corner₁, corner₂, corner₃, corner₄]
      rfl
    · simp [Set.insert_subset_iff, mem₁, mem₂, mem₃, mem₄]

end Image

/-! ## What is drawn -/

namespace TextureDraw

variable {d : TextureDraw} {b target : Buffer} {bytes : Array UInt8} {source : Rect} {x : Point}
  {c : Rgba8}

/-- A source of one colour gives it to every pixel that the draw covers. -/
theorem shade_of_uniform (found : sourceTexels d.effectiveSource b.width b.height = some source)
    (size : bytes.size = b.size) (filled : ¬ d.effectiveTarget.isEmpty)
    (uniform : b.colors bytes source ⊆ {c})
    (mem : (covered d.effectiveTarget target.bounds d.clip).contains x) :
    d.shade Rat b bytes source x = .ok (some (c.mask d.mask)) := by
  obtain ⟨r, part⟩ := inter_of_sourceTexels found
  obtain ⟨inside, visible, -⟩ := contains_covered.1 mem
  unfold shade Image.textureShade
  split
  · rename_i plain
    simp only [isPlainCopy, Bool.and_eq_true, decide_eq_true_eq] at plain
    obtain ⟨column, -, row, -⟩ := Buffer.edges_of_contains visible
    obtain ⟨q, texel, copied⟩ := Image.exists_copied part plain.1.2 plain.2 column row inside
    rw [Image.copyShade_of_copied copied,
      Image.get_image size ((Rect.contains_of_inter part).1 texel).2, uniform ⟨q, texel, rfl⟩]
    rfl
  · have between := inverse_textureToTarget_mem_interior d.transform
      (Rect.isEmpty_of_inter part ▸ Bool.false_ne_true) filled (Rect.center_mem_interior inside)
    obtain ⟨c', sampled, within⟩ := Image.sample_within size part between d.filter
    obtain rfl := (within.mono uniform).eq
    rw [Image.mappedShade]
    simp only [sampled]
    rfl

end TextureDraw

namespace Pass

/-- A scaled draw leaves no hole. The map of a draw sends the source onto the target, and the middle
of each pixel of the target comes from between the edges of the source; so either filter finds a
colour there, and each of its channels is within its range over the source. A source of one colour,
drawn in full and without blending, gives the colour to every pixel that the draw covers. All this
is about every draw whose box has the source's edges, and about those whose box is rounded to it. -/
theorem scaled_draw_leaves_no_hole {b : Buffer} {source target : Rect} (t : Transform)
    (inside : b.bounds.includes source) (fits : source.Fits) (filled : ¬ target.isEmpty) :
    let map : Affine Rat := textureToTarget t source target
    map.apply '' source.extent = target.extent ∧
    (∀ x, target.contains x → map.inverse.apply x.center ∈ source.interior ∧
      ∀ (bytes : Array UInt8) (filter : Filter), bytes.size = b.size →
        ∃ c, (b.image bytes).sample source filter (map.inverse.apply x.center) = .ok (some c) ∧
          c.Within (b.colors bytes source)) ∧
    (∀ d : TextureDraw, d.source = source.toBox →
      TextureDraw.sourceTexels d.effectiveSource b.width b.height = some source) ∧
    ∀ (p : Pass) (σ : Session) (d : TextureDraw) (c : Rgba8), p.Ready σ.store →
      d.texture = .stored b → b.id ≠ p.target.buffer.id → σ.store.Readable b →
      TextureDraw.sourceTexels d.effectiveSource b.width b.height = some source →
      d.effectiveTarget = target → d.transform = t → d.mask = 255 → d.blend = .none →
      (∀ q, source.contains q → b.format.decode (σ.store.pixel b q) = c) →
        ∃ σ', p.drawTexture Rat d σ = .ok p.counted σ' ∧
          ∀ x, (covered target p.bounds d.clip).contains x →
            σ'.store.pixel p.target.buffer x = p.target.buffer.format.encode c := by
  have part := Rect.inter_of_includes inside fits
  have filled' : ¬ source.isEmpty := Rect.isEmpty_of_inter part ▸ Bool.false_ne_true
  refine ⟨textureToTarget_image_extent t filled' filled, fun x mem => ?_,
    fun d whole => d.sourceTexels_toBox whole inside fits, ?_⟩
  · have between := inverse_textureToTarget_mem_interior t filled' filled
      (Rect.center_mem_interior mem)
    exact ⟨between, fun bytes filter size => Image.sample_within size part between filter⟩
  · rintro p σ d c ready texture apart readable found rfl rfl full replaces uniform
    have colored (x : Point) (mem : (covered d.effectiveTarget p.bounds d.clip).contains x) :
        d.shade Rat b (σ.store.pixels b.id) source x = .ok (some c) := by
      rw [d.shade_of_uniform found readable.stored.size filled ?_ mem, full, Rgba8.mask_full]
      rintro _ ⟨q, texel, rfl⟩
      exact uniform q texel
    obtain ⟨bytes, painted, stored⟩ := Image.paint_replaces ready.stored.size
      (fun x mem => (contains_covered.1 mem).2.1) fun x mem => ⟨_, colored x mem⟩
    rw [← replaces, ← d.onto_eq Rat found] at painted
    obtain ⟨σ', drawn, written⟩ := drawTexture_eq_ok ready texture apart readable painted
    obtain ⟨e, kept, -⟩ := ready.stored
    refine ⟨σ', drawn, fun x mem => ?_⟩
    rw [Store.pixel, written, Store.pixels_withPixels kept, stored x c mem (colored x mem)]

/-- Two texels of three, mirrored, turned and stretched over more than a buffer. -/
theorem stretched_texels_fill_buffer :
    let b : Buffer := ⟨⟨0⟩, 2, 2, .xrgb8888, true⟩
    let texture : Buffer := ⟨⟨1⟩, 3, 1, .argb8888, true⟩
    let source : Rect := ⟨1, 0, 2, 1⟩
    let target : Rect := ⟨-1, 0, 5, 3⟩
    let t : Transform := ⟨true, 1⟩
    let d : TextureDraw :=
      { texture := .stored texture, source := source.toBox, target, transform := t,
        blend := .none }
    let σ : Session := ⟨⟨[⟨b, 2, .writing, .replicate 16 0, []⟩,
      ⟨texture, 1, .idle, #[1, 2, 3, 4, 5, 6, 7, 255, 5, 6, 7, 255], []⟩], [], []⟩, default, [], []⟩
    let p : Pass := ⟨⟨b, .readWrite⟩, none, {}⟩
    let map : Affine Rat := textureToTarget t source target
    map.apply '' source.extent = target.extent ∧
    map.inverse.apply (Point.center ⟨1, 1⟩) ∈ source.interior ∧
    ∃ σ', p.drawTexture Rat d σ = .ok p.counted σ' ∧
      σ'.store.pixel b ⟨0, 0⟩ = (5, 6, 7, 255) ∧ σ'.store.pixel b ⟨1, 1⟩ = (5, 6, 7, 255) := by
  intro b texture source target t d σ p map
  have ready : p.Ready σ.store := ⟨rfl, _, rfl, by decide, rfl⟩
  have readable : σ.store.Readable texture := ⟨rfl, ⟨_, rfl, by decide, rfl⟩, .inl rfl⟩
  have uniform (q : Point) (inside : source.contains q) :
      texture.format.decode (σ.store.pixel texture q) = ⟨7, 6, 5, 255⟩ := by
    have texels : ∀ q ∈ source.points,
        texture.format.decode (σ.store.pixel texture q) = ⟨7, 6, 5, 255⟩ := by decide +kernel
    exact texels q (Rect.mem_points.2 inside)
  have inside : texture.bounds.includes source := by decide
  have filled : ¬ target.isEmpty := by decide
  obtain ⟨onto, centers, sources, draws⟩ :=
    scaled_draw_leaves_no_hole t inside ⟨by decide, by decide⟩ filled
  obtain ⟨σ', drawn, pixel⟩ := draws p σ d ⟨7, 6, 5, 255⟩ ready rfl (by decide) readable
    (sources d rfl) rfl rfl (TextureDraw.mask_of_alpha_one rfl) rfl uniform
  exact ⟨onto, (centers ⟨1, 1⟩ (by decide)).1, σ', drawn, pixel ⟨0, 0⟩ (by decide),
    pixel ⟨1, 1⟩ (by decide)⟩

end Pass

end Compositor
