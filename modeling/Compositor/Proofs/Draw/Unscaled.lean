import Compositor.Proofs.Draw.Mapping
import Compositor.Proofs.Draw.Redraw
import Compositor.Proofs.Draw.WholeBoxes

/-!
# Draws that do not scale

Middles of pixels are looked up in middles of texels, and there either filter finds the texel
itself: the nearest one is no other, and the mean of four gives all its weight to it, also where its
neighbours are cut off by the edges of the source. So a draw that does not scale moves texels to
pixels, one to one; and the copy that is made by whole-number offsets cannot be told from the same
draw through the map.
-/

namespace Compositor

open Scalar

/-! ## Sampling in the middle of a texel -/

namespace Scalar

/-- Rounding leaves bytes as they are. -/
theorem toByte_natCast (b : UInt8) : toByte (b.toNat : Rat) = b := by
  have whole := floor_add_half b.toNat
  rw [Int.cast_natCast] at whole
  have small := b.toNat_lt
  rw [toByte, whole, Int.toNat_natCast, Nat.min_eq_left (by omega), UInt8.ofNat_toNat]

end Scalar

namespace Image

variable {b : Buffer} {bytes : Array UInt8} {r source target : Rect} {p q : Point} {mask : UInt8}
  {t : Transform} {c : Rgba8}

/-- A position that lies neither right nor down of a colour gives it all the weight. -/
theorem mix_zero (p q s t : UInt8) : mix (0 : Rat) 0 p q s t = p := by
  have weighted : mix (0 : Rat) 0 p q s t = toByte (p.toNat : Rat) := by
    simp [mix, one, ofInt]
  rw [weighted, toByte_natCast]

theorem mixColors_zero (c c₁ c₂ c₃ : Rgba8) : mixColors (0 : Rat) 0 c c₁ c₂ c₃ = c := by
  simp only [mixColors, mix_zero]

/-- A column between the edges of the source stays where it is. -/
theorem column_eq {n : Int} (left : source.x.toInt ≤ n) (right : n < source.right.toInt) :
    column source n = Coord.saturate n := by
  have := source.x.le_toInt
  have := source.right.toInt_lt
  rw [column, Coord.clamp, Coord.toInt_saturate]
  congr 1
  omega

theorem row_eq {n : Int} (top : source.y.toInt ≤ n) (bottom : n < source.bottom.toInt) :
    row source n = Coord.saturate n := by
  have := source.y.le_toInt
  have := source.bottom.toInt_lt
  rw [row, Coord.clamp, Coord.toInt_saturate]
  congr 1
  omega

/-- A point of the source is nearest to itself. -/
theorem column_row_toInt (inside : source.contains q) :
    column source q.x.toInt = q.x ∧ row source q.y.toInt = q.y := by
  rw [Rect.contains_iff] at inside
  obtain ⟨left, right, top, bottom⟩ := inside
  rw [column_eq left right, row_eq top bottom, Coord.saturate_toInt, Coord.saturate_toInt]
  exact ⟨rfl, rfl⟩

/-- In the middle of a texel both filters find the texel. -/
theorem sample_center (size : bytes.size = b.size) (part : r.inter b.bounds = some source)
    (inside : source.contains q) (here : (b.image bytes).get q = .ok c) (filter : Filter) :
    (b.image bytes).sample source filter (q.center : Position Rat) = .ok (some c) := by
  have nearest := column_row_toInt inside
  have column : floor (q.center.x : Rat) = q.x.toInt := floor_add_half _
  have row : floor (q.center.y : Rat) = q.y.toInt := floor_add_half _
  obtain ⟨left, right, top, bottom⟩ := Rect.contains_iff.1 inside
  have left : (source.x.toInt : Rat) ≤ q.x.toInt := Int.cast_le.2 left
  have top : (source.y.toInt : Rat) ≤ q.y.toInt := Int.cast_le.2 top
  have right : (q.x.toInt : Rat) + 1 ≤ source.right.toInt := by exact_mod_cast right
  have bottom : (q.y.toInt : Rat) + 1 ≤ source.bottom.toInt := by exact_mod_cast bottom
  have found : source.misses (q.center : Position Rat) = false := by
    rw [Rect.misses_eq_false_iff]
    simp only [Point.center, ofCoord, ofInt, half]
    refine ⟨⟨?_, ?_⟩, ?_, ?_⟩ <;> linarith
  cases filter with
  | nearest =>
    have texel : (q.center : Position Rat).texel = q := by
      rw [Position.texel, column, row, Coord.saturate_toInt, Coord.saturate_toInt]
    rw [sample_nearest found, texel, here]
    rfl
  | bilinear =>
    have x : (q.center.x : Rat) - half = q.x.toInt := add_sub_cancel_right _ _
    have y : (q.center.y : Rat) - half = q.y.toInt := add_sub_cancel_right _ _
    have neighbour (m n : Int) :=
      get_ok size ((Rect.contains_of_inter part).1 (contains_sampled part m n)).2
    obtain ⟨c₁, neighbour₁⟩ := neighbour (q.x.toInt + 1) q.y.toInt
    obtain ⟨c₂, neighbour₂⟩ := neighbour q.x.toInt (q.y.toInt + 1)
    obtain ⟨c₃, neighbour₃⟩ := neighbour (q.x.toInt + 1) (q.y.toInt + 1)
    rw [sample_bilinear found]
    simp only [nearest] at neighbour₁ neighbour₂
    have aside (n : Int) : (n : Rat) - ofInt n = 0 := sub_self _
    simp only [x, y, floor_intCast, nearest, here, neighbour₁, neighbour₂, neighbour₃, aside]
    exact congrArg (Except.ok ∘ some) (mixColors_zero c c₁ c₂ c₃)

/-- A draw that does not scale looks a pixel up in the middle of its texel. -/
theorem mappedShade_eq (size : bytes.size = b.size) (part : r.inter b.bounds = some source)
    (unscaled : t.Unscaled source target) (inside : source.contains q) (covered : target.contains p)
    (sends : t.Sends source target q p) (here : (b.image bytes).get q = .ok c) (filter : Filter) :
    (b.image bytes).mappedShade Rat t source target filter mask p = .ok (some (c.mask mask)) := by
  have filled : ¬ target.isEmpty := fun empty => Rect.not_contains_of_isEmpty empty p covered
  rw [mappedShade, sends.inverse_apply unscaled filled]
  change (do return (← (b.image bytes).sample source filter (q.center : Position Rat)).map _) = _
  rw [sample_center size part inside here]
  rfl

/-- A plain copy looks a pixel up in the same texel. -/
theorem copyShade_eq_of_sends (part : r.inter b.bounds = some source)
    (plain : isPlainCopy t source target = true) (column : 0 ≤ p.x.toInt) (row : 0 ≤ p.y.toInt)
    (inside : source.contains q) (sends : t.Sends source target q p)
    (here : (b.image bytes).get q = .ok c) :
    (b.image bytes).copyShade source target mask p = .ok (some (c.mask mask)) := by
  simp only [isPlainCopy, Bool.and_eq_true, decide_eq_true_eq] at plain
  obtain ⟨⟨rfl, -⟩, -⟩ := plain
  rw [Transform.sends_iff_cell] at sends
  obtain ⟨x, y⟩ := Prod.ext_iff.1 sends
  rw [copyShade_eq part column row inside x y, here]
  rfl

/-- Whether it is a plain copy or not, a draw that does not scale gives a pixel the colour of its
texel. -/
theorem textureShade_eq (size : bytes.size = b.size) (part : r.inter b.bounds = some source)
    (unscaled : t.Unscaled source target) (column : 0 ≤ p.x.toInt) (row : 0 ≤ p.y.toInt)
    (inside : source.contains q) (covered : target.contains p) (sends : t.Sends source target q p)
    (here : (b.image bytes).get q = .ok c) (filter : Filter) :
    (b.image bytes).textureShade Rat t source target filter mask p = .ok (some (c.mask mask)) := by
  unfold textureShade
  split
  · rename_i plain
    exact copyShade_eq_of_sends part plain column row inside sends here
  · exact mappedShade_eq size part unscaled inside covered sends here filter

end Image

theorem Transform.unscaled_of_isPlainCopy {t : Transform} {source target : Rect}
    (plain : isPlainCopy t source target = true) : t.Unscaled source target := by
  simp only [isPlainCopy, Bool.and_eq_true, decide_eq_true_eq] at plain
  obtain ⟨⟨rfl, width⟩, height⟩ := plain
  rw [Unscaled, ← width, ← height]
  rfl

/-! ## What is drawn -/

namespace TextureDraw

variable {d : TextureDraw} {b target : Buffer} {bytes : Array UInt8} {source : Rect} {p q : Point}

theorem mask_of_alpha_one (full : d.effectiveAlpha = 1) : d.mask = 255 := by
  rw [mask, full]
  decide +kernel

/-- A covered pixel gets the colour of its texel. -/
theorem shade_eq (found : sourceTexels d.effectiveSource b.width b.height = some source)
    (unscaled : d.transform.Unscaled source d.effectiveTarget) (size : bytes.size = b.size)
    (mem : (covered d.effectiveTarget target.bounds d.clip).contains p)
    (inside : source.contains q) (sends : d.transform.Sends source d.effectiveTarget q p) :
    d.shade Rat b bytes source p =
      .ok (some ((b.format.decode (bytesAt bytes (b.offset q))).mask d.mask)) := by
  obtain ⟨r, part⟩ := inter_of_sourceTexels found
  obtain ⟨covered, visible, -⟩ := contains_covered.1 mem
  obtain ⟨column, -, row, -⟩ := Buffer.edges_of_contains visible
  have texel := Image.get_image size ((Rect.contains_of_inter part).1 inside).2
  exact Image.textureShade_eq size part unscaled column row inside covered sends texel d.filter

/-- At a covered pixel a plain copy and the map find the one texel that goes there. -/
theorem copyShade_eq_mappedShade
    (found : sourceTexels d.effectiveSource b.width b.height = some source)
    (plain : isPlainCopy d.transform source d.effectiveTarget = true) (size : bytes.size = b.size)
    (mem : (covered d.effectiveTarget target.bounds d.clip).contains p) :
    (b.image bytes).copyShade source d.effectiveTarget d.mask p =
      (b.image bytes).mappedShade Rat d.transform source d.effectiveTarget d.filter d.mask p := by
  obtain ⟨r, part⟩ := inter_of_sourceTexels found
  have unscaled := Transform.unscaled_of_isPlainCopy plain
  obtain ⟨covered, visible, -⟩ := contains_covered.1 mem
  obtain ⟨column, -, row, -⟩ := Buffer.edges_of_contains visible
  obtain ⟨q, ⟨inside, sends⟩, -⟩ := unscaled.existsUnique_texel (Rect.fits_of_inter part) covered
  have texel := Image.get_image size ((Rect.contains_of_inter part).1 inside).2
  rw [Image.copyShade_eq_of_sends part plain column row inside sends texel,
    Image.mappedShade_eq size part unscaled inside covered sends texel d.filter]

end TextureDraw

namespace Pass

variable {α : Type} [Scalar α] {p : Pass} {σ : Session} {d : TextureDraw} {b : Buffer}
  {source : Rect}

/-- A draw that does not scale, in full and without blending, moves the texels of its source to the
pixels of its target, one to one: each pixel that it covers gets the colour of the texel whose
middle the transform sends to the middle of the pixel. A source that is a rectangle inside the
texture is taken as it is. -/
theorem unscaled_draw_permutes_texels (ready : p.Ready σ.store) (texture : d.texture = .stored b)
    (apart : b.id ≠ p.target.buffer.id) (readable : σ.store.Readable b)
    (found : TextureDraw.sourceTexels d.effectiveSource b.width b.height = some source)
    (unscaled : d.transform.Unscaled source d.effectiveTarget) (fits : d.effectiveTarget.Fits)
    (full : d.mask = 255) (replaces : d.blend = .none) :
    (∀ r : Rect, d.source = r.toBox → b.bounds.includes r → r.Fits → source = r) ∧
    (∀ q, source.contains q → ∃! x, d.effectiveTarget.contains x ∧
      d.transform.Sends source d.effectiveTarget q x) ∧
    (∀ x, d.effectiveTarget.contains x → ∃! q, source.contains q ∧
      d.transform.Sends source d.effectiveTarget q x) ∧
    ∃ σ', p.drawTexture Rat d σ = .ok p.counted σ' ∧
      ∀ x q, (covered d.effectiveTarget p.bounds d.clip).contains x → source.contains q →
        d.transform.Sends source d.effectiveTarget q x →
          σ'.store.pixel p.target.buffer x =
            p.target.buffer.format.encode (b.format.decode (σ.store.pixel b q)) := by
  obtain ⟨r, part⟩ := TextureDraw.inter_of_sourceTexels found
  refine ⟨fun r => TextureDraw.source_eq_of_toBox found, fun q => unscaled.existsUnique_pixel fits,
    fun x => unscaled.existsUnique_texel (Rect.fits_of_inter part), ?_⟩
  have shaded (x : Point) (mem : (covered d.effectiveTarget p.bounds d.clip).contains x) :
      ∃ c, d.shade Rat b (σ.store.pixels b.id) source x = .ok c :=
    d.shade_ok Rat found readable.stored.size mem
  obtain ⟨bytes, painted, colored⟩ := Image.paint_replaces ready.stored.size
    (fun x mem => (contains_covered.1 mem).2.1) shaded
  rw [← replaces, ← d.onto_eq Rat found] at painted
  obtain ⟨σ', drawn, written⟩ := drawTexture_eq_ok ready texture apart readable painted
  refine ⟨σ', drawn, fun x q mem inside sends => ?_⟩
  have color := d.shade_eq found unscaled readable.stored.size mem inside sends
  rw [full, Rgba8.mask_full] at color
  obtain ⟨e, stored, -⟩ := ready.stored
  rw [Store.pixel, written, Store.pixels_withPixels stored, colored x _ mem color, Store.pixel]

/-- Two texels of three, mirrored and turned onto a column. -/
theorem turned_texels_reach_pixels :
    let b : Buffer := ⟨⟨0⟩, 1, 2, .xrgb8888, true⟩
    let texture : Buffer := ⟨⟨1⟩, 3, 1, .argb8888, true⟩
    let source : Rect := ⟨1, 0, 2, 1⟩
    let d : TextureDraw :=
      { texture := .stored texture, source := source.toBox, target := b.bounds,
        transform := ⟨true, 1⟩, blend := .none }
    let σ : Session := ⟨⟨[⟨b, 2, .writing, #[0, 0, 0, 0, 0, 0, 0, 0], []⟩,
      ⟨texture, 1, .idle, #[1, 2, 3, 4, 5, 6, 7, 8, 9, 10, 11, 12], []⟩], [], []⟩, default, [], []⟩
    let p : Pass := ⟨⟨b, .readWrite⟩, none, {}⟩
    ∃ σ', p.drawTexture Rat d σ = .ok p.counted σ' ∧
      σ'.store.pixel b ⟨0, 0⟩ = (9, 10, 11, 255) ∧ σ'.store.pixel b ⟨0, 1⟩ = (5, 6, 7, 255) := by
  intro b texture source d σ p
  have ready : p.Ready σ.store := ⟨rfl, _, rfl, by decide, rfl⟩
  have readable : σ.store.Readable texture := ⟨rfl, ⟨_, rfl, by decide, rfl⟩, .inl rfl⟩
  have found : TextureDraw.sourceTexels d.effectiveSource texture.width texture.height =
      some source := d.sourceTexels_toBox rfl (by decide) ⟨by decide, by decide⟩
  obtain ⟨-, -, -, σ', drawn, pixel⟩ := unscaled_draw_permutes_texels ready rfl (by decide) readable
    found rfl ⟨by decide, by decide⟩ (TextureDraw.mask_of_alpha_one rfl) rfl
  refine ⟨σ', drawn, ?_, ?_⟩
  · exact pixel ⟨0, 0⟩ ⟨2, 0⟩ (by decide) (by decide) (Transform.sends_iff_cell.2 (by decide))
  · exact pixel ⟨0, 1⟩ ⟨1, 0⟩ (by decide) (by decide) (Transform.sends_iff_cell.2 (by decide))

/-- A draw that neither turns, mirrors nor scales is made by copying, and leaves the bytes that
sampling through the exact map leaves. The source is the rounded box, and a rectangle inside the
texture is taken as it is. -/
theorem plain_copy_agrees_with_mapping (ready : p.Ready σ.store) (texture : d.texture = .stored b)
    (apart : b.id ≠ p.target.buffer.id) (readable : σ.store.Readable b)
    (found : TextureDraw.sourceTexels d.effectiveSource b.width b.height = some source)
    (plain : isPlainCopy d.transform source d.effectiveTarget = true) :
    let texels := b.image (σ.store.pixels b.id)
    let below := p.target.buffer.image (σ.store.pixels p.target.buffer.id)
    let region := covered d.effectiveTarget p.bounds d.clip
    (∀ r : Rect, d.source = r.toBox → b.bounds.includes r → r.Fits → source = r) ∧
    ∃ σ', p.drawTexture α d σ = .ok p.counted σ' ∧
      let drawn := p.target.buffer.image (σ'.store.pixels p.target.buffer.id)
      below.paint d.blend (texels.copyShade source d.effectiveTarget d.mask) region = .ok drawn ∧
      below.paint d.blend (texels.mappedShade Rat d.transform source d.effectiveTarget d.filter
        d.mask) region = .ok drawn := by
  intro texels below region
  have copied (β : Type) [Scalar β] : d.shade β b (σ.store.pixels b.id) source =
      texels.copyShade source d.effectiveTarget d.mask := if_pos plain
  have same (x : Point) (mem : region.contains x) :
      texels.copyShade source d.effectiveTarget d.mask x =
        texels.mappedShade Rat d.transform source d.effectiveTarget d.filter d.mask x :=
    d.copyShade_eq_mappedShade found plain readable.stored.size mem
  have shaded (x : Point) (mem : region.contains x) :
      ∃ c, d.shade α b (σ.store.pixels b.id) source x = .ok c := by
    rw [copied α, ← copied Rat]
    exact d.shade_ok Rat found readable.stored.size mem
  obtain ⟨bytes, painted, -⟩ := Image.paint_walks d.blend ready.stored.size
    (fun x mem => (contains_covered.1 mem).2.1) shaded
  obtain ⟨σ', drawn, written⟩ := drawTexture_eq_ok ready texture apart readable
    ((d.onto_eq α found _ _ _).trans painted)
  obtain ⟨e, stored, -⟩ := ready.stored
  rw [copied α] at painted
  refine ⟨fun r => TextureDraw.source_eq_of_toBox found, σ', drawn, ?_⟩
  rw [written, Store.pixels_withPixels stored, ← Image.paint_congr same]
  exact ⟨painted, painted⟩

/-- A copy that lies half outside of the destination, blended at half its alpha. -/
theorem shifted_copy_agrees_with_mapping :
    let b : Buffer := ⟨⟨0⟩, 2, 1, .argb8888, true⟩
    let texture : Buffer := ⟨⟨1⟩, 2, 1, .xbgr8888, true⟩
    let d : TextureDraw :=
      { texture := .stored texture, target := ⟨-1, 0, 2, 1⟩, alpha := some 0.5 }
    let σ : Session := ⟨⟨[⟨b, 2, .writing, #[9, 9, 9, 9, 9, 9, 9, 9], []⟩,
      ⟨texture, 1, .idle, #[1, 2, 3, 4, 5, 6, 7, 8], []⟩], [], []⟩, default, [], []⟩
    let p : Pass := ⟨⟨b, .readWrite⟩, none, {}⟩
    ∃ σ', p.drawTexture Float d σ = .ok p.counted σ' ∧
      (b.image #[9, 9, 9, 9, 9, 9, 9, 9]).paint .premultiplied
        ((texture.image #[1, 2, 3, 4, 5, 6, 7, 8]).mappedShade Rat .normal ⟨0, 0, 2, 1⟩
          ⟨-1, 0, 2, 1⟩ .bilinear d.mask) (Region.ofRect ⟨0, 0, 1, 1⟩) =
            .ok (b.image (σ'.store.pixels b.id)) := by
  intro b texture d σ p
  have ready : p.Ready σ.store := ⟨rfl, _, rfl, by decide, rfl⟩
  have readable : σ.store.Readable texture := ⟨rfl, ⟨_, rfl, by decide, rfl⟩, .inl rfl⟩
  have found : TextureDraw.sourceTexels d.effectiveSource texture.width texture.height =
      some ⟨0, 0, 2, 1⟩ := by decide +kernel
  have region : covered d.effectiveTarget p.bounds d.clip = Region.ofRect ⟨0, 0, 1, 1⟩ := by decide
  obtain ⟨-, σ', drawn, -, mapped⟩ := plain_copy_agrees_with_mapping (α := Float) ready rfl
    (by decide) readable found (by decide)
  rw [region] at mapped
  exact ⟨σ', drawn, mapped⟩

end Pass

end Compositor
