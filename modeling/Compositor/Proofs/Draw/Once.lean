import Compositor.Proofs.Draw.Inks
import Compositor.Proofs.Draw.Premultiplied
import Compositor.Proofs.Draw.Redraw

/-!
# Every pixel once

A stroke with a normal clip blends what it shows into every pixel of its box, of the destination and
of the clip, each of them once, and changes no other byte. So the bytes that it leaves depend on the
points that the clip covers, and not on the rectangles that it is cut into.
-/

namespace Compositor

/-- The bytes of a pixel after a colour was blended into them, if there is one. -/
def PixelFormat.blended (f : PixelFormat) (mode : Blend) (source : Option Rgba8)
    (old : UInt8 × UInt8 × UInt8 × UInt8) : UInt8 × UInt8 × UInt8 × UInt8 :=
  match source with
  | none => old
  | some c => f.encode (mode.apply c (f.decode old))

/-! ## What a stroke shows -/

namespace Stroke

/-- What a stroke shows at a point; a texture shows its colours, if it has any in its source box. -/
def shade (α : Type) [Scalar α] (s : Store) : Stroke → Shade
  | .texture d =>
    match d.texture with
    | .stored b =>
      match TextureDraw.sourceTexels d.effectiveSource b.width b.height with
      | some source => d.shade α b (s.pixels b.id) source
      | none => fun _ => .ok none
    | .remote _ _ => fun _ => .ok none
  | .fill d => Shade.constant d.color.quantize
  | .pause _ => fun _ => .ok none

def blend : Stroke → Blend
  | .texture d => d.blend
  | .fill d => d.blend
  | .pause _ => .none

/-- How it is blended; an opaque fill replaces what is below it. -/
def effectiveBlend : Stroke → Blend
  | .texture d => d.blend
  | .fill d => d.effectiveBlend
  | .pause _ => .none

/-- The box that a stroke is drawn into. -/
def box : Stroke → Option Rect
  | .texture d => some d.effectiveTarget
  | .fill d => some d.target
  | .pause _ => none

/-- The pixel lies in the box, in the destination and in the clip. -/
def Covers (stroke : Stroke) (bounds : Rect) (p : Point) : Prop :=
  (∃ box ∈ stroke.box, box.contains p) ∧ bounds.contains p ∧
    ∀ region ∈ stroke.clip, region.contains p

/-- The same stroke with another clip. -/
def clipped (clip : Option Region) : Stroke → Stroke
  | .texture d => .texture { d with clip }
  | .fill d => .fill { d with clip }
  | .pause span => .pause span

/-- The texture of the stroke, if it is drawn at all, is looked up through the map. -/
def Mapped (stroke : Stroke) : Prop :=
  ∃ d, stroke = .texture d ∧ ∀ b source, d.texture = .stored b →
    TextureDraw.sourceTexels d.effectiveSource b.width b.height = some source →
      isPlainCopy d.transform source d.effectiveTarget = false

end Stroke

/-- An opaque colour leaves nothing of what is below it. -/
theorem Blend.apply_of_opaque {c : Rgba8} (full : c.a = 255) (mode : Blend) (below : Rgba8) :
    mode.apply c below = c := by
  have nothing (a : UInt8) : Rgba8.mulFraction a (255 - 255) = 0 := by
    simp [Rgba8.mulFraction]
  have same (a : UInt8) : Rgba8.addSaturating a 0 = a := by
    have small := a.toNat_lt
    rw [Rgba8.addSaturating, UInt8.toNat_zero, Nat.add_zero, Nat.min_eq_left (by omega),
      UInt8.ofNat_toNat]
  cases mode with
  | none => rfl
  | premultiplied =>
    simp only [apply, full, Rgba8.map, nothing, Rgba8.zipWith, same]
    rw [← full]

/-- An opaque fill is blended as it says, whether or not it simply replaces what is below it. -/
theorem RectFill.effectiveBlend_apply (fill : RectFill) (below : Rgba8) :
    fill.effectiveBlend.apply fill.color.quantize below =
      fill.blend.apply fill.color.quantize below := by
  unfold effectiveBlend
  split
  · rename_i replaces
    rw [Blend.apply_of_opaque replaces.2, Blend.apply_of_opaque replaces.2]
  · rfl

/-- A plain copy always has a texel to show. -/
theorem Image.copyShade_ne_none {image : Image} {source target : Rect} {mask : UInt8} {p : Point} :
    image.copyShade source target mask p ≠ .ok none := by
  intro silent
  obtain ⟨dx, -, silent⟩ := Fault.ok_of_bind silent
  obtain ⟨dy, -, silent⟩ := Fault.ok_of_bind silent
  obtain ⟨x, -, silent⟩ := Fault.ok_of_bind silent
  obtain ⟨y, -, silent⟩ := Fault.ok_of_bind silent
  obtain ⟨texel, -, silent⟩ := Fault.ok_of_bind silent
  cases silent

namespace Stroke

variable {α : Type} [Scalar α] {s : Store} {bounds : Rect} {x : Point} {stroke : Stroke}

theorem covers_texture {d : TextureDraw} : (Stroke.texture d).Covers bounds x ↔
    (covered d.effectiveTarget bounds d.clip).contains x := by
  simp [Covers, box, clip, contains_covered]

theorem covers_fill {d : RectFill} : (Stroke.fill d).Covers bounds x ↔
    (covered d.target bounds d.clip).contains x := by
  simp [Covers, box, clip, contains_covered]

/-- A pixel that is not covered takes no ink. -/
theorem inks_of_not_covers (away : ¬ stroke.Covers bounds x) : stroke.inks α s bounds x = [] := by
  cases stroke with
  | texture d =>
    rw [covers_texture] at away
    simp only [inks]
    cases d.texture with
    | remote width height => rfl
    | stored b =>
      dsimp only
      unfold TextureDraw.inks
      cases TextureDraw.sourceTexels d.effectiveSource b.width b.height with
      | none => rfl
      | some source => exact if_neg away
  | fill d =>
    rw [covers_fill] at away
    simp only [inks, RectFill.inks, away, Bool.false_eq_true, ↓reduceIte]
  | pause span => rfl

/-- A covered pixel takes the ink of what is shown there. -/
theorem inks_of_covers (covers : stroke.Covers bounds x) :
    stroke.inks α s bounds x = (stroke.shade α s).ink stroke.effectiveBlend x := by
  cases stroke with
  | texture d =>
    rw [covers_texture] at covers
    simp only [inks, shade, Shade.ink]
    cases d.texture with
    | remote width height => rfl
    | stored b =>
      dsimp only
      unfold TextureDraw.inks
      cases TextureDraw.sourceTexels d.effectiveSource b.width b.height with
      | none => rfl
      | some source => exact if_pos covers
  | fill d =>
    rw [covers_fill] at covers
    exact if_pos covers
  | pause span => simp [Covers, box] at covers

/-- What is shown is blended as the stroke says. -/
theorem effectiveBlend_apply {c : Rgba8} (shown : stroke.shade α s x = .ok (some c))
    (below : Rgba8) : stroke.effectiveBlend.apply c below = stroke.blend.apply c below := by
  cases stroke with
  | texture d => rfl
  | fill d =>
    cases shown
    exact d.effectiveBlend_apply below
  | pause span => rfl

/-- A covered pixel takes what is shown there, blended once. -/
theorem inked_of_covers (f : PixelFormat) (old : UInt8 × UInt8 × UInt8 × UInt8)
    (covers : stroke.Covers bounds x) {value : Option Rgba8}
    (shown : stroke.shade α s x = .ok value) :
    f.inked old (stroke.inks α s bounds x) = f.blended stroke.blend value old := by
  rw [inks_of_covers covers, Shade.ink, shown]
  cases value with
  | none => rfl
  | some c => exact congrArg f.encode (effectiveBlend_apply shown _)

/-- A stroke that can be drawn shows something at every pixel that it covers, if its texture is not
looked up through the map. -/
theorem shade_ok [LawfulScalar α] {target : Buffer} (fits : stroke.Fits s target.id)
    (covers : stroke.Covers target.bounds x) : ∃ value, stroke.shade α s x = .ok value ∧
      (value = none → stroke.Mapped) := by
  cases stroke with
  | texture d =>
    rw [covers_texture] at covers
    simp only [shade]
    cases texture : d.texture with
    | remote width height =>
      exact ⟨none, rfl, fun _ => ⟨d, rfl, fun b source stored => nomatch texture.symm.trans stored⟩⟩
    | stored b =>
      dsimp only
      cases found : TextureDraw.sourceTexels d.effectiveSource b.width b.height with
      | none =>
        refine ⟨none, rfl, fun _ => ⟨d, rfl, fun b' source stored some => ?_⟩⟩
        cases texture.symm.trans stored
        cases found.symm.trans some
      | some source =>
        have size := (fits.texture d b rfl texture).2.stored.size
        obtain ⟨value, shown⟩ := d.shade_ok α found size covers
        refine ⟨value, shown, fun silent => ⟨d, rfl, fun b' source' stored some => ?_⟩⟩
        cases texture.symm.trans stored
        cases found.symm.trans some
        by_contra copied
        rw [Bool.not_eq_false] at copied
        rw [TextureDraw.shade, Image.textureShade, if_pos copied] at shown
        exact Image.copyShade_ne_none (silent ▸ shown)
  | fill d => exact ⟨some d.color.quantize, rfl, nofun⟩
  | pause span => simp [Covers, box] at covers

theorem shade_clipped (clip : Option Region) :
    (stroke.clipped clip).shade α s = stroke.shade α s := by
  cases stroke with
  | texture d =>
    have source : { d with clip }.effectiveSource = d.effectiveSource := rfl
    have colours : { d with clip }.shade α = d.shade α := rfl
    simp only [clipped, shade]
    rw [source, colours]
  | fill d => rfl
  | pause span => rfl

/-- Another clip that covers the same pixels lays the same inks. -/
theorem inks_clipped {clip : Option Region}
    (same : ∀ x, (stroke.clipped clip).Covers bounds x ↔ stroke.Covers bounds x) (x : Point) :
    (stroke.clipped clip).inks α s bounds x = stroke.inks α s bounds x := by
  by_cases covers : stroke.Covers bounds x
  · have mode : (stroke.clipped clip).effectiveBlend = stroke.effectiveBlend := by
      cases stroke <;> rfl
    rw [inks_of_covers covers, inks_of_covers ((same x).2 covers), shade_clipped, mode]
  · rw [inks_of_not_covers covers, inks_of_not_covers (mt (same x).1 covers)]

theorem Fits.clipped {target : BufferId} (fits : stroke.Fits s target) {clip : Option Region}
    (normal : ∀ region ∈ clip, region.Normal) : (stroke.clipped clip).Fits s target := by
  cases stroke with
  | texture d =>
    refine ⟨normal, fun d' b same stored => ?_⟩
    cases same
    exact fits.texture d b rfl stored
  | fill d => exact .fill normal
  | pause span => exact fits

end Stroke

/-! ## Drawing -/

namespace Pass

open Compositor.Action

variable {α : Type} [Scalar α] {p : Pass} {σ : Session} {stroke : Stroke}

/-- A stroke with a normal clip, and with a texture that can be read if it has one, blends what it
shows into every pixel that it covers, once. Where it shows nothing, which only happens to textures
that are looked up through the map, and everywhere else, it leaves the bytes as they are; and with
any other normal clip that covers the same pixels it leaves the same store. -/
theorem stroke_blends_once [LawfulScalar α] (holds : p.Holds σ.store) (whole : σ.store.Whole)
    (known : stroke.Known σ.store) (normal : ∀ region ∈ stroke.clip, region.Normal)
    (readable : ∀ d b, stroke = .texture d → d.texture = .stored b → σ.store.canRead b = true) :
    let b := p.target.buffer
    let old := σ.store.pixels b.id
    ∃ p' σ' bytes, p.stroke α stroke σ = .ok p' σ' ∧
      σ'.store = σ.store.withPixels b.id bytes ∧ bytes.size = old.size ∧
      (∀ x, stroke.Covers b.bounds x → ∃ value, stroke.shade α σ.store x = .ok value ∧
        (value = none → stroke.Mapped) ∧ bytesAt bytes (b.offset x) =
          b.format.blended stroke.blend value (bytesAt old (b.offset x))) ∧
      (∀ k, (∀ x, stroke.Covers b.bounds x → k < b.offset x ∨ b.offset x + 4 ≤ k) →
        bytes[k]? = old[k]?) ∧
      ∀ clip, (∀ region ∈ clip, region.Normal) →
        (∀ x, (stroke.clipped clip).Covers b.bounds x ↔ stroke.Covers b.bounds x) →
          ∃ p'' σ'', p.stroke α (stroke.clipped clip) σ = .ok p'' σ'' ∧ σ''.store = σ'.store := by
  intro b old
  have ready := holds.ready whole
  have fits : stroke.Fits σ.store b.id := ⟨normal, fun d b' texture stored =>
    known.safe whole holds d b' texture stored (readable d b' texture stored)⟩
  have inks {stroke : Stroke} (fits : stroke.Fits σ.store b.id) :
      ∃ p' σ' bytes, p.stroke α stroke σ = .ok p' σ' ∧
        σ'.store = σ.store.withPixels b.id bytes ∧
        b.Takes (stroke.inks α σ.store b.bounds) old bytes := by
    obtain ⟨p', σ', drawn, -, bytes, written, takes⟩ := stroke_laid (α := α) ready fits.safe
    have same : stroke.laid α σ.store b.bounds = stroke.inks α σ.store b.bounds :=
      funext fun x => fits.laid_eq_inks α b.bounds x
    exact ⟨p', σ', bytes, drawn, written, same ▸ takes⟩
  obtain ⟨p', σ', bytes, drawn, written, takes⟩ := inks fits
  refine ⟨p', σ', bytes, drawn, written, takes.size, fun x covers => ?_, fun k apart => ?_,
    fun clip normal' same => ?_⟩
  · obtain ⟨value, shown, mapped⟩ := Stroke.shade_ok (α := α) fits covers
    refine ⟨value, shown, mapped, ?_⟩
    rw [takes.pixel x covers.2.1]
    exact Stroke.inked_of_covers b.format _ covers shown
  · refine takes.kept fun x inside some => apart x ?_
    by_contra away
    exact some (Stroke.inks_of_not_covers away)
  · obtain ⟨p'', σ'', bytes', drawn', written', takes'⟩ := inks (fits.clipped normal')
    rw [funext (Stroke.inks_clipped (α := α) same)] at takes'
    exact ⟨p'', σ'', drawn', by rw [written', written, takes.unique takes']⟩

/-- A translucent fill that sticks out to the left, through a clip that is cut in two. -/
theorem cut_clip_blends_once :
    let b : Buffer := ⟨⟨0⟩, 3, 1, .argb8888, true⟩
    let color : Color := ⟨0, 0, 0.5, 0.5⟩
    let fill (clip : Option Region) : Stroke := .fill { target := ⟨-1, 0, 3, 1⟩, color, clip }
    let cut : Region := (Region.ofRect ⟨0, 0, 1, 1⟩).insert ⟨1, 0, 1, 1⟩
    let σ : Session := ⟨⟨[⟨b, 2, .writing, #[8, 8, 8, 255, 8, 8, 8, 255, 8, 8, 8, 255], []⟩],
      [], []⟩, default, [], []⟩
    let p : Pass := ⟨⟨b, .readWrite⟩, none, {}⟩
    cut.rects.length = 2 ∧ ∃ p' σ' p'' σ'',
      p.stroke Float (fill (some cut)) σ = .ok p' σ' ∧ p.stroke Float (fill none) σ = .ok p'' σ'' ∧
      σ''.store = σ'.store ∧ σ'.store.pixel b ⟨1, 0⟩ = (132, 4, 4, 255) ∧
      σ'.store.pixel b ⟨2, 0⟩ = (8, 8, 8, 255) := by
  intro b color fill cut σ p
  have quantized : color.quantize = ⟨0, 0, 128, 128⟩ := by decide +kernel
  clear_value color
  have whole : σ.store.Whole := by
    rintro ⟨_ | i⟩ e found <;> cases found
    exact ⟨rfl, fun _ _ => rfl, nofun⟩
  have holds : p.Holds σ.store := ⟨rfl, rfl, by decide, rfl⟩
  have untextured (clip : Option Region) (d : TextureDraw) : fill clip ≠ .texture d :=
    Stroke.noConfusion
  have normal : ∀ region ∈ (fill (some cut)).clip, region.Normal := by
    rintro region ⟨⟩
    exact (Region.normal_ofRect _).insert _
  have covers (clip : Option Region) (x : Point) : (fill clip).Covers b.bounds x ↔
      x ∈ (covered ⟨-1, 0, 3, 1⟩ b.bounds clip).points :=
    Stroke.covers_fill.trans Region.mem_points.symm
  have two : (covered ⟨-1, 0, 3, 1⟩ b.bounds (some cut)).points = [⟨0, 0⟩, ⟨1, 0⟩] := by decide
  have two' : (covered ⟨-1, 0, 3, 1⟩ b.bounds none).points = [⟨0, 0⟩, ⟨1, 0⟩] := by decide
  obtain ⟨p', σ', bytes, drawn, written, -, pixel, others, other⟩ :=
    stroke_blends_once (α := Float) holds whole (fun d _ same => absurd same (untextured _ d))
      normal fun d _ same => absurd same (untextured _ d)
  obtain ⟨p'', σ'', drawn', same⟩ := other none nofun fun x => by
    exact (covers none x).trans ((covers (some cut) x).trans (by rw [two, two'])).symm
  have after (x : Point) : σ'.store.pixel b x = bytesAt bytes (b.offset x) := by
    rw [Store.pixel, written]
    rfl
  refine ⟨by decide, p', σ', p'', σ'', drawn, drawn', same, ?_, ?_⟩
  · obtain ⟨value, shown, -, blended⟩ := pixel ⟨1, 0⟩ ((covers _ _).2 (by decide))
    cases shown
    rw [after, blended, quantized]
    change b.format.blended .premultiplied (some ⟨0, 0, 128, 128⟩) (8, 8, 8, 255) = _
    decide
  · rw [after]
    refine (bytesAt_congr fun i low => others _ fun x here => ?_).trans (b := bytesAt _ _) rfl
    rw [covers, two] at here
    simp only [List.mem_cons, List.not_mem_nil, or_false] at here
    obtain rfl | rfl := here
    · exact .inr (Nat.le_add_right_of_le (by decide))
    · exact .inr (Nat.le_add_right_of_le (by decide))

end Pass

end Compositor
