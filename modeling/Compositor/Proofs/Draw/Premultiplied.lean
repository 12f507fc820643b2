import Compositor.Proofs.Draw.Studio
import Compositor.Proofs.Geometry.Floor
import Compositor.Proofs.Pixel.Premultiplied

/-!
# Premultiplied pixels

A pass that draws premultiplied colours onto premultiplied pixels leaves premultiplied pixels. What
a stroke lays on a pixel is a constant, a texel or a mean of four texels, scaled by a mask; so it is
premultiplied if the colour or the texture of the stroke is. A pixel that takes premultiplied inks
stays premultiplied, and none of its sums is capped.
-/

namespace Compositor

/-- Every pixel is premultiplied, also beyond the range of coordinates. -/
def Buffer.Premultiplied (b : Buffer) (bytes : Array UInt8) : Prop :=
  ∀ k < b.width.toNat * b.height.toNat, (b.format.decode (bytesAt bytes (4 * k))).Premultiplied

instance (b : Buffer) (bytes : Array UInt8) : Decidable (b.Premultiplied bytes) :=
  inferInstanceAs (Decidable (∀ k < _, _))

/-- Every colour that a shade gives is premultiplied. -/
def Shade.Premultiplied (shade : Shade) : Prop :=
  ∀ p c, shade p = .ok (some c) → c.Premultiplied

/-- The colour of a fill is premultiplied, and so are all texels of a texture in the store. -/
def Stroke.Premultiplied (s : Store) : Stroke → Prop
  | .texture d => ∀ b, d.texture = .stored b → b.Premultiplied (s.pixels b.id)
  | .fill d => d.color.Premultiplied
  | .pause _ => True

/-- The stroke may take means of texels. -/
def Stroke.Means : Stroke → Prop
  | .texture d => d.filter = .bilinear
  | .fill _ | .pause _ => False

/-- The mean of premultiplied texels around a position is premultiplied. -/
def Image.MeansPremultiplied (α : Type) [Scalar α] : Prop :=
  ∀ (x y : α) {p q s t : Rgba8}, p.Premultiplied → q.Premultiplied → s.Premultiplied →
    t.Premultiplied → (mixColors (x - Scalar.ofInt (Scalar.floor x))
      (y - Scalar.ofInt (Scalar.floor y)) p q s t).Premultiplied

theorem Fault.ok_of_bind {β γ : Type} {x : Except Fault β} {f : β → Except Fault γ} {c : γ}
    (h : x >>= f = .ok c) : ∃ a, x = .ok a ∧ f a = .ok c := by
  cases x with
  | error fault => cases h
  | ok a => exact ⟨a, rfl, h⟩

/-! ## Pixels -/

theorem Buffer.offset_eq (b : Buffer) (p : Point) :
    b.offset p = 4 * (p.y.toInt.toNat * b.width.toNat + p.x.toInt.toNat) := by
  rw [offset, stride, PixelFormat.bytesPerPixel, ← Nat.mul_assoc]
  omega

/-- A pixel that takes premultiplied inks stays premultiplied. -/
theorem PixelFormat.inked_premultiplied (f : PixelFormat) {old : UInt8 × UInt8 × UInt8 × UInt8}
    {inks : List Ink} (below : (f.decode old).Premultiplied)
    (sources : ∀ ink ∈ inks, ink.2.Premultiplied) :
    (f.decode (f.inked old inks)).Premultiplied := by
  refine List.foldlRecOn (motive := fun pixel => (f.decode pixel).Premultiplied) inks _ below
    fun pixel kept ink mem => ?_
  rw [decode_encode]
  exact ((sources ink mem).blend kept ink.1).store f

theorem Buffer.Takes.premultiplied {b : Buffer} {inks : Point → List Ink}
    {bytes bytes' : Array UInt8} (takes : b.Takes inks bytes bytes')
    (sources : ∀ p, ∀ ink ∈ inks p, ink.2.Premultiplied) (below : b.Premultiplied bytes) :
    b.Premultiplied bytes' := by
  intro k small
  by_cases met : ∃ p, b.bounds.contains p ∧ b.offset p = 4 * k
  · obtain ⟨p, inside, here⟩ := met
    rw [← here, takes.pixel p inside]
    exact b.format.inked_premultiplied (here ▸ below k small) (sources p)
  · -- All pixels lie at multiples of four, so those that can be drawn to are apart from this one.
    have same : bytesAt bytes' (4 * k) = bytesAt bytes (4 * k) := by
      refine bytesAt_congr fun i low => takes.others _ fun p inside => ?_
      have differ : b.offset p ≠ 4 * k := fun here => met ⟨p, inside, here⟩
      rw [Buffer.offset_eq] at differ ⊢
      omega
    rw [same]
    exact below k small

/-! ## Colours of textures -/

namespace Image

variable {α : Type} [Scalar α] {b : Buffer} {bytes : Array UInt8} {p : Point} {c : Rgba8}

/-- Whatever is read from an image is one of its pixels. -/
theorem get_premultiplied (size : bytes.size = b.size) (texels : b.Premultiplied bytes)
    (h : (b.image bytes).get p = .ok c) : c.Premultiplied := by
  obtain ⟨offset, placed, read⟩ := Fault.ok_of_bind h
  have here : offset = b.offset p := by
    rw [Image.offset] at placed
    split at placed
    · exact (Except.ok.inj placed).symm
    · cases placed
  by_cases inside : offset + 4 ≤ bytes.size
  · obtain rfl := Except.ok.inj ((PixelFormat.read_eq inside).symm.trans read)
    rw [here, Buffer.offset_eq] at inside ⊢
    rw [size, Buffer.size, PixelFormat.bytesPerPixel] at inside
    exact texels _ (by omega)
  · have fault : (b.image bytes).format.read (b.image bytes).bytes offset = .error .outOfBounds :=
      dif_neg inside
    cases fault.symm.trans read

theorem sample_premultiplied (size : bytes.size = b.size) (texels : b.Premultiplied bytes)
    {source : Rect} {filter : Filter} (means : filter = .bilinear → MeansPremultiplied α)
    {position : Position α} (h : (b.image bytes).sample source filter position = .ok (some c)) :
    c.Premultiplied := by
  unfold sample at h
  split at h
  · cases h
  · cases filter with
    | nearest =>
      obtain ⟨texel, read, same⟩ := Fault.ok_of_bind h
      cases same
      exact get_premultiplied size texels read
    | bilinear =>
      obtain ⟨_, first, h⟩ := Fault.ok_of_bind h
      obtain ⟨_, second, h⟩ := Fault.ok_of_bind h
      obtain ⟨_, third, h⟩ := Fault.ok_of_bind h
      obtain ⟨_, fourth, same⟩ := Fault.ok_of_bind h
      cases same
      exact means rfl _ _
        (get_premultiplied size texels first) (get_premultiplied size texels second)
        (get_premultiplied size texels third) (get_premultiplied size texels fourth)

variable {source target : Rect} {mask : UInt8}

theorem copyShade_premultiplied (size : bytes.size = b.size) (texels : b.Premultiplied bytes) :
    ((b.image bytes).copyShade source target mask).Premultiplied := by
  intro p c h
  obtain ⟨_, -, h⟩ := Fault.ok_of_bind h
  obtain ⟨_, -, h⟩ := Fault.ok_of_bind h
  obtain ⟨_, -, h⟩ := Fault.ok_of_bind h
  obtain ⟨_, -, h⟩ := Fault.ok_of_bind h
  obtain ⟨texel, read, same⟩ := Fault.ok_of_bind h
  cases same
  exact (get_premultiplied size texels read).mask mask

theorem mappedShade_premultiplied (size : bytes.size = b.size) (texels : b.Premultiplied bytes)
    {filter : Filter} (means : filter = .bilinear → MeansPremultiplied α) (t : Transform) :
    ((b.image bytes).mappedShade α t source target filter mask).Premultiplied := by
  intro p c h
  obtain ⟨_ | sampled, found, same⟩ := Fault.ok_of_bind h
  · cases same
  · cases same
    exact (sample_premultiplied size texels means found).mask mask

/-- The distance of a number from the integer below it is a weight. -/
theorem meansPremultiplied_rat : MeansPremultiplied Rat := by
  have unit (x : Rat) : 0 ≤ x - Scalar.ofInt (Scalar.floor x) ∧
      x - Scalar.ofInt (Scalar.floor x) ≤ 1 :=
    ⟨Int.fract_nonneg x, (Int.fract_lt_one x).le⟩
  exact fun x y p q s t => mixColors_premultiplied (unit x) (unit y)

end Image

/-! ## What strokes lay on pixels -/

theorem Shade.Premultiplied.laid {shade : Shade} (colours : shade.Premultiplied) {mode : Blend}
    {region : Region} {p : Point} : ∀ ink ∈ shade.laid mode region p, ink.2.Premultiplied := by
  intro ink mem
  obtain ⟨inks, walked, mem⟩ := List.mem_flatten.1 mem
  rw [(List.mem_replicate.1 walked).2, Shade.ink] at mem
  split at mem
  · rename_i c found
    rw [List.mem_singleton.1 mem]
    exact colours p c found
  all_goals cases mem

theorem RectFill.laid_premultiplied {fill : RectFill} (colour : fill.color.Premultiplied)
    {bounds : Rect} {p : Point} : ∀ ink ∈ fill.laid bounds p, ink.2.Premultiplied :=
  Shade.Premultiplied.laid fun _ _ same => Option.some.inj (Except.ok.inj same) ▸ colour.quantize

theorem TextureDraw.laid_premultiplied {α : Type} [Scalar α] {d : TextureDraw} {b : Buffer}
    {bytes : Array UInt8} (size : bytes.size = b.size) (texels : b.Premultiplied bytes)
    (means : d.filter = .bilinear → Image.MeansPremultiplied α) {bounds : Rect} {p : Point} :
    ∀ ink ∈ d.laid α b bytes bounds p, ink.2.Premultiplied := by
  unfold laid
  split
  · exact List.forall_mem_nil _
  · refine Shade.Premultiplied.laid ?_
    unfold shade Image.textureShade
    split
    · exact Image.copyShade_premultiplied size texels
    · exact Image.mappedShade_premultiplied size texels means d.transform

namespace Stroke

variable {α : Type} [Scalar α] {stroke : Stroke} {s : Store} {target : BufferId}

theorem laid_premultiplied (safe : stroke.Safe s target) (sources : stroke.Premultiplied s)
    (means : stroke.Means → Image.MeansPremultiplied α) {bounds : Rect} {p : Point} :
    ∀ ink ∈ stroke.laid α s bounds p, ink.2.Premultiplied := by
  cases stroke with
  | texture d =>
    simp only [laid]
    cases texture : d.texture with
    | remote width height => exact List.forall_mem_nil _
    | stored b =>
      dsimp only
      by_cases granted : s.canRead b = true
      · have readable := (safe d b rfl texture granted).2
        rw [if_pos granted]
        exact TextureDraw.laid_premultiplied readable.stored.size (sources b texture) means
      · rw [if_neg granted]
        exact List.forall_mem_nil _
  | fill fill => exact RectFill.laid_premultiplied sources
  | pause span => exact List.forall_mem_nil _

/-- Opening an access changes no pixels. -/
theorem Premultiplied.opened {s' : Store} {b : Buffer} {flags : AccessRights} {g : Guard}
    (sources : stroke.Premultiplied s) (opened : s.openAccess b flags = .ok (g, s')) :
    stroke.Premultiplied s' := by
  cases stroke with
  | texture d => exact fun b texture => Store.pixels_openAccess opened b.id ▸ sources b texture
  | fill fill => exact sources
  | pause span => exact sources

end Stroke

/-! ## Passes -/

namespace Pass

open Compositor.Action

/-- After each of some strokes all pixels of the destination are premultiplied. They took what the
strokes laid on them; and whatever lies below such an ink, blending it is exact. -/
def StaysPremultiplied (α : Type) [Scalar α] (p : Pass) (strokes : List Stroke) (σ : Session) :
    Prop :=
  ∀ done, done <+: strokes →
    let inks (q : Point) : List Ink := done.flatMap (·.laid α σ.store p.bounds q)
    ∃ p' stats σ', p.strokes α done σ = .ok (p', stats) σ' ∧ p.Inked inks σ.store σ'.store ∧
      (∀ q, ∀ ink ∈ inks q, ∀ below,
        Blend.Exact ink.2 below (Blend.premultiplied.apply ink.2 below)) ∧
      p.target.buffer.Premultiplied (σ'.store.pixels p.target.buffer.id)

theorem Inked.premultiplied {p : Pass} {inks : Point → List Ink} {s s' : Store} (ready : p.Ready s)
    (inked : p.Inked inks s s') (sources : ∀ q, ∀ ink ∈ inks q, ink.2.Premultiplied)
    (below : p.target.buffer.Premultiplied (s.pixels p.target.buffer.id)) :
    p.target.buffer.Premultiplied (s'.pixels p.target.buffer.id) := by
  obtain ⟨bytes, rfl, takes⟩ := inked
  obtain ⟨e, found, -, -⟩ := ready.stored
  rw [Store.pixels_withPixels found]
  exact takes.premultiplied sources below

theorem Holds.staysPremultiplied {α : Type} [Scalar α] [LawfulScalar α] {p : Pass} {σ : Session}
    {strokes : List Stroke} (holds : p.Holds σ.store) (whole : σ.store.Whole)
    (below : p.target.buffer.Premultiplied (σ.store.pixels p.target.buffer.id))
    (known : ∀ stroke ∈ strokes, stroke.Known σ.store)
    (sources : ∀ stroke ∈ strokes, stroke.Premultiplied σ.store)
    (means : ∀ stroke ∈ strokes, stroke.Means → Image.MeansPremultiplied α) :
    p.StaysPremultiplied α strokes σ := by
  intro done first inks
  obtain ⟨p', stats, σ', drawn, -, inked⟩ := holds.strokes (α := α) whole
    fun stroke mem => known stroke (first.mem mem)
  have laid (q : Point) : ∀ ink ∈ inks q, ink.2.Premultiplied := by
    intro ink mem
    obtain ⟨stroke, listed, mem⟩ := List.mem_flatMap.1 mem
    have listed := first.mem listed
    exact stroke.laid_premultiplied ((known stroke listed).safe whole holds)
      (sources stroke listed) (means stroke listed) ink mem
  exact ⟨p', stats, σ', drawn, inked, fun q ink mem => (laid q ink mem).blend_exact,
    inked.premultiplied (holds.ready whole) laid below⟩

/-- Premultiplied pixels stay premultiplied, whatever is drawn onto them from premultiplied colours
and textures, and no sum of channels is capped. Means of texels are taken in exact numbers; where
none are taken, positions may be computed in any scalars that keep the laws. -/
theorem premultiplied_pixels_stay {σ σ₁ : Session} {r : Renderer} {b : Buffer} {p : Pass}
    {strokes : List Stroke} (whole : σ.store.Whole) (has : σ.store.Has b)
    (begun : r.start b σ = .ok (.ok p) σ₁) (below : b.Premultiplied (σ.store.pixels b.id))
    (known : ∀ stroke ∈ strokes, stroke.Known σ.store)
    (sources : ∀ stroke ∈ strokes, stroke.Premultiplied σ.store) :
    p.target.buffer = b ∧ p.StaysPremultiplied Rat strokes σ₁ ∧
      ∀ (α : Type) [Scalar α] [LawfulScalar α], (∀ stroke ∈ strokes, ¬stroke.Means) →
        p.StaysPremultiplied α strokes σ₁ := by
  obtain ⟨_, same, opened⟩ | ⟨error, failed, -⟩ := Renderer.start_result begun
  · cases same
    have buffer : p.target.buffer = b := congrArg Guard.buffer (Store.openAccess_ok opened).1
    obtain ⟨holds, whole₁⟩ := Holds.of_openAccess whole has opened
    have below₁ : p.target.buffer.Premultiplied (σ₁.store.pixels p.target.buffer.id) := by
      rw [buffer, Store.pixels_openAccess opened]
      exact below
    have stays {α : Type} [Scalar α] [LawfulScalar α]
        (means : ∀ stroke ∈ strokes, stroke.Means → Image.MeansPremultiplied α) :
        p.StaysPremultiplied α strokes σ₁ :=
      holds.staysPremultiplied whole₁ below₁
        (fun stroke mem => (known stroke mem).opened has opened)
        (fun stroke mem => (sources stroke mem).opened opened) means
    exact ⟨buffer, stays fun _ _ _ => Image.meansPremultiplied_rat,
      fun α _ _ none => stays fun stroke mem means => absurd means (none stroke mem)⟩
  · cases failed

/-- A translucent white is drawn over sevens, and then the sevens of another buffer, mirrored and in
another format. -/
theorem sevens_stay_premultiplied :
    let b : Buffer := ⟨⟨0⟩, 2, 1, .argb8888, true⟩
    let b' : Buffer := ⟨⟨1⟩, 2, 2, .xbgr8888, true⟩
    let sevens (b : Buffer) : List StudioCall := [.buffer (.create b.width b.height b.format),
      .buffer (.openAccess b .readWrite), .write ⟨b, .readWrite⟩
        ⟨fun bytes => Array.replicate bytes.size 7, fun _ => Array.size_replicate⟩,
      .buffer (.closeAccess ⟨b, .readWrite⟩)]
    let σ := ((Studio.start default).runs Rat (sevens b ++ sevens b')).session
    let color : Color := ⟨0.5, 0.5, 0.5, 0.5⟩
    let strokes (filter : Filter) : List Stroke := [.fill { target := Rect.ofSize 1 1, color },
      .texture { texture := .stored b', target := Rect.ofSize 2 1, transform := ⟨true, 0⟩, filter,
                 alpha := some 0.75 }]
    ∃ p σ₁, ({} : Renderer).start b σ = .ok (.ok p) σ₁ ∧ p.target.buffer = b ∧
      p.StaysPremultiplied Rat (strokes .bilinear) σ₁ ∧
      p.StaysPremultiplied Float (strokes .nearest) σ₁ := by
  intro b b' sevens σ color strokes
  have stores (st : Studio) (sound : st.Sound) : st.session.store.Whole := sound.client.whole
  have whole : σ.store.Whole := stores _ ((Studio.sound_start default).runs _)
  have has : σ.store.Has b := by decide +kernel
  have below : b.Premultiplied (σ.store.pixels b.id) := by decide +kernel
  have texture : σ.store.Has b' ∧ b'.Premultiplied (σ.store.pixels b'.id) := by decide +kernel
  have free : (σ.store.lock b.id).acquire true = some .writing := by decide +kernel
  have colour : color.Premultiplied := ⟨by decide +kernel, by decide +kernel, by decide +kernel⟩
  -- All that is used of the store and the colour is known; nobody computes them from here on.
  clear_value σ color
  have known (filter : Filter) : ∀ stroke ∈ strokes filter, stroke.Known σ.store := by
    refine List.forall_mem_cons.2
      ⟨fun _ _ fill => (nomatch fill), List.forall_mem_singleton.2 ?_⟩
    rintro _ _ ⟨⟩ ⟨⟩
    exact texture.1
  have sources (filter : Filter) : ∀ stroke ∈ strokes filter, stroke.Premultiplied σ.store := by
    refine List.forall_mem_cons.2 ⟨colour, List.forall_mem_singleton.2 ?_⟩
    rintro _ ⟨⟩
    exact texture.2
  obtain ⟨unknown, -⟩ | ⟨-, cause, denied, -⟩ | ⟨-, p, σ₁, begun, -⟩ :=
    ({} : Renderer).start_cases b σ
  · exact absurd (by decide) unknown
  · cases denied.symm.trans (Store.openAccess_eq_ok .readWrite rfl free)
  · obtain ⟨buffer, exact, -⟩ := premultiplied_pixels_stay whole has begun below
      (known .bilinear) (sources .bilinear)
    obtain ⟨-, -, any⟩ := premultiplied_pixels_stay whole has begun below
      (known .nearest) (sources .nearest)
    exact ⟨p, σ₁, begun, buffer, exact, any Float (by simp [strokes, Stroke.Means])⟩

end Pass

end Compositor
