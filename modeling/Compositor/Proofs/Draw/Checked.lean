import Compositor.Proofs.Draw.Studio
import Compositor.Proofs.Geometry.Floor

/-!
# Strokes, step by step

A stroke once more, with each step of its arithmetic in the width in which it is done and with each
range of bytes compared with the array before it is used; a step that does not fit is a fault.
Nothing of this ever faults, and it leaves the bytes and the counts that the stroke leaves.
-/

namespace Compositor

open Scalar

/-! ## Steps -/

namespace Coord

/-- The coordinate as a word of 64 bits; one that is negative becomes a great word. -/
def word (c : Coord) : Nat := (c.toInt % (Word.limit : Int)).toNat

/-- The coordinate between two limits that is nearest to an integer; the limits have to be in
order. -/
def between (low high : Coord) (n : Int) : Except Fault Coord :=
  if low ≤ high then .ok (clamp low high n)
  else .error (.brokenOff "assertion failed: min <= max")

end Coord

namespace Image

/-- Where the bytes of a pixel begin; all of them have to lie in the array. -/
def reach (image : Image) (p : Point) : Except Fault Nat := do
  let rows ← Word.mul p.y.word image.stride
  let columns ← Word.mul p.x.word PixelFormat.bytesPerPixel
  let start ← Word.add rows columns
  let stop ← Word.add start PixelFormat.bytesPerPixel
  if stop ≤ image.bytes.size then .ok start else .error .outOfBounds

def fetch (image : Image) (p : Point) : Except Fault Rgba8 := do
  image.format.read image.bytes (← image.reach p)

def put (image : Image) (p : Point) (c : Rgba8) : Except Fault Image := do
  return { image with bytes := ← image.format.write image.bytes (← image.reach p) c }

/-- A sample whose texels are reached step by step. -/
def sampleChecked {α : Type} [Scalar α] (image : Image) (source : Rect) (filter : Filter)
    (p : Position α) : Except Fault (Option Rgba8) :=
  if source.misses p then .ok none
  else
    match filter with
    | .nearest => do
      return some (← image.fetch p.texel)
    | .bilinear => do
      let right ← Coord.exact .subtract (source.right.toInt - 1)
      let bottom ← Coord.exact .subtract (source.bottom.toInt - 1)
      let x := p.x - half
      let y := p.y - half
      let left ← Coord.between source.x right (floor x)
      let next ← Coord.between source.x right (floor x + 1)
      let above ← Coord.between source.y bottom (floor y)
      let below ← Coord.between source.y bottom (floor y + 1)
      return some (mixColors (x - ofInt (floor x)) (y - ofInt (floor y))
        (← image.fetch ⟨left, above⟩) (← image.fetch ⟨next, above⟩)
        (← image.fetch ⟨left, below⟩) (← image.fetch ⟨next, below⟩))

/-- The shade of a texture, step by step. -/
def shadeChecked (α : Type) [Scalar α] (image : Image) (t : Transform) (source target : Rect)
    (filter : Filter) (mask : UInt8) : Shade := fun p =>
  if isPlainCopy t source target then do
    return some ((← image.fetch (← copied source target p)).mask mask)
  else do
    let position : Position α := (textureToTarget t source target).inverse.apply p.center
    return (← image.sampleChecked source filter position).map (·.mask mask)

def paintPointChecked (mode : Blend) (shade : Shade) (image : Image) (p : Point) :
    Except Fault Image := do
  match ← shade p with
  | none => return image
  | some c => image.put p (mode.apply c (← image.fetch p))

def paintChecked (image : Image) (mode : Blend) (shade : Shade) (region : Region) :
    Except Fault Image :=
  region.points.foldlM (paintPointChecked mode shade) image

end Image

/-- The bytes of a buffer as an image; the step from row to row has to fit a word. -/
def Buffer.imageChecked (b : Buffer) (bytes : Array UInt8) : Except Fault Image := do
  return ⟨b.format, ← Word.mul b.width.toNat PixelFormat.bytesPerPixel, bytes⟩

def TextureDraw.ontoChecked (α : Type) [Scalar α] (d : TextureDraw) (b : Buffer)
    (bytes : Array UInt8) (target : Buffer) (below : Array UInt8) : Except Fault (Array UInt8) :=
  match sourceTexels d.effectiveSource b.width b.height with
  | none => .ok below
  | some source => do
    let texels ← b.imageChecked bytes
    let image ← target.imageChecked below
    let shade := texels.shadeChecked α d.transform source d.effectiveTarget d.filter d.mask
    return (← image.paintChecked d.blend shade
      (covered d.effectiveTarget target.bounds d.clip)).bytes

/-- What a stroke leaves of the destination of a pass and of its counts, step by step. -/
def Pass.strokeChecked (α : Type) [Scalar α] (p : Pass) (s : Store) :
    Stroke → Except Fault (Array UInt8 × PassTally)
  | .texture d =>
    let b := p.target.buffer
    match d.texture with
    | .stored texture => do
      if s.canRead texture then
        let bytes ← d.ontoChecked α texture (s.pixels texture.id) b (s.pixels b.id)
        return (bytes, ← p.stats.drawn)
      else return (s.pixels b.id, ← p.stats.leftOut)
    | .remote _ _ => return (s.pixels b.id, ← p.stats.leftOut)
  | .fill d => do
    let b := p.target.buffer
    let image ← b.imageChecked (s.pixels b.id)
    let painted ← image.paintChecked d.effectiveBlend (Shade.constant d.color.quantize)
      (covered d.target b.bounds d.clip)
    return (painted.bytes, ← p.stats.drawn)
  | .pause _ => .ok (s.pixels p.target.buffer.id, p.stats)

/-! ## Nothing faults -/

theorem Fault.ok_bind {β γ : Type} (a : β) (f : β → Except Fault γ) :
    Except.ok a >>= f = f a := rfl

theorem Fault.bind_ok {β γ : Type} {x : Except Fault β} {f : β → Except Fault γ} {a : β}
    (h : x = .ok a) : x >>= f = f a := by
  rw [h, ok_bind]

theorem Buffer.imageChecked_eq (b : Buffer) (bytes : Array UInt8) :
    b.imageChecked bytes = .ok (b.image bytes) := by
  have width := b.width.toNat_lt
  have fits : Word.mul b.width.toNat PixelFormat.bytesPerPixel = .ok b.stride := by
    refine if_pos ?_
    rw [PixelFormat.bytesPerPixel, Word.limit, UInt64.size]
    omega
  rw [imageChecked, fits]
  rfl

theorem Coord.word_eq {c : Coord} (nonneg : 0 ≤ c.toInt) : c.word = c.toInt.toNat := by
  have := c.toInt_lt
  rw [word, Word.limit, UInt64.size]
  omega

namespace Image

variable {b : Buffer} {bytes : Array UInt8} {p : Point} {r source target : Rect}

/-- All steps to a pixel of a buffer fit, if the bytes of the buffer can be counted. -/
theorem reach_eq (fits : b.size < Word.limit) (size : bytes.size = b.size)
    (inside : b.bounds.contains p) : (b.image bytes).reach p = .ok (b.offset p) := by
  obtain ⟨column, -, row, -⟩ := Buffer.edges_of_contains inside
  have inside := Buffer.offset_add_le inside
  have offset : b.offset p =
      p.y.toInt.toNat * b.stride + p.x.toInt.toNat * PixelFormat.bytesPerPixel := rfl
  have bytesPerPixel : PixelFormat.bytesPerPixel = 4 := rfl
  have rows : Word.mul p.y.word b.stride = .ok (p.y.toInt.toNat * b.stride) := by
    rw [Coord.word_eq row]
    exact if_pos (by omega)
  have columns : Word.mul p.x.word PixelFormat.bytesPerPixel =
      .ok (p.x.toInt.toNat * PixelFormat.bytesPerPixel) := by
    rw [Coord.word_eq column]
    exact if_pos (by omega)
  have start : Word.add (p.y.toInt.toNat * b.stride)
      (p.x.toInt.toNat * PixelFormat.bytesPerPixel) = .ok (b.offset p) := if_pos (by omega)
  have stop : Word.add (b.offset p) PixelFormat.bytesPerPixel = .ok (b.offset p + 4) :=
    if_pos (by omega)
  refine (Fault.bind_ok rows).trans ((Fault.bind_ok columns).trans ?_)
  refine (Fault.bind_ok start).trans ((Fault.bind_ok stop).trans (if_pos ?_))
  exact (size ▸ inside : b.offset p + 4 ≤ bytes.size)

theorem fetch_eq (fits : b.size < Word.limit) (size : bytes.size = b.size)
    (inside : b.bounds.contains p) : (b.image bytes).fetch p = (b.image bytes).get p := by
  rw [fetch, reach_eq fits size inside, get, offset_image inside]

theorem put_eq (fits : b.size < Word.limit) (size : bytes.size = b.size)
    (inside : b.bounds.contains p) (c : Rgba8) :
    (b.image bytes).put p c = (b.image bytes).set p c := by
  rw [put, reach_eq fits size inside, set, offset_image inside]

/-- A source has a last column and a last row, and the first ones are not behind them. -/
theorem limits_eq (part : r.inter b.bounds = some source) :
    (Coord.exact .subtract (source.right.toInt - 1) =
        .ok (Coord.saturate (source.right.toInt - 1)) ∧
      ∀ n, Coord.between source.x (Coord.saturate (source.right.toInt - 1)) n =
        .ok (column source n)) ∧
    Coord.exact .subtract (source.bottom.toInt - 1) =
        .ok (Coord.saturate (source.bottom.toInt - 1)) ∧
      ∀ n, Coord.between source.y (Coord.saturate (source.bottom.toInt - 1)) n =
        .ok (row source n) := by
  obtain ⟨-, -, -, -, wide, high⟩ := Rect.edges_of_inter part
  have last (low high : Coord) (less : low.toInt < high.toInt) :
      Coord.exact .subtract (high.toInt - 1) = .ok (Coord.saturate (high.toInt - 1)) ∧
        low ≤ Coord.saturate (high.toInt - 1) := by
    have := low.le_toInt
    have := high.toInt_lt
    obtain ⟨exact_, value⟩ := Coord.exact_eq .subtract (n := high.toInt - 1) (by omega) (by omega)
    have same : Int32.ofInt (high.toInt - 1) = Coord.saturate (high.toInt - 1) := by
      rw [← Int32.toInt_inj, value, Coord.toInt_saturate]
      omega
    refine ⟨same ▸ exact_, ?_⟩
    rw [Int32.le_iff_toInt_le, ← same, value]
    omega
  obtain ⟨right, order⟩ := last source.x source.right wide
  obtain ⟨bottom, order'⟩ := last source.y source.bottom high
  exact ⟨⟨right, fun _ => if_pos order⟩, bottom, fun _ => if_pos order'⟩

theorem sampleChecked_eq (fits : b.size < Word.limit) (size : bytes.size = b.size)
    (part : r.inter b.bounds = some source) (filter : Filter) (p : Position Float) :
    (b.image bytes).sampleChecked source filter p = (b.image bytes).sample source filter p := by
  unfold sampleChecked
  cases missed : source.misses p with
  | true => exact (sample_of_misses missed filter).symm
  | false =>
    cases filter with
    | nearest =>
      rw [sample_nearest missed, ← fetch_eq fits size (contains_nearest part missed)]
      rfl
    | bilinear =>
      have texel (m n : Int) : (b.image bytes).fetch ⟨column source m, row source n⟩ =
          (b.image bytes).get ⟨column source m, row source n⟩ :=
        fetch_eq fits size ((Rect.contains_of_inter part).1 (contains_sampled part m n)).2
      obtain ⟨⟨right, column⟩, bottom, row⟩ := limits_eq part
      refine (Fault.bind_ok right).trans ((Fault.bind_ok bottom).trans ?_)
      refine (Fault.bind_ok (column _)).trans ((Fault.bind_ok (column _)).trans ?_)
      refine (Fault.bind_ok (row _)).trans ((Fault.bind_ok (row _)).trans ?_)
      rw [sample_bilinear missed]
      simp only [texel]

theorem shadeChecked_eq (fits : b.size < Word.limit) (size : bytes.size = b.size)
    (part : r.inter b.bounds = some source) (column : 0 ≤ p.x.toInt) (row : 0 ≤ p.y.toInt)
    (inside : target.contains p) (t : Transform) (filter : Filter) (mask : UInt8) :
    (b.image bytes).shadeChecked Float t source target filter mask p =
      (b.image bytes).textureShade Float t source target filter mask p := by
  unfold shadeChecked textureShade
  split
  · rename_i plain
    simp only [isPlainCopy, Bool.and_eq_true, decide_eq_true_eq] at plain
    obtain ⟨q, texel, there⟩ := exists_copied part plain.1.2 plain.2 column row inside
    have fetched := fetch_eq fits size ((Rect.contains_of_inter part).1 texel).2
    rw [copyShade_of_copied there, ← fetched]
    exact Fault.bind_ok there
  · simp only [mappedShade, sampleChecked_eq fits size part]

theorem paintPointChecked_eq (fits : b.size < Word.limit) (size : bytes.size = b.size)
    (mode : Blend) {shade checked : Shade} (inside : b.bounds.contains p)
    (same : checked p = shade p) : paintPointChecked mode checked (b.image bytes) p =
      paintPoint mode shade (b.image bytes) p := by
  rw [paintPointChecked, paintPoint, same]
  rcases shade p with fault | _ | c
  · rfl
  · rfl
  · change (do (b.image bytes).put p (mode.apply c (← (b.image bytes).fetch p))) =
      (do (b.image bytes).set p (mode.apply c (← (b.image bytes).get p)))
    simp only [fetch_eq fits size inside, put_eq fits size inside]

/-- Painting step by step is painting, if the shades are the same and no shade is a fault. -/
theorem paintChecked_eq (fits : b.size < Word.limit) (size : bytes.size = b.size) (mode : Blend)
    {region : Region} {shade checked : Shade}
    (inside : ∀ p, region.contains p → b.bounds.contains p)
    (shaded : ∀ p, region.contains p → ∃ c, shade p = .ok c)
    (same : ∀ p, region.contains p → checked p = shade p) :
    (b.image bytes).paintChecked mode checked region =
      (b.image bytes).paint mode shade region := by
  have walk (points : List Point) (mem : ∀ p ∈ points, region.contains p) :
      ∀ bytes : Array UInt8, bytes.size = b.size →
        points.foldlM (paintPointChecked mode checked) (b.image bytes) =
          points.foldlM (paintPoint mode shade) (b.image bytes) := by
    induction points with
    | nil => exact fun _ _ => rfl
    | cons p points ih =>
      intro bytes size
      rw [List.forall_mem_cons] at mem
      have here := inside p mem.1
      have step := paintPointChecked_eq fits size mode here (same p mem.1)
      obtain ⟨bytes', painted, takes⟩ := paintPoint_takes mode size here (shaded p mem.1)
      rw [List.foldlM_cons, List.foldlM_cons, step]
      refine (Fault.bind_ok painted).trans (Eq.trans ?_ (Fault.bind_ok painted).symm)
      exact ih mem.2 bytes' (takes.size.trans size)
  exact walk region.points (fun p => Region.mem_points.1) bytes size

end Image

/-! ## Strokes -/

variable {b target : Buffer} {bytes below : Array UInt8}

theorem TextureDraw.ontoChecked_eq (fits : b.size < Word.limit) (size : bytes.size = b.size)
    (fits' : target.size < Word.limit) (size' : below.size = target.size) (d : TextureDraw) :
    d.ontoChecked Float b bytes target below =
      Image.bytes <$> d.onto Float b bytes target.bounds (target.image below) := by
  unfold ontoChecked onto
  cases found : sourceTexels d.effectiveSource b.width b.height with
  | none => rfl
  | some source =>
    obtain ⟨r, part⟩ := inter_of_sourceTexels found
    have same (p : Point) (mem : (covered d.effectiveTarget target.bounds d.clip).contains p) :
        (b.image bytes).shadeChecked Float d.transform source d.effectiveTarget d.filter d.mask p =
          d.shade Float b bytes source p := by
      obtain ⟨inside, visible, -⟩ := contains_covered.1 mem
      obtain ⟨column, -, row, -⟩ := Buffer.edges_of_contains visible
      exact Image.shadeChecked_eq fits size part column row inside _ _ _
    have painted := Image.paintChecked_eq fits' size' d.blend
      (fun p mem => (contains_covered.1 mem).2.1)
      (fun p mem => d.shade_ok Float found size mem) same
    simp only [Buffer.imageChecked_eq, Fault.ok_bind, painted]
    exact (map_eq_pure_bind _ _).symm

namespace Pass

open Compositor.Action

variable {p : Pass} {σ : Session}

/-- A texture leaves what its steps leave, and none of them faults. -/
theorem textureChecked_eq (sized : σ.store.Sized) (ready : p.Ready σ.store)
    (fits : p.target.buffer.size < Word.limit) {d : TextureDraw}
    (safe : (Stroke.texture d).Safe σ.store p.target.buffer.id)
    (known : (Stroke.texture d).Known σ.store)
    (few : p.stats.ops + p.stats.skipped + 1 < UInt32.size) :
    ∃ p' σ', p.drawTexture Float d σ = .ok p' σ' ∧ p.strokeChecked Float σ.store (.texture d) =
      .ok (σ'.store.pixels p.target.buffer.id, p'.stats) := by
  have drawn : p.stats.drawn = .ok p.counted.stats :=
    PassTally.drawn_eq (by omega)
  have leftOut : p.stats.leftOut =
      .ok { p.stats with skipped := p.stats.skipped + 1 } :=
    PassTally.leftOut_eq (by omega)
  cases texture : d.texture with
  | remote width height =>
    rw [drawTexture, texture]
    refine ⟨_, _, bind_eq_ok rfl rfl, ?_⟩
    simp only [strokeChecked, texture, leftOut, Fault.ok_bind]
    rfl
  | stored b =>
    cases granted : σ.store.canRead b with
    | false =>
      obtain ⟨σ', done, same⟩ := drawTexture_refused (α := Float) (p := p) texture granted
      refine ⟨_, σ', done, ?_⟩
      simp only [strokeChecked, texture, granted, leftOut, Fault.ok_bind, same]
      rfl
    | true =>
      obtain ⟨apart, readable⟩ := safe d b rfl texture granted
      have fits' := sized b.id b (known d b rfl texture).1 readable.mappable
      obtain ⟨bytes, painted, -⟩ := d.onto_laid Float readable.stored.size ready.stored.size
      obtain ⟨σ', done, written⟩ := drawTexture_eq_ok ready texture apart readable painted
      obtain ⟨e, stored, -⟩ := ready.stored
      have checked := d.ontoChecked_eq fits' readable.stored.size fits ready.stored.size
      rw [painted] at checked
      refine ⟨p.counted, σ', done, ?_⟩
      simp only [strokeChecked, texture, granted, ↓reduceIte, checked, drawn]
      rw [written, Store.pixels_withPixels stored]
      rfl

theorem fillChecked_eq (ready : p.Ready σ.store) (fits : p.target.buffer.size < Word.limit)
    (d : RectFill) (few : p.stats.ops + 1 < UInt32.size) :
    ∃ σ', p.fillRect d σ = .ok p.counted σ' ∧ p.strokeChecked Float σ.store (.fill d) =
      .ok (σ'.store.pixels p.target.buffer.id, p.counted.stats) := by
  have drawn : p.stats.drawn = .ok p.counted.stats := PassTally.drawn_eq few
  have inside (q : Point) (mem : (covered d.target p.bounds d.clip).contains q) :
      p.target.buffer.bounds.contains q := (contains_covered.1 mem).2.1
  have shaded (q : Point) (_ : (covered d.target p.bounds d.clip).contains q) :
      ∃ c, Shade.constant d.color.quantize q = .ok c := ⟨_, rfl⟩
  obtain ⟨σ', done, bytes, written, takes⟩ := fillRect_laid ready d
  obtain ⟨bytes', painted, takes'⟩ :=
    Image.paint_walks d.effectiveBlend ready.stored.size inside shaded
  have checked := Image.paintChecked_eq fits ready.stored.size d.effectiveBlend inside shaded
    fun _ _ => rfl
  obtain ⟨e, stored, -⟩ := ready.stored
  refine ⟨σ', done, ?_⟩
  rw [written, Store.pixels_withPixels stored, takes'.unique takes]
  refine (Fault.bind_ok (Buffer.imageChecked_eq _ _)).trans ?_
  exact (Fault.bind_ok (checked.trans painted)).trans (Fault.bind_ok drawn)

/-- A stroke leaves what its steps leave, and none of them faults. -/
theorem strokeChecked_eq (sized : σ.store.Sized) (holds : p.Holds σ.store)
    (whole : σ.store.Whole) {stroke : Stroke} (known : stroke.Known σ.store)
    (few : p.stats.ops + p.stats.skipped + 1 < UInt32.size) :
    ∃ p' σ', p.stroke Float stroke σ = .ok p' σ' ∧ p.strokeChecked Float σ.store stroke =
      .ok (σ'.store.pixels p.target.buffer.id, p'.stats) := by
  have ready := holds.ready whole
  have fits := sized _ _ holds.has.1 holds.mappable
  cases stroke with
  | texture d => exact textureChecked_eq sized ready fits (known.safe whole holds) known few
  | fill d =>
    obtain ⟨σ', done, checked⟩ := fillChecked_eq ready fits d (by omega)
    exact ⟨p.counted, σ', done, checked⟩
  | pause span => exact ⟨p, _, bind_eq_ok rfl rfl, rfl⟩

end Pass

namespace Studio

/-- Whatever a program has done, a stroke in an open pass never faults: not with any boxes,
transform, filter, blending, alpha and clip, as long as the pass has seen fewer strokes than 32 bits
can count. All its steps fit: each coordinate that a plain copy computes is one, each offset is a
word, and the bytes of each texel and pixel lie in their arrays. -/
theorem stroke_steps_never_fault (clock : Clock) (calls : List StudioCall) {p : Pass}
    {stroke : Stroke} (mem : p ∈ ((start clock).runs Float calls).passes)
    (owned : ∀ b ∈ stroke.textures, ((start clock).runs Float calls).Owns b)
    (few : p.stats.ops + p.stats.skipped + 1 < UInt32.size) :
    let st := (start clock).runs Float calls
    ∃ p' σ, p.stroke Float stroke st.session = .ok p' σ ∧
      p.strokeChecked Float st.store stroke =
        .ok (σ.store.pixels p.target.buffer.id, p'.stats) := by
  intro st
  have sound : st.Sound := (sound_start clock).runs calls
  have sized : st.store.Sized := (sound_start clock).sized_runs (fun _ _ => nofun) calls
  have known : stroke.Known st.store := by
    rintro d b rfl stored
    exact sound.client.has (owned b (by simp [Stroke.textures, stored]))
  exact Pass.strokeChecked_eq (σ := st.session) sized (sound.holds mem) sound.client.whole known few

/-- A texture with a box that is not a number, mirrored, turned and stretched over more than its
destination. -/
theorem odd_box_never_faults :
    let b : Buffer := ⟨⟨0⟩, 2, 2, .xrgb8888, true⟩
    let texture : Buffer := ⟨⟨1⟩, 2, 1, .argb8888, true⟩
    let stroke : Stroke := .texture
      { texture := .stored texture, source := ⟨0.0 / 0.0, -7, 1.0 / 0.0, 9⟩,
        target := ⟨-2147483646, 0, 2147483647, 3⟩, transform := ⟨true, 1⟩, filter := .nearest }
    let st := (start default).runs Float [.buffer (.create 2 2 .xrgb8888),
      .buffer (.createFrom 2 1 .argb8888 #[1, 2, 3, 4, 5, 6, 7, 8]), .startPass {} b]
    let p : Pass := ⟨⟨b, .readWrite⟩, none, {}⟩
    ∃ p' σ, p.stroke Float stroke st.session = .ok p' σ ∧
      p.strokeChecked Float st.store stroke = .ok (σ.store.pixels b.id, p'.stats) := by
  intro b texture stroke st p
  have begun : st.passes[0]? = some p := by rfl
  have owned : st.Owns texture := by decide +kernel
  exact stroke_steps_never_fault default _ (List.mem_of_getElem? begun)
    (fun b mem => List.mem_singleton.1 mem ▸ owned) (by decide)

end Studio

end Compositor
