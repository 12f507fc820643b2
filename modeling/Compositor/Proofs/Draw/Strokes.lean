import Compositor.Proofs.Draw.Pass
import Compositor.Proofs.Draw.Shades
import Compositor.Proofs.Store.Cascade
import Mathlib.Data.List.Basic

/-!
# What a stroke does

What a stroke does to a pixel is known before it is drawn: it depends on the stroke, the pixel and
the texture, and on nothing else in the store. A pass whose destination is at hand never breaks off:
a texture is either skipped, or it can be read and has the bytes of all its pixels. The pixels of
the destination take what the strokes lay on them, in order, and nothing else in the store changes.
A texture is held while it is drawn, which leaves no trace.
-/

namespace Compositor

/-! ## Stores that differ in the pixels of one buffer -/

namespace Store

variable {s s' : Store} {id : BufferId} {b : Buffer}

/-- Replace the pixels of a buffer. -/
def withPixels (s : Store) (id : BufferId) (bytes : Array UInt8) : Store :=
  s.modify id ({ · with pixels := bytes })

theorem entry?_withPixels (s : Store) (id other : BufferId) (bytes : Array UInt8) :
    entry? (s.withPixels id bytes) other =
      if other = id then (s.entry? other).map ({ · with pixels := bytes }) else s.entry? other :=
  entry?_modify s id other _

theorem pixels_withPixels {e : Entry} (found : s.entry? id = some e) (bytes : Array UInt8) :
    (s.withPixels id bytes).pixels id = bytes := by
  rw [pixels, entry?_withPixels, if_pos rfl, found]
  rfl

theorem withPixels_self (s : Store) (id : BufferId) : s.withPixels id (s.pixels id) = s := by
  refine ext_entry? (fun other => ?_) rfl rfl
  rw [entry?_withPixels]
  split
  · rename_i same
    subst same
    cases found : s.entry? other with
    | none => rfl
    | some e =>
      rw [pixels, found]
      rfl
  · rfl

theorem withPixels_withPixels (s : Store) (id : BufferId) (bytes bytes' : Array UInt8) :
    (s.withPixels id bytes).withPixels id bytes' = s.withPixels id bytes' := by
  refine ext_entry? (fun other => ?_) rfl rfl
  rw [entry?_withPixels, entry?_withPixels, entry?_withPixels]
  split
  · cases s.entry? other <;> rfl
  · rfl

/-- A buffer that is alive and has the bytes of all its pixels. -/
def Stored (s : Store) (b : Buffer) : Prop :=
  ∃ e, s.entry? b.id = some e ∧ 0 < e.handles ∧ e.pixels.size = b.size

/-- A texture that can be read now: no writer has it. -/
structure Readable (s : Store) (b : Buffer) : Prop where
  mappable : b.mappable = true
  stored : s.Stored b
  free : s.lock b.id = .idle ∨ ∃ n, s.lock b.id = .reading (n + 1)

theorem Stored.size (stored : s.Stored b) : (s.pixels b.id).size = b.size := by
  obtain ⟨e, found, -, size⟩ := stored
  rw [pixels, found]
  exact size

theorem Readable.congr (readable : s.Readable b) (same : s'.entry? b.id = s.entry? b.id) :
    s'.Readable b := by
  obtain ⟨mappable, ⟨e, found, live⟩, free⟩ := readable
  refine ⟨mappable, ⟨e, same.trans found, live⟩, ?_⟩
  rw [lock, same]
  exact free

theorem update_eq_ok {g : Guard} {f : Array UInt8 → Except Fault (Array UInt8)}
    {bytes : Array UInt8} (writable : g.flags.write = true)
    (h : f (s.pixels g.buffer.id) = .ok bytes) :
    s.update g f = .ok (s.withPixels g.buffer.id bytes) := by
  rw [update, if_pos writable, read, h]
  rfl

/-- A lock that was taken for reading is given back as it was. -/
theorem release_acquire {lock : Lock} (free : lock = .idle ∨ ∃ n, lock = .reading (n + 1)) :
    ∃ held, lock.acquire false = some held ∧ held.release = lock := by
  obtain rfl | ⟨n, rfl⟩ := free
  · exact ⟨_, rfl, rfl⟩
  · exact ⟨_, rfl, by simp [Lock.release]⟩

theorem openAccess_eq_ok (flags : AccessRights) {lock : Lock} (mappable : b.mappable = true)
    (acquired : (s.lock b.id).acquire flags.write = some lock) :
    s.openAccess b flags = .ok (⟨b, flags⟩,
      s.modify b.id fun e => { e with lock, handles := e.handles + 1 }) := by
  rw [openAccess, if_pos mappable, acquired]

/-- An access that does not hold the last handle gives back its share and its handle. -/
theorem closeAccess_shared {g : Guard} {e : Entry} (found : s.entry? g.buffer.id = some e)
    (shared : e.handles ≠ 1) : s.closeAccess g = s.modify g.buffer.id fun e =>
      { e with lock := e.lock.release, handles := e.handles - 1 } := by
  have unlocked : entry? (s.modify g.buffer.id fun e => { e with lock := e.lock.release })
      g.buffer.id = some { e with lock := e.lock.release } := by
    rw [entry?_modify, if_pos rfl, found]
    rfl
  rw [closeAccess, release_shared unlocked shared]
  refine ext_entry? (fun other => ?_) rfl rfl
  rw [entry?_modify, entry?_modify, entry?_modify]
  split
  · rename_i same
    rw [same, found]
    rfl
  · rfl

/-- Holding a texture while pixels of another buffer are written leaves no trace. -/
theorem Readable.access (readable : s.Readable b) (apart : b.id ≠ id) :
    ∃ s₁, s.openAccess b .readOnly = .ok (⟨b, .readOnly⟩, s₁) ∧
      s₁.pixels b.id = s.pixels b.id ∧ s₁.entry? id = s.entry? id ∧
      ∀ bytes, (s₁.withPixels id bytes).closeAccess ⟨b, .readOnly⟩ = s.withPixels id bytes := by
  obtain ⟨e, found, alive, -⟩ := readable.stored
  obtain ⟨held, acquired, released⟩ := release_acquire readable.free
  have opened := openAccess_eq_ok .readOnly readable.mappable acquired
  refine ⟨_, opened, pixels_openAccess opened b.id, ?_, fun bytes => ?_⟩
  · rw [entry?_modify, if_neg apart.symm]
  have lock : held.release = e.lock := by
    rw [released, Store.lock, found]
    rfl
  have entry : entry? ((s.modify b.id fun e =>
      { e with lock := held, handles := e.handles + 1 }).withPixels id bytes) b.id =
        some { e with lock := held, handles := e.handles + 1 } := by
    rw [entry?_withPixels, if_neg apart, entry?_modify, if_pos rfl, found]
    rfl
  -- The handle of the access is never the last one, so no listener hears of anything.
  rw [closeAccess_shared entry (by simp; omega)]
  refine ext_entry? (fun other => ?_) rfl rfl
  rw [entry?_modify]
  split
  · rename_i same
    rw [same, entry, entry?_withPixels, if_neg apart, found]
    simp [lock]
  · rename_i differ
    rw [entry?_withPixels, entry?_modify, if_neg differ, entry?_withPixels]

/-- Whether an access for reading would be granted. -/
def canRead (s : Store) (b : Buffer) : Bool :=
  b.mappable && ((s.lock b.id).acquire false).isSome

theorem Readable.canRead (readable : s.Readable b) : s.canRead b = true := by
  obtain ⟨held, acquired, -⟩ := release_acquire readable.free
  rw [Store.canRead, readable.mappable, acquired]
  rfl

theorem canRead_eq_isOk (s : Store) (b : Buffer) :
    s.canRead b = (s.openAccess b .readOnly).isOk := by
  have reads : AccessRights.readOnly.write = false := rfl
  rw [canRead, openAccess, reads]
  cases b.mappable with
  | false => rfl
  | true => cases (s.lock b.id).acquire false <;> rfl

theorem openAccess_refused (refused : s.canRead b = false) :
    ∃ cause, s.openAccess b .readOnly = .error cause := by
  rw [canRead_eq_isOk] at refused
  cases opened : s.openAccess b .readOnly with
  | error cause => exact ⟨cause, rfl⟩
  | ok access =>
    rw [opened] at refused
    cases refused

end Store

/-! ## What a stroke lays on a pixel -/

theorem contains_covered {target bounds : Rect} {clip : Option Region} {p : Point} :
    (covered target bounds clip).contains p ↔
      target.contains p ∧ bounds.contains p ∧ ∀ region ∈ clip, region.contains p := by
  have overlap := Rect.contains_inter (r := target) (s := bounds) (p := p)
  rw [← and_assoc, ← overlap]
  unfold covered
  cases target.inter bounds with
  | none => simp [Region.contains_empty]
  | some visible =>
    cases clip with
    | none => simp [Region.contains_ofRect]
    | some clip => simp [Region.contains_inter, Region.contains_ofRect]

/-- The inks of a shade on a pixel of a region, one each time that a walk meets the pixel. -/
def Shade.laid (shade : Shade) (mode : Blend) (region : Region) (p : Point) : List Ink :=
  (List.replicate (region.points.count p) (shade.ink mode p)).flatten

theorem Shade.laid_of_isEmpty (shade : Shade) (mode : Blend) {region : Region}
    (empty : region.isEmpty = true) (p : Point) : shade.laid mode region p = [] := by
  rw [Region.isEmpty, List.isEmpty_iff] at empty
  rw [laid, Region.points, empty]
  rfl

/-- A walk over a normal region meets each of its pixels once. -/
theorem Shade.laid_of_normal (shade : Shade) (mode : Blend) {region : Region}
    (normal : region.Normal) (p : Point) :
    shade.laid mode region p = if region.contains p then shade.ink mode p else [] := by
  rw [laid, normal.count_points]
  split <;> simp

def RectFill.laid (fill : RectFill) (bounds : Rect) (p : Point) : List Ink :=
  (Shade.constant fill.color.quantize).laid fill.effectiveBlend
    (covered fill.target bounds fill.clip) p

/-- The colours of a source rectangle of a texture with the given bytes. -/
def TextureDraw.shade (α : Type) [Scalar α] (d : TextureDraw) (b : Buffer) (bytes : Array UInt8)
    (source : Rect) : Shade :=
  (b.image bytes).textureShade α d.transform source d.effectiveTarget d.filter d.mask

def TextureDraw.laid (α : Type) [Scalar α] (d : TextureDraw) (b : Buffer) (bytes : Array UInt8)
    (bounds : Rect) (p : Point) : List Ink :=
  match sourceTexels d.effectiveSource b.width b.height with
  | none => []
  | some source =>
    (d.shade α b bytes source).laid d.blend (covered d.effectiveTarget bounds d.clip) p

/-- An image after a texture with the given bytes was drawn onto it. -/
def TextureDraw.onto (α : Type) [Scalar α] (d : TextureDraw) (b : Buffer) (bytes : Array UInt8)
    (bounds : Rect) (below : Image) : Except Fault Image :=
  match sourceTexels d.effectiveSource b.width b.height with
  | none => .ok below
  | some source =>
    below.paint d.blend (d.shade α b bytes source) (covered d.effectiveTarget bounds d.clip)

theorem TextureDraw.onto_eq (α : Type) [Scalar α] {d : TextureDraw} {b : Buffer}
    {source : Rect} (found : sourceTexels d.effectiveSource b.width b.height = some source)
    (bytes : Array UInt8) (bounds : Rect) (below : Image) : d.onto α b bytes bounds below =
      below.paint d.blend (d.shade α b bytes source) (covered d.effectiveTarget bounds d.clip) := by
  unfold onto
  rw [found]

theorem TextureDraw.shade_ok (α : Type) [Scalar α] [LawfulScalar α] {d : TextureDraw}
    {b target : Buffer} {bytes : Array UInt8} {source : Rect}
    (found : sourceTexels d.effectiveSource b.width b.height = some source)
    (size : bytes.size = b.size) {q : Point}
    (mem : (covered d.effectiveTarget target.bounds d.clip).contains q) :
    ∃ c, d.shade α b bytes source q = .ok c := by
  obtain ⟨r, part⟩ := inter_of_sourceTexels found
  obtain ⟨inside, visible, -⟩ := contains_covered.1 mem
  obtain ⟨column, -, row, -⟩ := Buffer.edges_of_contains visible
  exact Image.textureShade_ok size part column row inside d.transform d.filter

/-- Drawing a texture onto the pixels of a buffer lays its inks on them. -/
theorem TextureDraw.onto_laid (α : Type) [Scalar α] [LawfulScalar α] (d : TextureDraw)
    {b target : Buffer} {bytes below : Array UInt8} (texels : bytes.size = b.size)
    (size : below.size = target.size) :
    ∃ bytes', d.onto α b bytes target.bounds (target.image below) = .ok (target.image bytes') ∧
      target.Takes (d.laid α b bytes target.bounds) below bytes' := by
  unfold onto laid
  cases found : sourceTexels d.effectiveSource b.width b.height with
  | none => exact ⟨below, rfl, .none target below⟩
  | some source =>
    exact Image.paint_walks d.blend size (fun q mem => (contains_covered.1 mem).2.1)
      fun q mem => d.shade_ok α found texels mem

/-- What a stroke lays on a pixel of a destination with the given bounds. -/
def Stroke.laid (α : Type) [Scalar α] (s : Store) (bounds : Rect) (p : Point) : Stroke → List Ink
  | .texture d =>
    match d.texture with
    | .stored b => if s.canRead b then d.laid α b (s.pixels b.id) bounds p else []
    | .remote _ _ => []
  | .fill d => d.laid bounds p
  | .pause _ => []

/-- A texture that would be read is not the destination, and can be read as a whole. -/
def Stroke.Safe (stroke : Stroke) (s : Store) (target : BufferId) : Prop :=
  ∀ d b, stroke = .texture d → d.texture = .stored b → s.canRead b = true →
    b.id ≠ target ∧ s.Readable b

namespace Stroke.Safe

variable {stroke : Stroke} {s s' : Store} {target : BufferId}

theorem congr (safe : stroke.Safe s target) (locks : ∀ id, s'.lock id = s.lock id)
    (same : ∀ id, id ≠ target → s'.entry? id = s.entry? id) : stroke.Safe s' target := by
  intro d b texture stored granted
  rw [Store.canRead, locks] at granted
  obtain ⟨apart, readable⟩ := safe d b texture stored granted
  exact ⟨apart, readable.congr (same b.id apart)⟩

/-- What a stroke draws does not depend on the pixels of the destination. -/
theorem laid_congr (α : Type) [Scalar α] (safe : stroke.Safe s target)
    (locks : ∀ id, s'.lock id = s.lock id) (same : ∀ id, id ≠ target → s'.entry? id = s.entry? id)
    (bounds : Rect) (p : Point) : stroke.laid α s' bounds p = stroke.laid α s bounds p := by
  cases stroke with
  | texture d =>
    simp only [laid]
    split
    · rename_i b stored
      rw [show s'.canRead b = s.canRead b by rw [Store.canRead, locks, Store.canRead]]
      split
      · rename_i granted
        rw [Store.pixels, same b.id (safe d b rfl stored granted).1, Store.pixels]
      · rfl
    · rfl
  | fill d => simp only [laid]
  | pause span => simp only [laid]

end Stroke.Safe

/-! ## What a pass does -/

open Compositor.Action

theorem Action.withStore_eq_ok {α : Type} {f : Store → Except Fault (α × Store)} {σ : Session}
    {a : α} {s : Store} (h : f σ.store = .ok (a, s)) :
    withStore f σ = .ok a { σ with store := s } := by
  refine bind_eq_ok rfl ?_
  rw [h]
  rfl

theorem Action.openAccess_eq_ok {b : Buffer} {flags : AccessRights} {σ : Session} {g : Guard}
    {s : Store} (h : σ.store.openAccess b flags = .ok (g, s)) :
    openAccess b flags σ = .ok (.ok g) { σ with store := s } := by
  refine bind_eq_ok rfl ?_
  rw [h]
  rfl

theorem Action.openAccess_eq_error {b : Buffer} {flags : AccessRights} {σ : Session}
    {cause : AccessError} (h : σ.store.openAccess b flags = .error cause) :
    openAccess b flags σ = .ok (.error cause) σ := by
  refine bind_eq_ok rfl ?_
  rw [h]
  rfl

/-- A pass is refused because of the format or because of the destination, and then nothing
happens; or it begins with an access for writing. -/
theorem Renderer.start_cases (r : Renderer) (b : Buffer) (σ : Session) :
    b.format ∉ r.formats ∧ r.start b σ = .ok (.error .format) σ ∨
      b.format ∈ r.formats ∧ (∃ cause, σ.store.openAccess b .readWrite = .error cause ∧
        r.start b σ = .ok (.error (.destination cause)) σ) ∨
      b.format ∈ r.formats ∧ ∃ p σ₁, r.start b σ = .ok (.ok p) σ₁ ∧
        σ.store.openAccess b .readWrite = .ok (p.target, σ₁.store) := by
  by_cases known : b.format ∈ r.formats
  · refine .inr ?_
    cases opened : σ.store.openAccess b .readWrite with
    | error cause =>
      refine .inl ⟨known, cause, rfl, ?_⟩
      rw [start, if_neg (not_not_intro known)]
      exact bind_eq_ok (openAccess_eq_error opened) rfl
    | ok access =>
      obtain ⟨g, s⟩ := access
      refine .inr ⟨known, ?_⟩
      rw [start, if_neg (not_not_intro known)]
      cases r.timed with
      | false => exact ⟨_, _, bind_eq_ok (openAccess_eq_ok opened) rfl, rfl⟩
      | true => exact ⟨_, _, bind_eq_ok (openAccess_eq_ok opened) rfl, rfl⟩
  · refine .inl ⟨known, ?_⟩
    rw [start, if_pos known]
    rfl

namespace Renderer

variable {r : Renderer} {b : Buffer} {σ : Session}

theorem start_opened {g : Guard} {s : Store} (known : b.format ∈ r.formats)
    (opened : σ.store.openAccess b .readWrite = .ok (g, s)) :
    ∃ p σ', r.start b σ = .ok (.ok p) σ' ∧ p.target = g ∧ σ'.store = s := by
  obtain ⟨unknown, -⟩ | ⟨-, cause, refused, -⟩ | ⟨-, p, σ', begun, opened'⟩ := r.start_cases b σ
  · exact absurd known unknown
  · cases opened.symm.trans refused
  · cases opened.symm.trans opened'
    exact ⟨p, σ', begun, rfl, rfl⟩

theorem start_refused (refused : b.format ∈ r.formats →
    ∃ cause, σ.store.openAccess b .readWrite = .error cause) :
    ∃ error, r.start b σ = .ok (.error error) σ := by
  obtain ⟨-, begun⟩ | ⟨-, cause, -, begun⟩ | ⟨known, p, σ', -, opened⟩ := r.start_cases b σ
  · exact ⟨_, begun⟩
  · exact ⟨_, begun⟩
  · obtain ⟨cause, denied⟩ := refused known
    cases opened.symm.trans denied

end Renderer

namespace Pass

/-- The destination is held for writing, and has the bytes of all its pixels. -/
structure Ready (p : Pass) (s : Store) : Prop where
  writable : p.target.flags.write = true
  stored : s.Stored p.target.buffer

/-- A pass that begins on a stored buffer is ready, and nothing has been drawn yet. -/
theorem start_ready {r : Renderer} {b : Buffer} {σ σ' : Session} {p : Pass}
    (stored : σ.store.Stored b) (begun : r.start b σ = .ok (.ok p) σ') :
    p.target.buffer = b ∧ p.Ready σ'.store ∧ σ'.store.pixels b.id = σ.store.pixels b.id ∧
      ∀ id, id ≠ b.id → σ'.store.entry? id = σ.store.entry? id := by
  obtain ⟨p', same, opened⟩ | ⟨error, failed, -⟩ := Renderer.start_result begun
  · obtain rfl := Except.ok.inj same
    have texels := Store.pixels_openAccess opened b.id
    obtain ⟨target, lock, -, after⟩ := Store.openAccess_ok opened
    obtain ⟨e, found, alive, size⟩ := stored
    have buffer : p.target.buffer = b := congrArg Guard.buffer target
    refine ⟨buffer, ⟨congrArg (·.flags.write) target, ?_⟩, texels, fun id apart => ?_⟩
    · refine ⟨{ e with lock, handles := e.handles + 1 }, ?_, Nat.succ_pos _, buffer ▸ size⟩
      rw [after, buffer, Store.entry?_modify, if_pos rfl, found]
      rfl
    · rw [after, Store.entry?_modify, if_neg apart]
  · cases failed

/-- The pixels of the destination took inks, and nothing else changed. -/
def Inked (p : Pass) (inks : Point → List Ink) (s s' : Store) : Prop :=
  ∃ bytes, s' = s.withPixels p.target.buffer.id bytes ∧
    p.target.buffer.Takes inks (s.pixels p.target.buffer.id) bytes

variable {α : Type} [Scalar α] {p p' : Pass} {s s' s'' : Store} {inks inks' : Point → List Ink}
  {σ : Session}

theorem Inked.none (p : Pass) (s : Store) : p.Inked (fun _ => []) s s :=
  ⟨_, (s.withPixels_self _).symm, .none _ _⟩

theorem Inked.ready (inked : p.Inked inks s s') (ready : p.Ready s) : p.Ready s' := by
  obtain ⟨bytes, rfl, takes⟩ := inked
  obtain ⟨e, found, alive, size⟩ := ready.stored
  refine ⟨ready.writable, { e with pixels := bytes }, ?_, alive, ?_⟩
  · rw [Store.entry?_withPixels, if_pos rfl, found]
    rfl
  · exact takes.size.trans ready.stored.size

theorem Inked.append (ready : p.Ready s) (first : p.Inked inks s s')
    (second : p.Inked inks' s' s'') : p.Inked (fun q => inks q ++ inks' q) s s'' := by
  obtain ⟨bytes, rfl, takes⟩ := first
  obtain ⟨bytes', rfl, takes'⟩ := second
  obtain ⟨e, found, -, -⟩ := ready.stored
  rw [Store.pixels_withPixels found] at takes'
  exact ⟨bytes', s.withPixels_withPixels _ _ _, takes.append takes'⟩

theorem Inked.entry? (inked : p.Inked inks s s') {id : BufferId}
    (apart : id ≠ p.target.buffer.id) : s'.entry? id = s.entry? id := by
  obtain ⟨bytes, rfl, -⟩ := inked
  rw [Store.entry?_withPixels, if_neg apart]

theorem Inked.lock (inked : p.Inked inks s s') (id : BufferId) : s'.lock id = s.lock id := by
  obtain ⟨bytes, rfl, -⟩ := inked
  exact Store.lock_eq_of_fixed? (s.fixed?_modify _ id fun _ => ⟨rfl, rfl⟩)

theorem Inked.congr (target : p'.target = p.target) :
    p'.Inked inks s s' ↔ p.Inked inks s s' := by
  rw [Inked, target, Inked]

/-- The inks determine what becomes of the store. -/
theorem Inked.unique (first : p.Inked inks s s') (second : p.Inked inks s s'') : s'' = s' := by
  obtain ⟨bytes, rfl, takes⟩ := first
  obtain ⟨bytes', rfl, takes'⟩ := second
  rw [takes.unique takes']

theorem paint_eq_ok {mode : Blend} {shade : Shade} {region : Region} {bytes : Array UInt8}
    (ready : p.Ready σ.store)
    (painted : (p.target.buffer.image (σ.store.pixels p.target.buffer.id)).paint mode shade region =
      .ok (p.target.buffer.image bytes)) :
    p.paint mode shade region σ =
      .ok () { σ with store := σ.store.withPixels p.target.buffer.id bytes } := by
  have written : σ.store.update p.target (fun bytes => do
      return (← (p.target.buffer.image bytes).paint mode shade region).bytes) =
        .ok (σ.store.withPixels p.target.buffer.id bytes) :=
    Store.update_eq_ok ready.writable (congrArg (Functor.map Image.bytes) painted)
  exact withStore_eq_ok (congrArg (Functor.map ((), ·)) written)

theorem fillRect_laid (ready : p.Ready σ.store) (fill : RectFill) :
    ∃ σ', p.fillRect fill σ = .ok p.counted σ' ∧
      p.Inked (fill.laid p.bounds) σ.store σ'.store := by
  unfold fillRect
  cases empty : (covered fill.target p.bounds fill.clip).isEmpty with
  | true =>
    have silent : fill.laid p.bounds = fun _ => [] :=
      funext fun q => Shade.laid_of_isEmpty _ _ empty q
    refine ⟨_, bind_eq_ok rfl rfl, ?_⟩
    rw [silent]
    exact .none p _
  | false =>
    have inside (q : Point) (mem : (covered fill.target p.bounds fill.clip).contains q) :
        p.target.buffer.bounds.contains q := (contains_covered.1 mem).2.1
    obtain ⟨bytes, painted, takes⟩ := Image.paint_walks fill.effectiveBlend ready.stored.size inside
      fun q _ => ⟨_, (rfl : Shade.constant fill.color.quantize q = _)⟩
    exact ⟨_, bind_eq_ok rfl <|
      bind_eq_ok (paint_eq_ok (σ := { σ with log := _ }) ready painted) rfl, bytes, rfl, takes⟩

/-- The destination gets the image that is left when the texture was drawn onto it. -/
theorem paintTexture_eq_ok {d : TextureDraw} {g : Guard} {bytes : Array UInt8}
    (ready : p.Ready σ.store)
    (drawn : d.onto α g.buffer (σ.store.pixels g.buffer.id) p.bounds
      (p.target.buffer.image (σ.store.pixels p.target.buffer.id)) =
        .ok (p.target.buffer.image bytes)) :
    ∃ σ', p.paintTexture α d g σ = .ok () σ' ∧
      σ'.store = σ.store.withPixels p.target.buffer.id bytes := by
  have untouched (same : σ.store.pixels p.target.buffer.id = bytes) :
      σ.store = σ.store.withPixels p.target.buffer.id bytes := by
    rw [← same, Store.withPixels_self]
  unfold paintTexture
  unfold TextureDraw.onto at drawn
  split at drawn
  · rename_i missing
    rw [missing]
    exact ⟨_, rfl, untouched (congrArg Image.bytes (Except.ok.inj drawn))⟩
  · rename_i source found
    rw [found]
    cases empty : (covered d.effectiveTarget p.bounds d.clip).isEmpty with
    | true =>
      simp only [empty, Bool.not_true, Bool.false_eq_true, ↓reduceIte]
      rw [Image.paint_empty empty] at drawn
      exact ⟨σ, rfl, untouched (congrArg Image.bytes (Except.ok.inj drawn))⟩
    | false =>
      simp only [empty, Bool.not_false, ↓reduceIte]
      exact ⟨_, bind_eq_ok rfl
        (bind_eq_ok rfl (paint_eq_ok (σ := { σ with log := _ }) ready drawn)), rfl⟩

/-- The texture is held meanwhile, and of that nothing is left in the store. -/
theorem drawTexture_eq_ok {d : TextureDraw} {b : Buffer} {bytes : Array UInt8}
    (ready : p.Ready σ.store) (texture : d.texture = .stored b) (apart : b.id ≠ p.target.buffer.id)
    (readable : σ.store.Readable b)
    (drawn : d.onto α b (σ.store.pixels b.id) p.bounds
      (p.target.buffer.image (σ.store.pixels p.target.buffer.id)) =
        .ok (p.target.buffer.image bytes)) :
    ∃ σ', p.drawTexture α d σ = .ok p.counted σ' ∧
      σ'.store = σ.store.withPixels p.target.buffer.id bytes := by
  obtain ⟨s₁, opened, texels, kept, closed⟩ := readable.access apart
  have held : p.Ready s₁ := by
    obtain ⟨e, found, live⟩ := ready.stored
    exact ⟨ready.writable, e, kept.trans found, live⟩
  have below : s₁.pixels p.target.buffer.id = σ.store.pixels p.target.buffer.id := by
    rw [Store.pixels, kept, Store.pixels]
  obtain ⟨σ₂, painted, written⟩ := paintTexture_eq_ok (σ := { σ with store := s₁ })
    (g := ⟨b, .readOnly⟩) held (by simpa only [texels, below] using drawn)
  refine ⟨{ σ₂ with store := σ₂.store.closeAccess ⟨b, .readOnly⟩ }, ?_, ?_⟩
  · rw [drawTexture, texture]
    exact bind_eq_ok (openAccess_eq_ok opened) (bind_eq_ok (unwinding_ok.2 painted) rfl)
  · dsimp only
    rw [written]
    exact closed bytes

/-- A texture that cannot be read is skipped. -/
theorem drawTexture_refused {d : TextureDraw} {b : Buffer} (texture : d.texture = .stored b)
    (refused : σ.store.canRead b = false) :
    ∃ σ', p.drawTexture α d σ =
      .ok { p with stats := { p.stats with skipped := p.stats.skipped + 1 } } σ' ∧
        σ'.store = σ.store := by
  obtain ⟨cause, denied⟩ := Store.openAccess_refused refused
  rw [drawTexture, texture]
  exact ⟨_, bind_eq_ok (openAccess_eq_error denied) (bind_eq_ok rfl rfl), rfl⟩

theorem drawTexture_laid [LawfulScalar α] (ready : p.Ready σ.store) {d : TextureDraw}
    (safe : (Stroke.texture d).Safe σ.store p.target.buffer.id) :
    ∃ p' σ', p.drawTexture α d σ = .ok p' σ' ∧ p'.target = p.target ∧
      p.Inked ((Stroke.texture d).laid α σ.store p.bounds) σ.store σ'.store := by
  cases source : d.texture with
  | remote width height =>
    have silent : (Stroke.texture d).laid α σ.store p.bounds = fun _ => [] := by
      funext q
      simp only [Stroke.laid, source]
    rw [silent, drawTexture, source]
    exact ⟨_, _, bind_eq_ok rfl rfl, rfl, .none p _⟩
  | stored b =>
    cases granted : σ.store.canRead b with
    | false =>
      have silent : (Stroke.texture d).laid α σ.store p.bounds = fun _ => [] := by
        funext q
        simp [Stroke.laid, source, granted]
      obtain ⟨σ', done, same⟩ := drawTexture_refused (α := α) (p := p) source granted
      refine ⟨_, σ', done, rfl, ?_⟩
      rw [silent, same]
      exact .none p _
    | true =>
      have same : (Stroke.texture d).laid α σ.store p.bounds =
          d.laid α b (σ.store.pixels b.id) p.bounds := by
        funext q
        simp [Stroke.laid, source, granted]
      obtain ⟨apart, readable⟩ := safe d b rfl source granted
      obtain ⟨bytes, drawn, takes⟩ := d.onto_laid α readable.stored.size ready.stored.size
      obtain ⟨σ', done, written⟩ := drawTexture_eq_ok ready source apart readable drawn
      exact ⟨p.counted, σ', done, rfl, bytes, written, same ▸ takes⟩

theorem stroke_laid [LawfulScalar α] (ready : p.Ready σ.store) {stroke : Stroke}
    (safe : stroke.Safe σ.store p.target.buffer.id) :
    ∃ p' σ', p.stroke α stroke σ = .ok p' σ' ∧ p'.target = p.target ∧
      p.Inked (stroke.laid α σ.store p.bounds) σ.store σ'.store := by
  cases stroke with
  | texture d => exact drawTexture_laid ready safe
  | fill d =>
    obtain ⟨σ', done, inked⟩ := fillRect_laid ready d
    exact ⟨p.counted, σ', done, rfl, inked⟩
  | pause span => exact ⟨p, _, bind_eq_ok rfl rfl, rfl, .none p _⟩

/-- The pixels take what all strokes lay on them, in order. -/
theorem strokes_laid [LawfulScalar α] (ready : p.Ready σ.store) {strokes : List Stroke}
    (safe : ∀ stroke ∈ strokes, stroke.Safe σ.store p.target.buffer.id) :
    ∃ p' stats σ', p.strokes α strokes σ = .ok (p', stats) σ' ∧ p'.target = p.target ∧
      p.Inked (fun q => strokes.flatMap (·.laid α σ.store p.bounds q)) σ.store σ'.store := by
  induction strokes generalizing p σ with
  | nil => exact ⟨p, [], σ, rfl, rfl, .none p _⟩
  | cons stroke rest ih =>
    rw [List.forall_mem_cons] at safe
    obtain ⟨p₁, σ₁, drawn, target, first⟩ := stroke_laid (α := α) ready safe.1
    have others (id : BufferId) (apart : id ≠ p.target.buffer.id) := first.entry? apart
    have locks := first.lock
    have bounds : p₁.bounds = p.bounds := congrArg (·.buffer.bounds) target
    obtain ⟨last, stats, σ₂, done, target', later⟩ := ih (p := p₁) (σ := σ₁)
      ⟨target ▸ ready.writable, target ▸ (first.ready ready).stored⟩
      fun s mem => target ▸ (safe.2 s mem).congr locks others
    refine ⟨last, p₁.stats :: stats, σ₂, bind_eq_ok drawn (bind_eq_ok done rfl),
      target'.trans target, ?_⟩
    -- Later strokes find their textures as they were, since only the destination changed.
    have unchanged (q : Point) : rest.flatMap (·.laid α σ₁.store p.bounds q) =
        rest.flatMap (·.laid α σ.store p.bounds q) :=
      List.flatMap_congr fun s mem => (safe.2 s mem).laid_congr α locks others p.bounds q
    rw [Inked.congr target, bounds] at later
    simp only [unchanged] at later
    exact first.append ready later

end Pass

end Compositor
