import Compositor.Proofs.Frame.Swapchain

/-!
# Drawing only what is damaged is enough

A scene gives every point a colour, and changes between two frames where damage was added. A painter
sets the pixels that it is told to redraw and no others. What keeps the buffers right is that the
ring covers what is wrong: a pixel of a buffer that does not show the scene is in what that buffer
has missed or in the current damage. Main statement: after every frame that was painted, its buffer
shows the scene at every pixel, whatever failed before.
-/

namespace Compositor

/-- The colour of a pixel of a buffer. -/
def Store.colorAt (s : Store) (b : Buffer) (p : Point) : Except Fault Rgba8 :=
  (⟨b.format, b.stride, s.pixels b.id⟩ : Image).get p

theorem Store.colorAt_congr {s s' : Store} {b : Buffer} (same : s'.pixels b.id = s.pixels b.id)
    (p : Point) : s'.colorAt b p = s.colorAt b p := by
  unfold colorAt
  rw [same]

/-- Two attempts at a colour agree if both give it or both fail alike. -/
instance decidableEqAttempt : DecidableEq (Except Fault Rgba8)
  | .ok c, .ok c' => decidable_of_iff (c = c') ⟨congrArg _, Except.ok.inj⟩
  | .error f, .error f' => decidable_of_iff (f = f') ⟨congrArg _, Except.error.inj⟩
  | .ok _, .error _ | .error _, .ok _ => isFalse nofun

abbrev Scene := Point → Rgba8

open Compositor.Action

namespace FrameLoop

/-- If the painter runs in this frame, it sets the pixels of the damage that it is given to the
scene, and leaves all others alone. -/
def Draws (α : Type) [Scalar α] (d : FrameLoop) (c : Conditions) (painter : Region → Painting)
    (σ : Session) (scene : Scene) : Prop :=
  ∀ d₁ f σ₁ drawn σ₂, d.beginFrame c σ = .ok (d₁, .ok f) σ₁ →
    (painter f.damage).draw α f.pass σ₁ = .ok drawn σ₂ →
    ∀ p, f.buffer.bounds.contains p → σ₂.store.colorAt f.buffer p =
      if f.damage.contains p then .ok (scene p) else σ₁.store.colorAt f.buffer p

/-- The pixels of one frame can be compared one by one. -/
def watch (α : Type) [Scalar α] (d : FrameLoop) (c : Conditions) (painter : Region → Painting)
    (σ : Session) (scene : Scene) : Bool :=
  match d.beginFrame c σ with
  | .ok (_, .ok f) σ₁ =>
    match (painter f.damage).draw α f.pass σ₁ with
    | .ok _ σ₂ => f.buffer.bounds.points.all fun p => σ₂.store.colorAt f.buffer p =
        if f.damage.contains p then .ok (scene p) else σ₁.store.colorAt f.buffer p
    | .error _ _ => true
  | _ => true

theorem watch_iff {α : Type} [Scalar α] {d : FrameLoop} {c : Conditions}
    {painter : Region → Painting} {σ : Session} {scene : Scene} :
    watch α d c painter σ scene = true ↔ d.Draws α c painter σ scene := by
  unfold watch Draws
  constructor
  · intro watched d₁ f σ₁ drawn σ₂ begun draw p inside
    rw [begun] at watched
    dsimp only at watched
    rw [draw] at watched
    exact of_decide_eq_true (List.all_eq_true.1 watched p (Rect.mem_points.2 inside))
  · intro draws
    split
    · rename_i d₁ f σ₁ begun
      split
      · rename_i drawn σ₂ draw
        refine List.all_eq_true.2 fun p mem => decide_eq_true ?_
        exact draws d₁ f σ₁ drawn σ₂ begun draw p (Rect.mem_points.1 mem)
      · rfl
    · rfl

instance {α : Type} [Scalar α] {d : FrameLoop} {c : Conditions} {painter : Region → Painting}
    {σ : Session} {scene : Scene} : Decidable (d.Draws α c painter σ scene) :=
  decidable_of_iff _ watch_iff

/-- A loop in use: the scene as it was at the last frame, and the points that were damaged since.
The scene changes from frame to frame at such points only. Anything may fail in any frame. Other
code may do anything but write the buffers of the swapchain or give up their handles. -/
inductive Reaches : FrameLoop → Session → Scene → (Point → Prop) → Prop
  | new {output width height swapchain renderer display k σ d σ'} (scene : Scene) :
    Sized width height → σ.store.Balanced (display.config.holding ++ k) →
    FrameLoop.new output width height swapchain renderer display σ = .ok d σ' →
    Reaches d σ' scene fun _ => False
  | damage {d σ scene touched} (region : Region) :
    Reaches d σ scene touched →
    Reaches (d.damage region) σ scene fun p => touched p ∨ region.contains p
  | damageRect {d σ scene touched} (rect : Rect) :
    Reaches d σ scene touched →
    Reaches (d.damageRect rect) σ scene fun p => touched p ∨ rect.contains p
  | resize {d σ scene touched width height d' σ'} :
    Reaches d σ scene touched → Sized width height →
    d.resize width height σ = .ok d' σ' → Reaches d' σ' scene touched
  | frame {d σ scene touched α c painter scene' d' o σ'} [Scalar α] :
    Reaches d σ scene touched → (∀ p, ¬ touched p → scene' p = scene p) →
    d.Draws α c painter σ scene' → d.makeFrame α c painter σ = .ok (d', o) σ' →
    Reaches d' σ' scene' fun _ => False
  | other {d σ scene touched σ' k} :
    Reaches d σ scene touched → σ'.store.Balanced (d.holding ++ k) →
    (∀ b ∈ d.buffers, σ'.store.pixels b.id = σ.store.pixels b.id) →
    Reaches d σ' scene touched

/-- Every pixel of a buffer that does not show the scene is in what the buffer has missed or in the
current damage. A buffer without an entry will be drawn as a whole. -/
def Covers (d : FrameLoop) (s : Store) (scene : Scene) : Prop :=
  ∀ b ∈ d.buffers, ∀ missed ∈ d.ring.missed? b.id, ∀ p, d.bounds.contains p →
    s.colorAt b p ≠ .ok (scene p) → missed.contains p ∨ d.ring.current.contains p

/-- Damage that was added to a loop is in the current damage, as far as it lies in the bounds. -/
structure Sound (d : FrameLoop) (s : Store) (scene : Scene) (touched : Point → Prop) : Prop where
  intact : d.Intact s
  noted : ∀ p, touched p → d.bounds.contains p → d.ring.current.contains p
  covers : d.Covers s scene

variable {d d' : FrameLoop} {c : Conditions} {σ σ' : Session} {scene scene' : Scene}
  {α : Type} [Scalar α] {painter : Region → Painting}

/-- The scene may change where damage was added. -/
theorem Sound.change {s : Store} {touched : Point → Prop} (sound : d.Sound s scene touched)
    (agrees : ∀ p, ¬ touched p → scene' p = scene p) : d.Covers s scene' := by
  intro b mem missed entry p inside wrong
  by_cases there : touched p
  · exact .inr (sound.noted p there inside)
  · rw [agrees p there] at wrong
    exact sound.covers b mem missed entry p inside wrong

/-- Where everything is damaged, nothing is left out. -/
theorem sound_of_everything {s : Store} (intact : d.Intact s)
    (everything : d.ring.current = Region.ofRect d.bounds) (scene : Scene)
    (touched : Point → Prop) : d.Sound s scene touched := by
  have current (p : Point) (inside : d.bounds.contains p) : d.ring.current.contains p := by
    rw [everything]
    exact Region.contains_ofRect.2 inside
  exact ⟨intact, fun p _ => current p, fun _ _ _ _ p inside _ => .inr (current p inside)⟩

/-- Added damage is current from now on, as far as it lies in the bounds. -/
theorem Sound.damaged {s : Store} {touched added : Point → Prop}
    (sound : d.Sound s scene touched) {ring : DamageRing} (intact : { d with ring }.Intact s)
    (entries : ∀ id, ring.missed? id = d.ring.missed? id)
    (current : ∀ p, ring.current.contains p ↔
      d.ring.current.contains p ∨ added p ∧ ∀ r ∈ d.ring.bounds, r.contains p) :
    { d with ring }.Sound s scene fun p => touched p ∨ added p := by
  refine ⟨intact, fun p there inside => (current p).2 ?_,
    fun b mem missed entry p inside wrong => ?_⟩
  · rcases there with before | now
    · exact .inl (sound.noted p before inside)
    · refine .inr ⟨now, fun r bounds => ?_⟩
      rw [sound.intact.bounds_ring] at bounds
      cases bounds
      exact inside
  · dsimp only at entry
    rw [entries] at entry
    rcases sound.covers b mem missed entry p inside wrong with old | now
    · exact .inl old
    · exact .inr ((current p).2 (.inl now))

/-- What the ring hands out for a buffer covers everything that is wrong with it. -/
theorem Covers.rotateFor {s : Store} (intact : d.Intact s) (covers : d.Covers s scene) {b : Buffer}
    (mem : b ∈ d.buffers) (alive : BufferId → Bool) {p : Point} (inside : d.bounds.contains p)
    (wrong : s.colorAt b p ≠ .ok (scene p)) : (d.ring.rotateFor alive b.id).2.contains p := by
  rw [DamageRing.damage_rotateFor]
  cases found : (d.ring.prune alive).missed? b.id with
  | none =>
    rw [← intact.everything_ring] at inside
    exact Region.contains_ofRect.2 inside
  | some missed =>
    rw [DamageRing.missed?_prune] at found
    split at found
    · exact Region.contains_union.2 (covers b mem missed found p inside wrong)
    · cases found

/-- The buffer of a frame that was painted shows the scene. -/
theorem Painted.shows {b : Buffer} {o : FrameOutcome} (painted : Painted α d c painter σ b d' o σ')
    (intact : d.Intact σ.store) (mem : b ∈ d.buffers) (covers : d.Covers σ.store scene)
    (draws : d.Draws α c painter σ scene) {p : Point} (inside : b.bounds.contains p) :
    σ'.store.colorAt b p = .ok (scene p) := by
  have drawn := draws _ _ _ _ _ painted.begun painted.draw p (by rwa [painted.buffer])
  rw [painted.buffer, painted.damage] at drawn
  rw [Store.colorAt_congr painted.pixels_after, drawn]
  split
  · rfl
  · rename_i undamaged
    rw [Store.colorAt_congr painted.pixels_before]
    obtain ⟨width, height, -⟩ := intact.fits b mem
    have inside' : d.bounds.contains p := by
      rwa [Buffer.bounds, width, height] at inside
    exact Classical.byContradiction fun wrong =>
      undamaged (covers.rotateFor intact mem σ.store.isAlive inside' wrong)

theorem Fits.colorAt {b b' : Buffer} (fits : d.Fits b) (fits' : d.Fits b') (same : b'.id = b.id)
    (s : Store) (p : Point) : s.colorAt b' p = s.colorAt b p := by
  obtain ⟨width, height, format⟩ := fits
  obtain ⟨width', height', format'⟩ := fits'
  unfold Store.colorAt Buffer.stride
  rw [same, format, format', width, width']

/-- When the ring turns for a buffer that now shows the scene, what is wrong with the others goes
into their entries. -/
theorem Covers.turned {s s' : Store} {b : Buffer} (intact : d.Intact s) (covers : d.Covers s scene)
    (mem : b ∈ d.buffers) (alive : BufferId → Bool)
    (shows : ∀ p, d.bounds.contains p → s'.colorAt b p = .ok (scene p))
    (others : ∀ b' ∈ d.buffers, b'.id ≠ b.id → s'.pixels b'.id = s.pixels b'.id) :
    (d.turned alive b).Covers s' scene := by
  intro b' mem' missed' entry p inside wrong
  simp only [FrameLoop.turned, DamageRing.missed?_rotateFor] at entry
  by_cases same : b'.id = b.id
  · rw [(intact.fits b mem).colorAt (intact.fits b' mem') same] at wrong
    exact absurd (shows p inside) wrong
  · rw [if_neg same, DamageRing.missed?_prune] at entry
    split at entry
    · obtain ⟨missed, found, rfl⟩ := Option.map_eq_some_iff.1 entry
      rw [Store.colorAt_congr (others b' mem' same)] at wrong
      exact .inl (Region.contains_union.2 (covers b' mem' missed found p inside wrong))
    · cases entry

theorem Sound.frame {touched : Point → Prop} {o : FrameOutcome}
    (sound : d.Sound σ.store scene touched) (agrees : ∀ p, ¬ touched p → scene' p = scene p)
    (draws : d.Draws α c painter σ scene') (h : d.makeFrame α c painter σ = .ok (d', o) σ') :
    d'.Sound σ'.store scene' fun _ => False := by
  have intact' := sound.intact.makeFrame h
  have covers := sound.change agrees
  obtain ⟨k, balanced⟩ := sound.intact.owned
  obtain ⟨b, found, -, others, ending⟩ := makeFrame_keeps h balanced
  have mem : b ∈ d.buffers := List.mem_of_getElem? found
  -- a frame that failed damages everything, so nothing is left to show
  have failed (display : HeadlessDisplay)
      (spoilt : d' = { d.turned σ.store.isAlive b with display }.spoiled) :
      d'.Sound σ'.store scene' fun _ => False := by
    refine sound_of_everything intact' ?_ scene' _
    rw [← intact'.everything_ring, spoilt]
    rfl
  obtain ⟨-, spoilt, -⟩ | ⟨⟨painted⟩⟩ := ending
  · exact failed d.display spoilt
  · obtain ⟨display, ⟨-, trusted⟩ | ⟨-, spoilt⟩⟩ := painted.closes
    · have shows (p : Point) (inside : d.bounds.contains p) :
          σ'.store.colorAt b p = .ok (scene' p) := by
        refine painted.shows sound.intact mem covers draws ?_
        obtain ⟨width, height, -⟩ := sound.intact.fits b mem
        rwa [Buffer.bounds, width, height]
      have turned := covers.turned sound.intact mem σ.store.isAlive shows
        fun b' mem' apart => others b'.id (List.mem_append_left _ (List.mem_map_of_mem mem')) apart
      rw [trusted] at intact' ⊢
      exact ⟨intact', nofun, turned⟩
    · exact failed display spoilt

/-- Whatever happens to a loop, its ring covers what is wrong with its buffers. -/
theorem Reaches.sound {touched : Point → Prop} (h : d.Reaches σ scene touched) :
    d.Sound σ.store scene touched := by
  induction h with
  | new scene sized balanced made =>
    obtain ⟨intact, everything⟩ := intact_new made sized balanced
    exact sound_of_everything intact everything scene _
  | @damage d _ _ _ region _ ih =>
    exact ih.damaged (ih.intact.damage region) (fun _ => rfl)
      fun p => d.ring.contains_current_add region p
  | @damageRect d _ _ _ rect _ ih =>
    exact ih.damaged (ih.intact.damageRect rect) (d.ring.missed?_addRect · rect)
      fun p => d.ring.contains_current_addRect rect p
  | resize _ sized resized ih =>
    obtain ⟨rfl, rfl⟩ | ⟨intact, everything⟩ := ih.intact.resize resized sized
    · exact ih
    · exact sound_of_everything intact everything _ _
  | frame _ agrees draws made ih => exact ih.frame agrees draws made
  | other _ balanced pixels ih =>
    refine ⟨ih.intact.other balanced, ih.noted, fun b mem missed entry p inside wrong => ?_⟩
    rw [Store.colorAt_congr (pixels b mem)] at wrong
    exact ih.covers b mem missed entry p inside wrong

/-- A frame whose painter ran returns, whatever fails then, and its buffer shows the scene at every
pixel. -/
theorem painted_buffer_shows_scene {touched : Point → Prop} {d₁ : FrameLoop} {f : OpenFrame}
    {σ₁ σ₂ : Session} {p : Pass} {stats : List PassTally} (reached : d.Reaches σ scene touched)
    (agrees : ∀ p, ¬ touched p → scene' p = scene p) (draws : d.Draws α c painter σ scene')
    (begun : d.beginFrame c σ = .ok (d₁, .ok f) σ₁)
    (drawn : (painter f.damage).draw α f.pass σ₁ = .ok (p, stats) σ₂) :
    ∃ d' result σ', d.makeFrame α c painter σ = .ok (d', ⟨result, some (f.damage, stats)⟩) σ' ∧
      d.buffers[d.next]? = some f.buffer ∧
      ∀ q, f.buffer.bounds.contains q → σ'.store.colorAt f.buffer q = .ok (scene' q) := by
  obtain ⟨d', result, σ', made⟩ := makeFrame_of_drawn begun drawn
  have sound := reached.sound
  obtain ⟨k, balanced⟩ := sound.intact.owned
  obtain ⟨b, found, -, -, ending⟩ := makeFrame_keeps made balanced
  obtain ⟨none, -⟩ | ⟨⟨painted⟩⟩ := ending
  · cases none
  · have again := EStateM.Result.ok.inj (begun.symm.trans painted.begun)
    have same : f = painted.frame := Except.ok.inj (Prod.mk.inj again.1).2
    obtain rfl : f.buffer = b := by
      rw [same]
      exact painted.buffer
    refine ⟨d', result, σ', made, found, fun q inside => ?_⟩
    exact painted.shows sound.intact (List.mem_of_getElem? found) (sound.change agrees) draws inside

/-- The right half of two pixels. -/
def rightHalf : Rect := ⟨1, 0, 1, 1⟩

/-- Two pixels, white and black. -/
def halves : Scene := fun p => if rightHalf.contains p then ⟨0, 0, 0, 255⟩ else ⟨255, 255, 255, 255⟩

/-- A painter that fills what is damaged with white, and the right half with black if asked to. -/
def paintHalves (black : Bool) (damage : Region) : Painting where
  strokes :=
    .fill { target := ⟨0, 0, 2, 1⟩, color := ⟨1, 1, 1, 1⟩, clip := some damage } ::
      if black then
        [.fill { target := rightHalf, color := ⟨0, 0, 0, 1⟩, clip := some damage }]
      else []

/-- A first frame in white is rejected; then the right half turns black, and the second buffer,
which was never drawn, shows both halves. -/
theorem second_buffer_shows_halves :
    let white : Scene := fun _ => ⟨255, 255, 255, 255⟩
    ∃ (d d₁ : FrameLoop) (σ σ₁ σ₂ : Session) (touched : Point → Prop) (f : OpenFrame) (p : Pass)
      (stats : List PassTally), d.Reaches σ white touched ∧
      (∀ p, ¬ touched p → halves p = white p) ∧ d.Draws Float {} (paintHalves true) σ halves ∧
      d.beginFrame {} σ = .ok (d₁, .ok f) σ₁ ∧
      (paintHalves true f.damage).draw Float f.pass σ₁ = .ok (p, stats) σ₂ ∧
      ∃ d' result σ', d.makeFrame Float {} (paintHalves true) σ =
          .ok (d', ⟨result, some (f.damage, stats)⟩) σ' ∧
        d.buffers[d.next]? = some f.buffer ∧
        ∀ q, f.buffer.bounds.contains q → σ'.store.colorAt f.buffer q = .ok (halves q) := by
  intro white
  have run : Returns (FrameLoop.new ⟨1⟩ 2 1 .double {} (.new ⟨1⟩ false)) (.new default) fun d σ =>
      d.Draws Float { rejects := true } (paintHalves false) σ white ∧
      Returns (d.makeFrame Float { rejects := true } (paintHalves false)) σ fun made σ₁ =>
        (made.1.damageRect rightHalf).Draws Float {} (paintHalves true) σ₁ halves ∧
        Returns ((made.1.damageRect rightHalf).makeFrame Float {} (paintHalves true)) σ₁
          fun made' _ => made'.2.painted.isSome := by
    decide +kernel
  obtain ⟨d₀, σ₀, opened, draws₀, run₁⟩ := run.exists_ok
  obtain ⟨⟨d₁, o₁⟩, σ₁, made₁, draws₁, run₂⟩ := run₁.exists_ok
  obtain ⟨⟨d₂, o₂⟩, σ₂, made₂, painted⟩ := run₂.exists_ok
  have sized : Sized 2 1 := ⟨by decide, by decide, by decide, by decide⟩
  have reached₀ : d₀.Reaches σ₀ white fun _ => False :=
    .new (k := ⟨[], []⟩) white sized Store.balanced_empty opened
  have reached₁ := (reached₀.frame (fun _ _ => rfl) draws₀ made₁).damageRect rightHalf
  have agrees (p : Point) (untouched : ¬ (False ∨ rightHalf.contains p)) : halves p = white p :=
    if_neg fun inside => untouched (.inr inside)
  obtain ⟨d₃, opened', σ₃, begun, ⟨error, -, rfl, -⟩ | ⟨f, p, stats, σ₄, result, rfl, drawn, -⟩⟩ :=
    makeFrame_ok made₂
  · cases painted
  · exact ⟨_, d₃, σ₁, σ₃, σ₄, _, f, p, stats, reached₁, agrees, draws₁, begun, drawn,
      painted_buffer_shows_scene reached₁ agrees draws₁ begun drawn⟩

end FrameLoop

end Compositor
