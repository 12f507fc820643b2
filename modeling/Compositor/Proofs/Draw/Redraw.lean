import Compositor.Proofs.Draw.Inks
import Compositor.Proofs.Geometry.Floor

/-!
# Drawing damage only

A pass that draws a damaged region only, by clipping every stroke to it, leaves the same pixels
there as a pass that draws everything, and does not touch the others. The region cuts what a stroke
covers into other rectangles, but each pixel still takes the inks that it took, in the same order.
-/

namespace Compositor

/-! ## Strokes with a smaller clip -/

/-- What is left of a clip inside a damaged region. -/
def Region.clipTo (damage : Region) : Option Region → Region
  | none => damage
  | some clip => clip.inter damage

/-- The same stroke, drawn inside a damaged region only. -/
def Stroke.within (damage : Region) : Stroke → Stroke
  | .texture d => .texture { d with clip := some (damage.clipTo d.clip) }
  | .fill d => .fill { d with clip := some (damage.clipTo d.clip) }
  | .pause span => .pause span

namespace Region

variable {damage : Region} {clip : Option Region} {p : Point}

theorem contains_clipTo :
    (damage.clipTo clip).contains p ↔ damage.contains p ∧ ∀ region ∈ clip, region.contains p := by
  cases clip with
  | none => simp [clipTo]
  | some clip => simp [clipTo, contains_inter, and_comm]

theorem Normal.clipTo (h : damage.Normal) (normal : ∀ region ∈ clip, region.Normal) :
    (damage.clipTo clip).Normal := by
  cases clip with
  | none => exact h
  | some clip => exact (normal clip rfl).inter h

end Region

theorem contains_covered_clipTo {target bounds : Rect} {clip : Option Region} {damage : Region}
    {p : Point} : (covered target bounds (some (damage.clipTo clip))).contains p ↔
      damage.contains p ∧ (covered target bounds clip).contains p := by
  rw [contains_covered, contains_covered]
  simp only [Option.mem_some_iff, forall_eq', Region.contains_clipTo]
  tauto

theorem RectFill.inks_clipTo (fill : RectFill) (bounds : Rect) (damage : Region) (p : Point) :
    { fill with clip := some (damage.clipTo fill.clip) }.inks bounds p =
      if damage.contains p then fill.inks bounds p else [] := by
  simp only [inks, ← ite_and, contains_covered_clipTo]
  rfl

theorem TextureDraw.inks_clipTo (α : Type) [Scalar α] (d : TextureDraw) (b : Buffer)
    (bytes : Array UInt8) (bounds : Rect) (damage : Region) (p : Point) :
    { d with clip := some (damage.clipTo d.clip) }.inks α b bytes bounds p =
      if damage.contains p then d.inks α b bytes bounds p else [] := by
  have source : { d with clip := some (damage.clipTo d.clip) }.effectiveSource =
    d.effectiveSource := rfl
  have target : { d with clip := some (damage.clipTo d.clip) }.effectiveTarget =
    d.effectiveTarget := rfl
  have shade : { d with clip := some (damage.clipTo d.clip) }.shade α b bytes =
    d.shade α b bytes := rfl
  unfold inks
  rw [source, target, shade]
  split
  · simp only [ite_self]
  · simp only [← ite_and, contains_covered_clipTo]

namespace Stroke

variable {s : Store} {damage : Region} {target : BufferId}

theorem Fits.within {stroke : Stroke} (fits : stroke.Fits s target) (normal : damage.Normal) :
    (stroke.within damage).Fits s target := by
  obtain ⟨clips, texture⟩ := fits
  cases stroke with
  | texture d =>
    refine ⟨fun region mem => ?_, fun d' b same stored => ?_⟩
    · obtain rfl := Option.some.inj mem
      exact normal.clipTo clips
    · cases same
      exact texture d b rfl stored
  | fill d =>
    refine .fill fun region mem => ?_
    obtain rfl := Option.some.inj mem
    exact normal.clipTo clips
  | pause span => exact ⟨clips, texture⟩

/-- Inside the damage a pixel takes the inks of the whole stroke, elsewhere none. -/
theorem inks_within (α : Type) [Scalar α] (s : Store) (bounds : Rect) (damage : Region)
    (stroke : Stroke) (p : Point) : (stroke.within damage).inks α s bounds p =
      if damage.contains p then stroke.inks α s bounds p else [] := by
  cases stroke with
  | texture d =>
    simp only [within, inks]
    split
    · exact d.inks_clipTo α _ _ bounds damage p
    · simp only [ite_self]
  | fill d =>
    simp only [within, inks]
    exact d.inks_clipTo bounds damage p
  | pause span => simp only [within, inks, ite_self]

end Stroke

/-! ## The pixels after a pass -/

/-- The bytes of a pixel of a buffer. -/
def Store.pixel (s : Store) (b : Buffer) (p : Point) : UInt8 × UInt8 × UInt8 × UInt8 :=
  bytesAt (s.pixels b.id) (b.offset p)

namespace Pass

variable {α : Type} [Scalar α] {p : Pass} {σ σ' : Session} {s s' : Store}
  {inks : Point → List Ink} {damage : Region} {strokes : List Stroke}

theorem Inked.pixel (inked : p.Inked inks s s') (ready : p.Ready s) {q : Point}
    (inside : p.bounds.contains q) : s'.pixel p.target.buffer q =
      p.target.buffer.format.inked (s.pixel p.target.buffer q) (inks q) := by
  obtain ⟨bytes, rfl, takes⟩ := inked
  obtain ⟨e, found, -⟩ := ready.stored
  rw [Store.pixel, Store.pixels_withPixels found]
  exact takes.pixel q inside

/-- A pass puts the inks of all strokes on each pixel, and one inside a damaged region the same inks
on the pixels of the region and none on others. -/
theorem strokes_within [LawfulScalar α] (ready : p.Ready σ.store) (normal : damage.Normal)
    (fits : ∀ stroke ∈ strokes, stroke.Fits σ.store p.target.buffer.id) :
    ∃ full part σ₁ σ₂,
      p.strokes α strokes σ = .ok full σ₁ ∧
      p.strokes α (strokes.map (·.within damage)) σ = .ok part σ₂ ∧
      p.Ready σ₁.store ∧ p.Ready σ₂.store ∧
      ∀ q, p.bounds.contains q →
        σ₁.store.pixel p.target.buffer q = p.target.buffer.format.inked
          (σ.store.pixel p.target.buffer q) (strokes.flatMap (·.inks α σ.store p.bounds q)) ∧
        σ₂.store.pixel p.target.buffer q =
          if damage.contains q then σ₁.store.pixel p.target.buffer q
          else σ.store.pixel p.target.buffer q := by
  have clipped : ∀ stroke ∈ strokes.map (·.within damage),
      stroke.Fits σ.store p.target.buffer.id := by
    intro stroke mem
    obtain ⟨whole, listed, rfl⟩ := List.mem_map.1 mem
    exact (fits whole listed).within normal
  obtain ⟨p₁, stats₁, σ₁, drawn, -, full⟩ := strokes_inked (α := α) ready fits
  obtain ⟨p₂, stats₂, σ₂, redrawn, -, part⟩ := strokes_inked (α := α) ready clipped
  refine ⟨_, _, σ₁, σ₂, drawn, redrawn, full.ready ready, part.ready ready, fun q inside => ?_⟩
  have inked := full.pixel ready inside
  have inked' := part.pixel ready inside
  refine ⟨inked, ?_⟩
  -- A pixel of the damage takes the same inks in both passes, any other pixel takes none.
  simp only [List.flatMap_map, Stroke.inks_within] at inked'
  by_cases damaged : damage.contains q
  · simp only [damaged, ↓reduceIte] at inked' ⊢
    exact inked'.trans inked.symm
  · have none : (strokes.flatMap fun _ => ([] : List Ink)) = [] :=
      List.flatMap_eq_nil_iff.2 fun _ _ => rfl
    simp only [damaged, Bool.false_eq_true, ↓reduceIte, none] at inked' ⊢
    exact inked'

/-- From the same pixels on, drawing inside a damaged region only and drawing everything leave the
same bytes at every pixel of the region, and drawing inside it leaves all other pixels as they were.
Neither pass breaks off; and drawing everything puts the inks of all strokes on each pixel, in their
order and each of them once. -/
theorem partial_redraw_agrees [LawfulScalar α] {r : Renderer} {b : Buffer}
    (stored : σ.store.Stored b) (begun : r.start b σ = .ok (.ok p) σ') (normal : damage.Normal)
    (fits : ∀ stroke ∈ strokes, stroke.Fits σ.store b.id) :
    ∃ full part σ₁ σ₂,
      p.strokes α strokes σ' = .ok full σ₁ ∧
      p.strokes α (strokes.map (·.within damage)) σ' = .ok part σ₂ ∧
      (σ₁.store.pixels b.id).size = b.size ∧ (σ₂.store.pixels b.id).size = b.size ∧
      ∀ q, b.bounds.contains q →
        σ₁.store.pixel b q = b.format.inked (σ.store.pixel b q)
          (strokes.flatMap (·.inks α σ.store b.bounds q)) ∧
        σ₂.store.pixel b q =
          if damage.contains q then σ₁.store.pixel b q else σ.store.pixel b q := by
  obtain ⟨rfl, ready, before, others⟩ := start_ready stored begun
  obtain ⟨full, part, σ₁, σ₂, drawn, redrawn, whole, whole', agree⟩ := strokes_within (α := α)
    ready normal fun stroke mem => (fits stroke mem).congr others
  refine ⟨full, part, σ₁, σ₂, drawn, redrawn, whole.stored.size, whole'.stored.size,
    fun q inside => ?_⟩
  have untouched : σ'.store.pixel p.target.buffer q = σ.store.pixel p.target.buffer q := by
    rw [Store.pixel, before, Store.pixel]
  have inks : strokes.flatMap (·.inks α σ'.store p.bounds q) =
      strokes.flatMap (·.inks α σ.store p.bounds q) :=
    List.flatMap_congr fun stroke mem => (fits stroke mem).inks_congr α others p.bounds q
  rw [← untouched]
  exact inks ▸ agree q inside

/-- A stretched texel and a fill, drawn again in the second column only. -/
theorem second_column_is_redrawn :
    let b : Buffer := ⟨⟨0⟩, 2, 1, .argb8888, true⟩
    let texel : Buffer := ⟨⟨1⟩, 1, 1, .argb8888, true⟩
    let damage := Region.ofRect ⟨1, 0, 1, 1⟩
    let strokes : List Stroke := [.texture { texture := .stored texel, target := b.bounds },
      .fill { target := b.bounds, color := ⟨0, 0, 0.5, 0.5⟩, clip := some damage }]
    let σ : Session := ⟨⟨[⟨b, 1, .idle, #[1, 2, 3, 4, 5, 6, 7, 8], []⟩,
      ⟨texel, 1, .idle, #[9, 9, 9, 9], []⟩], [], []⟩, default, [], []⟩
    ∃ p σ' full part σ₁ σ₂,
      Renderer.start {} b σ = .ok (.ok p) σ' ∧
      p.strokes Float strokes σ' = .ok full σ₁ ∧
      p.strokes Float (strokes.map (·.within damage)) σ' = .ok part σ₂ ∧
      σ₂.store.pixel b ⟨0, 0⟩ = (1, 2, 3, 4) ∧
      σ₂.store.pixel b ⟨1, 0⟩ = σ₁.store.pixel b ⟨1, 0⟩ := by
  intro b texel damage strokes σ
  obtain ⟨p, σ', begun⟩ : ∃ p σ', Renderer.start {} b σ = .ok (.ok p) σ' := ⟨_, _, rfl⟩
  have stored : σ.store.Stored b := ⟨_, rfl, by decide, rfl⟩
  have readable : σ.store.Readable texel := ⟨rfl, ⟨_, rfl, by decide, rfl⟩, .inl rfl⟩
  have fits : ∀ stroke ∈ strokes, stroke.Fits σ.store b.id := by
    have clipped : ∀ region ∈ some damage, region.Normal := by
      simpa using Region.normal_ofRect ⟨1, 0, 1, 1⟩
    simp only [strokes, List.forall_mem_cons]
    exact ⟨.stored (by simp) rfl (by decide) readable, .fill clipped, by simp⟩
  obtain ⟨full, part, σ₁, σ₂, drawn, redrawn, -, -, agree⟩ := partial_redraw_agrees (α := Float)
    stored begun (Region.normal_ofRect ⟨1, 0, 1, 1⟩) fits
  refine ⟨p, σ', full, part, σ₁, σ₂, begun, drawn, redrawn, ?_, ?_⟩
  · rw [(agree ⟨0, 0⟩ (by decide)).2, if_neg (by decide)]
    decide
  · rw [(agree ⟨1, 0⟩ (by decide)).2, if_pos (by decide)]

end Pass

end Compositor
